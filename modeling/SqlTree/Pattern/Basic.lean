import SqlTree.Pattern.Span

/-!
# Patterns

A pattern is a regular expression that the text of a value has to match. It is a tree whose leaves
stand for a character or for a place between two; every node knows the part of the text that it was
read from.
-/

namespace SqlTree.Pattern

/-- A character that stands for itself. It is a byte if it is written as two hexadecimal digits. -/
structure Literal where
  char : Char
  isByte : Bool
  span : Span
  deriving DecidableEq, Repr

/-- What matches without parts. -/
inductive Leaf where
  | nothing
  | literal (l : Literal)
  | anyCharacter
  /-- The start or the end of a line or of the text. -/
  | anchor
  /-- The start or the end of a word, or that there is none. -/
  | wordEdge
  /-- Digits, blanks or letters of words, or all others. -/
  | shorthand (negated : Bool)
  /-- The characters with some property. -/
  | property
  /-- Flags for what follows. -/
  | flags (flags : List Char)
  /-- In a class, the characters from one to another. -/
  | range (first last : Literal)
  /-- In a class, a class of ASCII characters with a name. -/
  | named (negated : Bool)
  deriving DecidableEq, Repr

/-- How parts make a whole. -/
inductive Form where
  | sequence
  | choice
  | repeated
  | group (flags : List Char)
  /-- A class in brackets. -/
  | bracketed (negated : Bool)
  /-- In a class, all members of the parts. -/
  | union
  /-- In a class, the common or the different members of two parts. -/
  | operation
  deriving DecidableEq, Repr

/-- A pattern. -/
inductive Node where
  | leaf (symbol : Leaf) (span : Span)
  | branch (form : Form) (parts : List Node) (span : Span)

/-- The part of the text that a pattern was read from. -/
def Node.span : Node → Span
  | .leaf _ span => span
  | .branch _ _ span => span

/-- Parts in a row as one pattern; a part that is alone stands for itself. -/
def Node.join (form : Form) (span : Span) : List Node → Node
  | [] => .leaf .nothing span
  | [part] => part
  | parts => .branch form parts span

mutual

/-- The first part that is nested deeper than the limit. -/
def Node.tooDeep? : Nat → Node → Option Span
  | _, .leaf _ _ => none
  | 0, .branch _ _ span => some span
  | limit + 1, .branch _ parts _ => tooDeepIn? limit parts

/-- The first part of several that is nested deeper than the limit. -/
def tooDeepIn? : Nat → List Node → Option Span
  | _, [] => none
  | limit, part :: parts => part.tooDeep? limit <|> tooDeepIn? limit parts

end

end SqlTree.Pattern
