import SqlTree.Pattern.Basic
import SqlTree.Pattern.Cursor
import SqlTree.Text.Hexadecimal

/-!
# Escapes in patterns

A backslash takes the meaning of a mark away or gives one to a letter. Patterns stand in braces, so
none holds a closing brace, and what would need one is unclosed.
-/

namespace SqlTree.Pattern

/-- Whether a character can stand behind a backslash for itself: any of ASCII but letters, digits
and angles. -/
def isEscapable (c : Char) : Bool :=
  c.toNat < 128 && !c.isAlphanum && c != '<' && c != '>'

/-- The control character that a backslash and a letter stand for. -/
def control? : Char → Option Char
  | 'a' => some '\x07'
  | 'f' => some '\x0c'
  | 't' => some '\t'
  | 'n' => some '\n'
  | 'r' => some '\r'
  | 'v' => some '\x0b'
  | _ => none

/-- Read the given number of hexadecimal digits. -/
def readHexDigits : Nat → Reader (List Char)
  | 0 => return []
  | n + 1 => do
    match ← ahead with
    | [] => fail .unfinishedEscape ⟨← here, ← here⟩
    | c :: _ =>
      let span ← nextSpan c
      if (Text.hexValue? c).isNone then fail .badHexDigit span
      forward
      return c :: (← readHexDigits n)

/-- Hexadecimal digits behind an opening brace, which are never closed. -/
def readBracedHex {α : Type} : Reader α := do
  let start ← here
  forward
  let _ ← takeWhile fun c => (Text.hexValue? c).isSome
  match ← ahead with
  | [] => fail .unfinishedEscape ⟨start, ← here⟩
  | c :: _ => fail .badHexDigit (← nextSpan c)

/-- A character by its number, at the letter that tells how many digits there are. -/
def readNumbered (start : Place) (digits : Nat) : Reader (Leaf × Span) := do
  forward
  match ← ahead with
  | [] => fail .unfinishedEscape ⟨← here, ← here⟩
  | '\x7b' :: _ => readBracedHex
  | _ =>
    let first ← here
    let number ← readHexDigits digits
    match Text.codePoint? number with
    | none => fail .badHexNumber ⟨first, ← here⟩
    | some c =>
      let span := ⟨start, ← here⟩
      return (.literal ⟨c, digits == 2, span⟩, span)

/-- A property by its letter. -/
def readProperty (start : Place) : Reader (Leaf × Span) := do
  forward
  match ← ahead with
  | [] => fail .unfinishedEscape ⟨← here, ← here⟩
  | '\x7b' :: _ => do
    let _ ← takeWhile fun _ => true
    fail .unfinishedEscape ⟨← here, ← here⟩
  | '\\' :: _ => fail .badProperty (← nextSpan '\\')
  | _ =>
    forward
    return (.property, ⟨start, ← here⟩)

/-- Whether a character can stand in the name of an edge of words. -/
def isEdgeName (c : Char) : Bool := c.isAlpha || c == '-'

/-- The opening brace behind an edge of words: the name of the edge, which is never closed, or a
count, which is left to be read. -/
def readEdgeName (start : Place) : Reader Unit := do
  let before ← get
  forward
  match ← ahead with
  | [] => fail .unclosedWordEdgeOrCount ⟨start, ← here⟩
  | c :: _ =>
    if isEdgeName c then
      let _ ← takeWhile isEdgeName
      fail .unclosedWordEdge ⟨before.place, ← here⟩
    else set before

/-- An escape that is a backslash and one character, behind which the cursor stands. -/
def readLetter (c : Char) (span : Span) : Reader (Leaf × Span) := do
  if isEscapable c then return (.literal ⟨c, false, span⟩, span)
  else if let some x := control? c then return (.literal ⟨x, false, span⟩, span)
  else if "dswDSW".toList.contains c then return (.shorthand c.isUpper, span)
  else if c == 'A' || c == 'z' then return (.anchor, span)
  else if c == 'B' || c == '<' || c == '>' then return (.wordEdge, span)
  else if c == 'b' then
    if (← ahead).head? = some '\x7b' then readEdgeName span.start
    return (.wordEdge, span)
  else fail .unknownEscape span

/-- An escape, at its backslash. -/
def readEscape : Reader (Leaf × Span) := do
  let start ← here
  bump 1
  match ← ahead with
  | [] => fail .unfinishedEscape ⟨start, ← here⟩
  | c :: _ =>
    if c.isDigit then fail .backreference ⟨start, (← here).next c⟩
    else if c == 'x' then readNumbered start 2
    else if c == 'u' then readNumbered start 4
    else if c == 'U' then readNumbered start 8
    else if c == 'p' || c == 'P' then readProperty start
    else
      bump 1
      readLetter c ⟨start, ← here⟩

end SqlTree.Pattern
