import SqlTree.Text.Hexadecimal

/-!
# Strings in TOML text

The four kinds of strings: basic ones with escapes and literal ones without, on one line between
single delimiters or over several lines between triple ones. Each reader is given the text behind
the opening delimiter and yields the string and what follows the closing one.
-/

namespace SqlTree.Toml

/-- What a reader yields: a value and the text behind it. -/
abbrev Read (α : Type) := Option (α × List Char)

/-- Put a character in front of the string that was read. -/
def Read.cons (c : Char) (r : Read (List Char)) : Read (List Char) :=
  r.map fun (text, after) => (c :: text, after)

/-- Whether a character may stand in a comment or a literal string. Tabs are the only control
characters that may. -/
def isVisible (c : Char) : Bool := c == '\t' || (32 ≤ c.toNat && c.toNat != 127)

/-- The character that a backslash and a letter stand for. -/
def letterEscape? : Char → Option Char
  | 'b' => some '\x08'
  | 't' => some '\t'
  | 'n' => some '\n'
  | 'f' => some '\x0c'
  | 'r' => some '\r'
  | '"' => some '"'
  | '\\' => some '\\'
  | _ => none

/-- A basic string on one line. -/
def readBasic : List Char → Read (List Char)
  | [] => none
  | '"' :: rest => some ([], rest)
  | '\\' :: 'u' :: a :: b :: c :: d :: rest =>
    (Text.codePoint? [a, b, c, d]).bind fun x => Read.cons x (readBasic rest)
  | '\\' :: 'U' :: a :: b :: c :: d :: e :: f :: g :: h :: rest =>
    (Text.codePoint? [a, b, c, d, e, f, g, h]).bind fun x => Read.cons x (readBasic rest)
  | '\\' :: c :: rest => (letterEscape? c).bind fun x => Read.cons x (readBasic rest)
  | c :: rest => if isVisible c && c != '\\' then Read.cons c (readBasic rest) else none

/-- A literal string on one line. -/
def readLiteral : List Char → Read (List Char)
  | [] => none
  | '\'' :: rest => some ([], rest)
  | c :: rest => if isVisible c then Read.cons c (readLiteral rest) else none

/-- Up to two delimiters before the closing ones belong to the string. -/
def readClosing (delimiter : Char) : List Char → List Char × List Char
  | a :: b :: rest =>
    if a = delimiter then
      if b = delimiter then ([a, b], rest) else ([a], b :: rest)
    else ([], a :: b :: rest)
  | [a] => if a = delimiter then ([a], []) else ([], [a])
  | [] => ([], [])

/-- Whether nothing but blanks stands before the end of the line. -/
def endsLine (text : List Char) : Bool :=
  match text.dropWhile fun c => c == ' ' || c == '\t' with
  | '\n' :: _ => true
  | '\r' :: '\n' :: _ => true
  | _ => false

/-- A basic string over several lines. Behind a backslash at the end of a line, blanks and ends of
lines are skipped. -/
def readBasicLines (skipping : Bool) : List Char → Read (List Char)
  | [] => none
  | '"' :: '"' :: '"' :: rest => some (readClosing '"' rest)
  | '\\' :: 'u' :: a :: b :: c :: d :: rest =>
    (Text.codePoint? [a, b, c, d]).bind fun x => Read.cons x (readBasicLines false rest)
  | '\\' :: 'U' :: a :: b :: c :: d :: e :: f :: g :: h :: rest =>
    (Text.codePoint? [a, b, c, d, e, f, g, h]).bind fun x => Read.cons x (readBasicLines false rest)
  | '\\' :: c :: rest =>
    if endsLine (c :: rest) then readBasicLines true (c :: rest)
    else (letterEscape? c).bind fun x => Read.cons x (readBasicLines false rest)
  | '\r' :: '\n' :: rest =>
    if skipping then readBasicLines true rest else Read.cons '\n' (readBasicLines false rest)
  | '\n' :: rest =>
    if skipping then readBasicLines true rest else Read.cons '\n' (readBasicLines false rest)
  | c :: rest =>
    if skipping && (c == ' ' || c == '\t') then readBasicLines true rest
    else if isVisible c && c != '\\' then Read.cons c (readBasicLines false rest)
    else none

/-- A literal string over several lines. -/
def readLiteralLines : List Char → Read (List Char)
  | [] => none
  | '\'' :: '\'' :: '\'' :: rest => some (readClosing '\'' rest)
  | '\r' :: '\n' :: rest => Read.cons '\n' (readLiteralLines rest)
  | c :: rest =>
    if isVisible c || c == '\n' then Read.cons c (readLiteralLines rest) else none

/-- The text behind an end of line that directly follows an opening delimiter. -/
def dropLineEnd : List Char → List Char
  | '\n' :: rest => rest
  | '\r' :: '\n' :: rest => rest
  | text => text

/-- A string of any kind. -/
def readString : List Char → Read String
  | '"' :: '"' :: '"' :: rest => asString (readBasicLines false (dropLineEnd rest))
  | '"' :: rest => asString (readBasic rest)
  | '\'' :: '\'' :: '\'' :: rest => asString (readLiteralLines (dropLineEnd rest))
  | '\'' :: rest => asString (readLiteral rest)
  | _ => none
where
  asString (r : Read (List Char)) : Read String :=
    r.map fun (text, after) => (String.ofList text, after)

end SqlTree.Toml
