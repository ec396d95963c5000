import SqlTree.Toml.Text

/-!
# Definitions in TOML text

A text is a list of definitions, one a line: a table is opened, or a key is given a value. Values
are strings, and collections as far as an empty one can stand for a name.
-/

namespace SqlTree.Toml

/-- A value that a key is given. -/
inductive Value where
  | text (value : String)
  /-- A collection without items. -/
  | empty
  /-- A table with one field, which is a collection without items. -/
  | field (name : String)
  deriving DecidableEq, Repr

/-- A definition; names are paths of keys. -/
inductive Definition where
  | table (path : List String)
  | pair (parent path : List String) (value : Value)
  deriving DecidableEq, Repr

/-- The key of the whole text that a definition belongs to. -/
def Definition.topKey : Definition → String
  | .table path => path.headD ""
  | .pair parent path _ => (parent ++ path).headD ""

/-- The text behind blanks. -/
def dropBlanks (text : List Char) : List Char := text.dropWhile fun c => c == ' ' || c == '\t'

/-- The text behind an expected character. -/
def expect? (c : Char) : List Char → Option (List Char)
  | d :: rest => if c = d then some rest else none
  | [] => none

/-- The text behind the end of a line, before which a comment may stand. -/
def readLineEnd (text : List Char) : Option (List Char) :=
  let rest := match dropBlanks text with
    | '#' :: comment => comment.dropWhile isVisible
    | rest => rest
  match rest with
  | [] => some []
  | '\n' :: rest => some rest
  | '\r' :: '\n' :: rest => some rest
  | _ => none

/-- Whether a character may stand in a key without quotes. -/
def isBareKeyChar (c : Char) : Bool := c.isAlphanum || c == '_' || c == '-'

/-- One key. -/
def readKey : List Char → Read String
  | '"' :: rest => (readBasic rest).map fun (key, after) => (String.ofList key, after)
  | '\'' :: rest => (readLiteral rest).map fun (key, after) => (String.ofList key, after)
  | text =>
    match text.takeWhile isBareKeyChar with
    | [] => none
    | key => some (String.ofList key, text.dropWhile isBareKeyChar)

/-- Keys with points between them, at most as many as there is fuel. -/
def readPath : (fuel : Nat) → List Char → Option (List String × List Char)
  | 0, _ => none
  | fuel + 1, text => do
    let (key, after) ← readKey text
    match dropBlanks after with
    | '.' :: rest =>
      let (keys, after) ← readPath fuel (dropBlanks rest)
      return (key :: keys, after)
    | rest => return ([key], rest)

/-- The text behind blanks, ends of lines and comments. -/
def dropSpace (inComment : Bool) : List Char → List Char
  | [] => []
  | '\n' :: rest => dropSpace false rest
  | '\r' :: '\n' :: rest => dropSpace false rest
  | c :: rest =>
    if inComment then if isVisible c then dropSpace true rest else c :: rest
    else if c == ' ' || c == '\t' then dropSpace false rest
    else if c == '#' then dropSpace true rest
    else c :: rest

/-- The text behind a collection without items. -/
def readEmpty : List Char → Option (List Char)
  | '[' :: rest => expect? ']' (dropSpace false rest)
  | '\x7b' :: rest => expect? '\x7d' (dropBlanks rest)
  | _ => none

/-- A table on one line whose only field is a collection without items. -/
def readField : List Char → Option (String × List Char)
  | '\x7b' :: rest => do
    let (key, after) ← readKey (dropBlanks rest)
    let after ← expect? '=' (dropBlanks after)
    let after ← readEmpty (dropBlanks after)
    let after ← expect? '\x7d' (dropBlanks after)
    return (key, after)
  | _ => none

/-- A value. -/
def readValue (text : List Char) : Read Value :=
  (readString text).map (fun (s, after) => (.text s, after)) <|>
    (readEmpty text).map (fun after => (.empty, after)) <|>
    (readField text).map (fun (name, after) => (.field name, after))

/-- The path that opens a table, behind the opening bracket, with the text of the next line. -/
def readHeader (text : List Char) : Option (List String × List Char) := do
  let (path, after) ← readPath text.length (dropBlanks text)
  let after ← expect? ']' after
  return (path, ← readLineEnd after)

/-- A key and its value, with the text of the next line. -/
def readPair (text : List Char) : Option ((List String × Value) × List Char) := do
  let (path, after) ← readPath text.length text
  let after ← expect? '=' after
  let (value, after) ← readValue (dropBlanks after)
  return ((path, value), ← readLineEnd after)

/-- The definitions of a text, line by line, below the table that was opened last. -/
def readDefinitions :
    (fuel : Nat) → (parent : List String) → List Char → Option (List Definition)
  | 0, _, _ => none
  | fuel + 1, parent, text =>
    match dropBlanks text with
    | [] => some []
    | '[' :: rest => do
      let (path, after) ← readHeader rest
      return .table path :: (← readDefinitions fuel path after)
    | c :: rest =>
      if c == '\n' || c == '\r' || c == '#' then do
        readDefinitions fuel parent (← readLineEnd (c :: rest))
      else do
        let ((path, value), after) ← readPair (c :: rest)
        return .pair parent path value :: (← readDefinitions fuel parent after)

/-- The definitions of a whole text, which may start with a byte order mark. -/
def definitions? (text : String) : Option (List Definition) :=
  let chars := match text.toList with
    | '\ufeff' :: rest => rest
    | chars => chars
  readDefinitions (chars.length + 1) [] chars

end SqlTree.Toml
