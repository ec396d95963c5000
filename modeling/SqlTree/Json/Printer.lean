import SqlTree.Decimal.Notation
import SqlTree.Json.Basic

/-!
# The text of JSON values

Values are printed on one line without blanks, or with every item on a line of its own, indented by
two blanks a level.
-/

namespace SqlTree.Json

/-- The lower-case hexadecimal digit of a number below sixteen. -/
def hexDigit (n : Nat) : Char :=
  if n < 10 then Char.ofNat ('0'.toNat + n) else Char.ofNat ('a'.toNat + (n - 10))

/-- A character inside a string. Quotes, backslashes and control characters are escaped. -/
def escapeChar (c : Char) : List Char :=
  if c = '"' then ['\\', '"']
  else if c = '\\' then ['\\', '\\']
  else if c = '\n' then ['\\', 'n']
  else if c = '\r' then ['\\', 'r']
  else if c = '\t' then ['\\', 't']
  else if c = '\x08' then ['\\', 'b']
  else if c = '\x0c' then ['\\', 'f']
  else if c.toNat < 32 then
    ['\\', 'u', '0', '0', hexDigit (c.toNat / 16), hexDigit (c.toNat % 16)]
  else [c]

/-- The text of a string. -/
def stringText (s : String) : String :=
  String.ofList ('"' :: s.toList.flatMap escapeChar ++ ['"'])

/-- Whether a decimal is written with all its places: the exponent of its first digit lies between
-5 and 15. -/
def isShort (d : Decimal.Scaled) : Bool := -4 ≤ d.pointPosition && d.pointPosition ≤ 16

/-- The text of a number. All-place notation has at least one place after the point. -/
def floatText (x : Decimal.Binary64) : String :=
  let d := x.shortest .even
  let magnitude :=
    if !isShort d then d.scientific
    else if d.isWhole then d.positional ++ ".0"
    else d.positional
  if !x.isFinite then "null" else (if x.isNegative then "-" else "") ++ magnitude

/-- Items in brackets on lines of their own, the closing bracket at the given level. -/
def bracketed (level : Nat) (opening closing : String) (items : List String) : String :=
  let indent (n : Nat) := String.ofList (List.replicate (2 * n) ' ')
  if items.isEmpty then opening ++ closing
  else
    opening ++ "\n" ++ ",\n".intercalate (items.map (indent (level + 1) ++ ·)) ++ "\n" ++
      indent level ++ closing

mutual

/-- A value on one line without blanks. -/
def compact : Json → String
  | .null => "null"
  | .bool b => if b then "true" else "false"
  | .int n => toString n
  | .float x => floatText x
  | .string s => stringText s
  | .array items => "[" ++ ",".intercalate (compactItems items) ++ "]"
  | .object fields => "\x7b" ++ ",".intercalate (compactFields fields) ++ "\x7d"

/-- The items of an array on one line each without blanks. -/
def compactItems : List Json → List String
  | [] => []
  | item :: rest => item.compact :: compactItems rest

/-- The fields of an object without blanks. -/
def compactFields : List Field → List String
  | [] => []
  | ⟨key, value⟩ :: rest => (stringText key ++ ":" ++ value.compact) :: compactFields rest

end

mutual

/-- A value over several lines, the first of which is indented by its surroundings. -/
def pretty (level : Nat) : Json → String
  | .null => "null"
  | .bool b => if b then "true" else "false"
  | .int n => toString n
  | .float x => floatText x
  | .string s => stringText s
  | .array items => bracketed level "[" "]" (prettyItems (level + 1) items)
  | .object fields => bracketed level "\x7b" "\x7d" (prettyFields (level + 1) fields)

/-- The items of an array over several lines. -/
def prettyItems (level : Nat) : List Json → List String
  | [] => []
  | item :: rest => item.pretty level :: prettyItems level rest

/-- The fields of an object over several lines. -/
def prettyFields (level : Nat) : List Field → List String
  | [] => []
  | ⟨key, value⟩ :: rest =>
    (stringText key ++ ": " ++ value.pretty level) :: prettyFields level rest

end

end SqlTree.Json
