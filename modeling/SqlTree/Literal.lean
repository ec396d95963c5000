import SqlTree.Calendar
import SqlTree.Text.Quoted

/-!
# Literals

The values that stand in a statement as they are, and their text.
-/

namespace SqlTree

/-- A literal of a statement. -/
inductive Literal where
  | null
  | bool (value : Bool)
  | int (value : Int)
  | float (value : Decimal.Binary64)
  | string (value : String)
  | date (value : Date)
  | timestamp (value : Timestamp)
  /-- A list of literals, such as the right side of a membership test. -/
  | tuple (items : List Literal)

/-- A floating point literal has all its places; what is not finite has no literal and is null. -/
def Literal.floatText (x : Decimal.Binary64) : String :=
  if x.isFinite then
    (if x.isNegative then "-" else "") ++ (x.shortest .away).positional
  else "NULL"

mutual

/-- The text of a literal. -/
def Literal.text : Literal → String
  | .null => "NULL"
  | .bool true => "TRUE"
  | .bool false => "FALSE"
  | .int n => toString n
  | .float x => Literal.floatText x
  | .string s => Text.Quoted.string s
  | .date d => Text.Quoted.string d.text
  | .timestamp t => Text.Quoted.string t.text
  | .tuple items => "(" ++ ",".intercalate (Literal.texts items) ++ ")"

/-- The texts of the items of a tuple. -/
def Literal.texts : List Literal → List String
  | [] => []
  | item :: rest => item.text :: Literal.texts rest

end

end SqlTree
