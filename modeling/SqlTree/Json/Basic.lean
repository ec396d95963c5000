import SqlTree.Decimal.Binary64

/-!
# JSON values and rows

The values of result columns. An object keeps its fields in the order of their keys, one field a
key, and a row of a result is such a list of fields.
-/

namespace SqlTree

mutual

/-- A JSON value. -/
inductive Json where
  | null
  | bool (value : Bool)
  | int (value : Int)
  | float (value : Decimal.Binary64)
  | string (value : String)
  | array (items : List Json)
  | object (fields : List Field)

/-- A key of an object with its value. -/
structure Field where
  key : String
  value : Json

end

/-- Put a field at its place in fields ordered by key, instead of one that has its key. -/
def Field.insert (f : Field) : List Field → List Field
  | [] => [f]
  | g :: rest =>
    if f.key < g.key then f :: g :: rest
    else if f.key = g.key then f :: rest
    else g :: Field.insert f rest

/-- The fields in the order of their keys; of several with one key the last counts. -/
def Field.ordered (fields : List Field) : List Field :=
  fields.foldl (fun sorted f => f.insert sorted) []

/-- The object with the given fields. -/
def Json.ofFields (fields : List Field) : Json := .object (Field.ordered fields)

/-- A row of a result: its columns in the order of their names. -/
structure Row where
  fields : List Field

namespace Row

/-- The row with the given columns. -/
def ofFields (fields : List Field) : Row := ⟨Field.ordered fields⟩

/-- The names of the columns. -/
def columns (r : Row) : List String := r.fields.map Field.key

/-- The value in a column. -/
def get? (r : Row) (column : String) : Option Json :=
  (r.fields.find? fun f => f.key == column).map Field.value

end Row

end SqlTree
