/-!
# Ends of a range of rows

Rows are addressed by ranges of signed positions; either end may be missing.
-/

namespace SqlTree

/-- One end of a range of row positions. -/
inductive RowBound where
  | unbounded
  | included (position : Int64)
  | excluded (position : Int64)
  deriving DecidableEq, Repr

/-- The text of an end in messages. -/
def RowBound.text : RowBound → String
  | .unbounded => "Unbounded"
  | .included k => "Included(" ++ toString k.toInt ++ ")"
  | .excluded k => "Excluded(" ++ toString k.toInt ++ ")"

end SqlTree
