import SqlTree.Operator
import SqlTree.Query.Kind
import SqlTree.RowBound

/-!
# Errors

The causes for which building, compiling or running a query fails, and their messages. Columns and
tables are named by their descriptions.
-/

namespace SqlTree

/-- A clause that takes values of single rows only. -/
inductive RowClause where
  | filter | grouping | ordering | join
  deriving DecidableEq, Repr

/-- The words that open the clause. -/
def RowClause.name : RowClause → String
  | .filter => "WHERE"
  | .grouping => "GROUP BY"
  | .ordering => "ORDER BY"
  | .join => "JOIN"

/-- Why building, compiling or running a query fails. -/
inductive Error where
  /-- A column carries at most one aggregate. -/
  | secondAggregate (requested : Aggregate) (column : String) (present : Aggregate)
  /-- A column carries each function of one value at most once. -/
  | repeatedUnary (requested : Unary) (column : String)
  /-- A column carries at most one test for null. -/
  | secondNullTest (column : String)
  /-- A token names no operator of the kind asked for. -/
  | unknownOperator (token : String)
  /-- A clause over single rows was given an aggregate. -/
  | aggregateIn (clause : RowClause) (column : String)
  /-- Groups are filtered although there are none. -/
  | havingWithoutGroup (table : String)
  /-- A set operation is ordered and limited only. -/
  | entryOnCombination (kind : EntryKind) (op : SetOp)
  /-- A limit counts rows. -/
  | negativeLimit (requested : Int)
  /-- A query is limited at most once. -/
  | limitAlreadySet (present : Nat)
  /-- Only the first and the last row are addressed by position. -/
  | unsupportedRow (position : Int)
  /-- Only leading and trailing rows are addressed by range. -/
  | unsupportedRows (first last : RowBound)
  /-- There are more trailing rows asked for than a limit counts. -/
  | tailTooLong (first : Int)
  /-- A query without a driver was run. -/
  | noDriver (table : String)
  /-- The driver failed on the statement. -/
  | driverFailed (reason : String)
  deriving DecidableEq, Repr

/-- The message of an error. -/
def Error.message : Error → String
  | .secondAggregate requested column present =>
    "Duplicate operator: cannot apply " ++ requested.name ++ " to " ++ column ++ ": aggregate " ++
      present.name ++ " already set"
  | .repeatedUnary requested column =>
    "Duplicate operator: " ++ requested.name ++ " already applied to " ++ column
  | .secondNullTest column => "Duplicate operator: null check already set on " ++ column
  | .unknownOperator token => "Invalid operator: '" ++ token ++ "'"
  | .aggregateIn clause column => "Aggregate not allowed in " ++ clause.name ++ ": " ++ column
  | .havingWithoutGroup table => "HAVING clause on '" ++ table ++ "' requires a GROUP BY"
  | .entryOnCombination kind op =>
    "Type mismatch: " ++ kind.name ++ " on a " ++ op.name ++
      " result; wrap it with Table::from_query"
  | .negativeLimit requested =>
    "Type mismatch: limit must be a non-negative integer, got " ++ toString requested
  | .limitAlreadySet present => "Limit already set to " ++ toString present
  | .unsupportedRow position => "Unsupported row access: row(" ++ toString position ++ ")"
  | .unsupportedRows first last =>
    "Unsupported row access: rows(" ++ first.text ++ ", " ++ last.text ++ ")"
  | .tailTooLong first => "Unsupported row access: rows(" ++ toString first ++ "..)"
  | .noDriver table => "No driver attached to table '" ++ table ++ "'"
  | .driverFailed reason => "Driver error: " ++ reason

end SqlTree
