import SqlTree.Query.Build
import SqlTree.Query.Compile

/-!
# Queries that remember their SQL

Once compiled, a query keeps its SQL and answers from memory. An operation that derives a new query
starts without a memory; a pass over the query in place leaves the memory as it is.
-/

namespace SqlTree

/-- A query with the SQL it was compiled to, if it was. -/
structure Remembered where
  query : Query
  sql : Option String

namespace Remembered

/-- A query that was not compiled yet. -/
def ofQuery (q : Query) : Remembered := ⟨q, none⟩

/-- The SQL from memory, or else compiled and remembered; a failure is not remembered. -/
def compile (r : Remembered) : Except Error String × Remembered :=
  match r.sql with
  | some sql => (.ok sql, r)
  | none =>
    match r.query.compile with
    | .ok sql => (.ok sql, { r with sql := some sql })
    | .error e => (.error e, r)

/-- The result of an operation that derives a new query. -/
def derive (r : Remembered) (operation : Query → Except Error Query) :
    Except Error Remembered := do
  return ofQuery (← operation r.query)

/-- Project the rows; an empty list of expressions changes nothing and keeps the memory. -/
def select (r : Remembered) (items : List Projection) : Remembered :=
  if items.isEmpty then r else ofQuery (r.query.select items)

/-- Make the projections explicit in place. -/
def makeProjected (r : Remembered) : Remembered := { r with query := r.query.projected }

/-- Turn the first qualifying existence test into a membership test in place, and tell whether there
was one. -/
def makeMembership (r : Remembered) : Bool × Remembered :=
  match r.query.membership? with
  | some q => (true, { r with query := q })
  | none => (false, r)

end Remembered

end SqlTree
