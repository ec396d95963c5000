import SqlTree.Query.Check
import SqlTree.Query.Membership
import SqlTree.Query.Projection
import SqlTree.Query.Sql

/-!
# Compiling queries

A query is compiled by making its projections explicit, turning its first qualifying existence test
into a membership test, and writing the result, if it can be written.
-/

namespace SqlTree

/-- The query in the form in which it is written. -/
def Query.prepared (q : Query) : Query := q.projected.membership?.getD q.projected

/-- The statement of a query as it stands, closed by a semicolon. -/
def Query.write (q : Query) : Except Error String := do
  q.check
  return Statement.text (q.tokens 0) ++ ";"

/-- The SQL of a query, or the first fault that keeps it from having one. -/
def Query.compile (q : Query) : Except Error String := q.prepared.write

/-- The SQL of a column expression on its own. -/
def Column.compile (c : Column) : Except Error String := do
  c.projected.check
  return c.projected.sql 0 ++ ";"

theorem Query.write_eq_error_iff {q : Query} {e : Error} :
    q.write = .error e ↔ q.check = .error e := by
  unfold write
  cases q.check <;> simp [bind, Except.bind, pure, Except.pure]

theorem Query.write_eq_ok_iff {q : Query} {sql : String} :
    q.write = .ok sql ↔ q.check = .ok () ∧ sql = Statement.text (q.tokens 0) ++ ";" := by
  unfold write
  cases q.check <;> simp [bind, Except.bind, pure, Except.pure, eq_comm]

theorem Column.compile_eq_ok_iff {c : Column} {sql : String} :
    c.compile = .ok sql ↔ c.projected.check = .ok () ∧ sql = c.projected.sql 0 ++ ";" := by
  unfold compile
  cases c.projected.check <;> simp [bind, Except.bind, pure, Except.pure, eq_comm]

end SqlTree
