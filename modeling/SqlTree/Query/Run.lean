import SqlTree.Query.Compile
import SqlTree.Query.Remembered

/-!
# Running queries

A query is run by its driver. What the driver does is a parameter: it is given the handle and the
SQL and answers in a monad of its own.
-/

namespace SqlTree

/-- Compile the query and have its driver execute the SQL. Without a driver or without SQL nothing
is executed. -/
def Query.run {m : Type → Type} [Monad m] {α : Type}
    (execute : (driver sql : String) → m (Except Error α)) (q : Query) : m (Except Error α) :=
  match q.driver with
  | none => pure (.error (.noDriver q.reference.text))
  | some driver =>
    match q.compile with
    | .error e => pure (.error e)
    | .ok sql => execute driver sql

/-- Run a query that remembers its SQL: if it was compiled before, its driver executes the SQL from
memory. -/
def Remembered.run {m : Type → Type} [Monad m] {α : Type}
    (execute : (driver sql : String) → m (Except Error α)) (r : Remembered) :
    m (Except Error α × Remembered) :=
  match r.query.driver with
  | none => pure (.error (.noDriver r.query.reference.text), r)
  | some driver =>
    match r.compile with
    | (.error e, kept) => pure (.error e, kept)
    | (.ok sql, kept) => do return (← execute driver sql, kept)

end SqlTree
