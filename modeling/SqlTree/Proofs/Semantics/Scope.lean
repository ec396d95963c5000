import SqlTree.Query.Basic
import Mathlib.Data.List.Basic

/-!
# Names and scopes

A statement declares the qualifiers of the tables in its `FROM` list, and a qualified column refers
to the innermost of the nested statements that declares its qualifier. Main statement: a statement
is looked through exactly for the names that it does not declare.
-/

namespace SqlTree

/-- The query that an entry joins. -/
def Entry.target? : Entry → Option Query
  | .join target => some target
  | .joinOn target _ => some target
  | _ => none

/-- The entries that pair rows with those of other queries. -/
def Query.joins (q : Query) : List Entry := q.log.filter fun entry => entry.kind == .join

/-- What the rows of a statement are taken from: its own source under its own reference, and the
targets of its joins. -/
def Query.fromList (q : Query) : List Query := q :: q.log.filterMap Entry.target?

/-- The names that qualify columns inside the statement. A table without a qualifier has none. -/
def Query.declaredNames (q : Query) : List String :=
  q.fromList.filterMap fun table => table.reference.qualifier

/-- The innermost of nested statements that declares the name. They stand from the inside out, and
`names` tells what each of them declares. -/
def innermost? {β : Type} (names : β → List String) (nested : List β) (name : String) : Option β :=
  nested.find? fun statement => (names statement).contains name

/-- The name that a column is qualified by. -/
def Column.qualifier? (c : Column) : Option String := c.base.owner?.bind Reference.qualifier

theorem Query.mem_declaredNames_iff {q : Query} {name : String} :
    name ∈ q.declaredNames ↔ ∃ table ∈ q.fromList, table.reference.qualifier = some name :=
  List.mem_filterMap

/-- A qualified statement declares its own qualifier. -/
theorem Query.qualifier_mem_declaredNames {q : Query} {name : String}
    (h : q.reference.qualifier = some name) : name ∈ q.declaredNames :=
  mem_declaredNames_iff.mpr ⟨q, List.mem_cons_self, h⟩

/-- What a log joins is found in its joins. -/
theorem Query.filterMap_target?_joins (q : Query) :
    q.joins.filterMap Entry.target? = q.log.filterMap Entry.target? := by
  unfold joins
  rw [List.filterMap_filter]
  refine List.filterMap_congr fun entry _ => ?_
  cases entry <;> rfl

/-- Statements with one reference and the same joins declare the same names. -/
theorem Query.declaredNames_congr {q q' : Query} (href : q.reference = q'.reference)
    (hjoins : q.joins = q'.joins) : q.declaredNames = q'.declaredNames := by
  simp only [declaredNames, fromList, List.filterMap_cons, ← filterMap_target?_joins, href, hjoins]

section Innermost

variable {β : Type} {names : β → List String} {name : String} {statement : β}

/-- A statement that declares the name hides those around it. -/
theorem innermost?_cons_of_mem (h : name ∈ names statement) (around : List β) :
    innermost? names (statement :: around) name = some statement := by
  simp [innermost?, h]

/-- A statement that does not declare the name is looked through. -/
theorem innermost?_cons_of_notMem (h : name ∉ names statement) (around : List β) :
    innermost? names (statement :: around) name = innermost? names around name := by
  simp [innermost?, h]

/-- A name that the outer of two statements declares refers to it from the inner one exactly if the
inner one does not declare it. -/
theorem innermost?_pair_eq_some_iff {outer : β} (hne : statement ≠ outer)
    (houter : name ∈ names outer) :
    innermost? names [statement, outer] name = some outer ↔ name ∉ names statement := by
  by_cases h : name ∈ names statement
  · simp [innermost?_cons_of_mem h, h, hne]
  · simp [innermost?_cons_of_notMem h, innermost?_cons_of_mem houter, h]

end Innermost

end SqlTree
