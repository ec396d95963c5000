import SqlTree.Proofs.Membership.RowShape
import SqlTree.Proofs.Semantics.Scope
import SqlTree.Proofs.Semantics.Truth

/-!
# The meaning of conditions

What a condition comes to for a row, in the scope of the rows around it. Bare columns, equalities
between them, tests that a bare column is among the values of a subquery, and tests that a subquery
has a row are given their meaning here; what the tables hold and what any other condition comes to
is left to an interpretation. The order of rows and duplicates among them matter to neither test.
Main statements: which rows a subquery keeps, and when the two tests of a subquery are true.
-/

namespace SqlTree

/-- A row of a statement, by qualifier and column, with the names that the statement declares. -/
structure Scope (α : Type) where
  names : List String
  row : String → String → Option α

/-- What the language leaves to the database and to the conditions that are not looked into. -/
structure Interpretation (α : Type) where
  /-- The rows of a source under an alias, paired by the joins, for the rows around them. -/
  rows : Source → Option String → List Entry → List (Scope α) → List (String → String → Option α)
  /-- The value of a column that no statement declares. -/
  undeclared : Column → List (Scope α) → Option α
  /-- What any other condition comes to. -/
  condition : Column → List (Scope α) → Truth
  /-- Whether a query that limits or groups its rows or aggregates over them has a row. -/
  existence : Query → List (Scope α) → Truth

/-- The operand as a column, if it is a bare one. -/
def Operand.bare? : Operand → Option Column
  | .column c => if c.isBare then some c else none
  | _ => none

/-- The projected expressions of an entry. -/
def Entry.items : Entry → List Projection
  | .select items => items
  | _ => []

/-- The bare column that the query yields, if it yields just that. -/
def Query.yielded? (q : Query) : Option Column :=
  match q.log.flatMap Entry.items with
  | [item] => item.expr.bare?
  | _ => none

section Meaning

variable {α : Type} (I : Interpretation α)

/-- The value that a bare column has in the innermost row that its qualifier belongs to. -/
def Column.found? (c : Column) (scopes : List (Scope α)) : Option (Option α) := do
  let name ← c.qualifier?
  let scope ← innermost? Scope.names scopes name
  return scope.row name c.base.columnName

/-- The value of a bare column. -/
def Column.value (c : Column) (scopes : List (Scope α)) : Option α :=
  (c.found? scopes).getD (I.undeclared c scopes)

/-- A column keeps its value inside a statement that does not declare its qualifier. -/
theorem Column.value_cons_of_notMem {I : Interpretation α} {c : Column} {name : String}
    {scope : Scope α} {scopes : List (Scope α)}
    (hname : c.qualifier? = some name) (hscope : name ∉ scope.names)
    (hdeclared : ∃ around ∈ scopes, name ∈ around.names) :
    c.value I (scope :: scopes) = c.value I scopes := by
  have hfound : (innermost? Scope.names scopes name).isSome = true := by
    obtain ⟨around, hmem, hin⟩ := hdeclared
    rw [innermost?, List.find?_isSome]
    exact ⟨around, hmem, List.contains_iff_mem.mpr hin⟩
  obtain ⟨found, hsome⟩ := Option.isSome_iff_exists.mp hfound
  simp [value, found?, hname, innermost?_cons_of_notMem hscope, hsome]

variable [DecidableEq α]

mutual

/-- What a condition comes to in the scopes, innermost first. -/
def Column.truth : Column → List (Scope α) → Truth
  | ⟨base, functions, nullTest⟩, scopes =>
    if functions.isEmpty && nullTest.isNone then base.truth scopes
    else I.condition ⟨base, functions, nullTest⟩ scopes

/-- What a condition to which nothing is applied comes to. -/
def Base.truth : Base → List (Scope α) → Truth
  | .named name owner, scopes => I.condition ⟨.named name owner, [], none⟩ scopes
  | .binary op left right, scopes =>
    match op, left.bare?, right.bare? with
    | .eq, some c, some d => Truth.equal (c.value I scopes) (d.value I scopes)
    | .isIn, some c, _ => right.membership c scopes
    | _, _, _ => I.condition (.ofBinary op left right) scopes

/-- Whether the value of a bare column is among those that an operand yields. -/
def Operand.membership : Operand → Column → List (Scope α) → Truth
  | .query q, c, scopes =>
    match q.isFilterOnly, q.yielded? with
    | true, some d =>
      Truth.any ((q.kept scopes).map fun scope =>
        Truth.equal (c.value I scopes) (d.value I (scope :: scopes)))
    | _, _ => I.condition (c.combine .isIn (.query q)) scopes
  | .column d, c, scopes => I.condition (c.combine .isIn (.column d)) scopes
  | .literal v, c, scopes => I.condition (c.combine .isIn (.literal v)) scopes

/-- The rows of a query that its conditions keep, in scope. -/
def Query.kept : Query → List (Scope α) → List (Scope α)
  | ⟨source, aliasName, log, limit, distinct, reversed, driver⟩, scopes =>
    let q : Query := ⟨source, aliasName, log, limit, distinct, reversed, driver⟩
    let rows := (I.rows source aliasName q.joins scopes).map (Scope.mk q.declaredNames)
    rows.filter fun scope => Entry.conjunction log (scope :: scopes) = .yes

/-- What an entry demands of a row. -/
def Entry.truth : Entry → List (Scope α) → Truth
  | .filter cond, scopes => cond.truth scopes
  | .whereExists sub, scopes =>
    if sub.isFilterOnly then Truth.ofBool !(sub.kept scopes).isEmpty else I.existence sub scopes
  | _, _ => .yes

/-- What the entries of a log demand of a row together. -/
def Entry.conjunction : List Entry → List (Scope α) → Truth
  | [], _ => .yes
  | entry :: rest, scopes => (entry.truth scopes).and (Entry.conjunction rest scopes)

end

/-- What the conditions of a statement that stands on its own come to for one of its rows. -/
def Query.accepts (q : Query) (row : String → String → Option α) : Truth :=
  Entry.conjunction I q.log [⟨q.declaredNames, row⟩]

variable {I} {scopes : List (Scope α)}

/-- A log is met exactly when each of its entries is. -/
theorem Entry.conjunction_eq_yes_iff {log : List Entry} :
    Entry.conjunction I log scopes = .yes ↔ ∀ entry ∈ log, entry.truth I scopes = .yes := by
  induction log with
  | nil => simp [Entry.conjunction]
  | cons entry rest ih =>
    rw [Entry.conjunction, Truth.and_eq_yes_iff, ih, List.forall_mem_cons]

/-- A query keeps the rows of its source that meet all of its log. -/
theorem Query.mem_kept_iff {q : Query} {scope : Scope α} :
    scope ∈ q.kept I scopes ↔ ∃ row ∈ I.rows q.source q.aliasName q.joins scopes,
      scope = ⟨q.declaredNames, row⟩ ∧
        ∀ entry ∈ q.log, entry.truth I (scope :: scopes) = .yes := by
  obtain ⟨source, aliasName, log, limit, distinct, reversed, driver⟩ := q
  simp only [Query.kept, List.mem_filter, List.mem_map, decide_eq_true_eq,
    Entry.conjunction_eq_yes_iff]
  constructor
  · rintro ⟨⟨row, hrow, rfl⟩, hlog⟩
    exact ⟨row, hrow, rfl, hlog⟩
  · rintro ⟨row, hrow, rfl, hlog⟩
    exact ⟨⟨row, hrow, rfl⟩, hlog⟩

/-- An existence test is true exactly when its subquery keeps a row. -/
theorem Entry.truth_whereExists_eq_yes_iff {sub : Query} (h : sub.isFilterOnly = true) :
    (Entry.whereExists sub).truth I scopes = .yes ↔ ∃ scope, scope ∈ sub.kept I scopes := by
  rw [Entry.truth, if_pos h, Truth.ofBool_eq_yes_iff, Bool.not_eq_true',
    List.isEmpty_eq_false_iff_exists_mem]

/-- An equality between bare columns compares their values. -/
theorem Entry.truth_filter_equality {c d : Column} (hc : c.isBare = true) (hd : d.isBare = true) :
    (Entry.filter (.ofBinary .eq (.column c) (.column d))).truth I scopes =
      Truth.equal (c.value I scopes) (d.value I scopes) := by
  simp [Entry.truth, Column.ofBinary, Column.truth, Base.truth, Operand.bare?, hc, hd]

/-- A membership test is true exactly when the subquery keeps a row that yields the value tested. -/
theorem Entry.truth_filter_membership_eq_yes_iff {c d : Column} {q : Query}
    (hc : c.isBare = true) (hq : q.isFilterOnly = true) (hd : q.yielded? = some d) :
    (Entry.filter (c.combine .isIn (.query q))).truth I scopes = .yes ↔
      ∃ scope ∈ q.kept I scopes,
        Truth.equal (c.value I scopes) (d.value I (scope :: scopes)) = .yes := by
  have htruth : (Entry.filter (c.combine .isIn (.query q))).truth I scopes =
      Truth.any ((q.kept I scopes).map fun scope =>
        Truth.equal (c.value I scopes) (d.value I (scope :: scopes))) := by
    simp [Entry.truth, Column.combine, Column.ofBinary, Column.truth, Base.truth, Operand.bare?,
      Operand.membership, hc, hq, hd]
  rw [htruth, Truth.any_eq_yes_iff, List.mem_map]

end Meaning

end SqlTree
