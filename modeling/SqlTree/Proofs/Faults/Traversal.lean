import SqlTree.Proofs.Tree.Parts
import SqlTree.Query.Check

/-!
# The check as a traversal

Whether a query can be written is found out by going over the queries that are written right below
it, in the order of their texts, up to the first that cannot. Main statements: for every part of a
query its check is such a traversal, so a query can be written exactly if it has no fault of its own
and every query right below it can be written, and an error is the fault of a query that is written.
-/

namespace SqlTree

section Traversal

variable {α ε : Type} {f : α → Except ε Unit} {l : List α}

/-- A traversal gets through exactly if it gets through every element. -/
theorem forM_eq_ok_iff : forM l f = .ok () ↔ ∀ a ∈ l, f a = .ok () := by
  induction l with
  | nil => simp [pure, Except.pure]
  | cons a rest ih =>
    rw [List.forM_cons, List.forall_mem_cons, ← ih]
    cases f a <;> simp [bind, Except.bind]

/-- A traversal that stops does so at one of its elements. -/
theorem exists_of_forM_eq_error {e : ε} (h : forM l f = .error e) : ∃ a ∈ l, f a = .error e := by
  induction l with
  | nil => simp [pure, Except.pure] at h
  | cons a rest ih =>
    rw [List.forM_cons] at h
    cases ha : f a with
    | error first =>
      simp only [ha, bind, Except.bind, Except.error.injEq] at h
      exact ⟨a, List.mem_cons_self, h ▸ ha⟩
    | ok =>
      simp only [ha, bind, Except.bind] at h
      obtain ⟨b, hb, hfault⟩ := ih h
      exact ⟨b, List.mem_cons_of_mem a hb, hfault⟩

end Traversal

/-- Go over queries in order, up to the first that cannot be written. -/
def Query.checkAll (queries : List Query) : Except Error Unit := forM queries Query.check

theorem Query.checkAll_singleton (q : Query) : checkAll [q] = q.check := by
  simp only [checkAll, List.forM_cons, List.forM_nil]
  cases q.check <;> rfl

theorem Query.checkAll_append (first second : List Query) :
    checkAll (first ++ second) = (do checkAll first; checkAll second) := List.forM_append

/-- The queries among the leaves of an expression are gone over. -/
def checkLeaves (leaves : List Leaf) : Except Error Unit :=
  Query.checkAll (leaves.filterMap Leaf.query?)

theorem checkLeaves_append (first second : List Leaf) :
    checkLeaves (first ++ second) = (do checkLeaves first; checkLeaves second) := by
  rw [checkLeaves, List.filterMap_append, Query.checkAll_append]
  rfl

mutual

/-- The check of a column expression goes over its leaves. -/
theorem Column.check_eq : ∀ c : Column, c.check = checkLeaves c.leaves
  | ⟨base, _, _⟩ => by
    simp only [Column.check, Column.leaves]
    exact Base.check_eq base

theorem Base.check_eq : ∀ b : Base, b.check = checkLeaves b.leaves
  | .named _ _ => by
    simp only [Base.check, Base.leaves]
    rfl
  | .binary _ left right => by
    simp only [Base.check, Base.leaves, checkLeaves_append]
    rw [Operand.check_eq left, Operand.check_eq right]

theorem Operand.check_eq : ∀ side : Operand, side.check = checkLeaves side.leaves
  | .column c => by
    simp only [Operand.check, Operand.leaves]
    exact Column.check_eq c
  | .literal _ => by
    simp only [Operand.check, Operand.leaves]
    rfl
  | .query q => by
    simp only [Operand.check, Operand.leaves]
    exact (Query.checkAll_singleton q).symm

end

theorem Projection.checks_eq (items : List Projection) :
    checks items = checkLeaves (items.flatMap fun item => item.expr.leaves) := by
  induction items with
  | nil => rfl
  | cons item rest ih =>
    obtain ⟨expr, aliasName⟩ := item
    rw [checks, ih, List.flatMap_cons, checkLeaves_append, check, Operand.check_eq]

theorem Source.check_eq (source : Source) : source.check = Query.checkAll source.queries := by
  cases source with
  | named name => rfl
  | derived q => rw [check, queries, Query.checkAll_singleton]
  | combined op left right =>
    rw [check, queries, ← List.singleton_append, Query.checkAll_append,
      Query.checkAll_singleton, Query.checkAll_singleton]

/-- The check of a join target goes over the queries that are written for it. -/
theorem Query.check_target (target : Query) :
    (if target.onlyProjects then target.checkSource else target.check) =
      checkAll target.targetQueries := by
  unfold targetQueries
  split
  · cases target
    rw [checkSource, Source.check_eq]
  · rw [checkAll_singleton]

/-- The check of an entry goes over the queries that are written for it. -/
theorem Entry.check_eq (entry : Entry) : entry.check = Query.checkAll entry.writtenQueries := by
  cases entry with
  | select items => rw [check, Projection.checks_eq]; rfl
  | filter c | group c | having c | order c => rw [check, Column.check_eq]; rfl
  | whereExists sub => rw [check, ← Query.checkAll_singleton]; rfl
  | join target =>
    rw [check, Query.check_target]
    simp [writtenQueries, target?, leaves]
  | joinOn target cond =>
    have hqueries : (joinOn target cond).writtenQueries =
        target.targetQueries ++ cond.leaves.filterMap Leaf.query? := by
      simp [writtenQueries, target?, leaves]
    rw [hqueries, Query.checkAll_append, ← Query.check_target, ← checkLeaves, ← Column.check_eq,
      check]
    split <;> rfl

theorem Entry.checks_eq (log : List Entry) :
    checks log = Query.checkAll (log.flatMap writtenQueries) := by
  induction log with
  | nil => rfl
  | cons entry rest ih => rw [checks, ih, List.flatMap_cons, Query.checkAll_append, check_eq]

end SqlTree
