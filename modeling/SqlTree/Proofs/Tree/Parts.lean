import SqlTree.Proofs.Semantics.Scope
import SqlTree.Proofs.Tree.Everywhere
import Mathlib.Logic.Relation

/-!
# The queries below a query

An expression ends in columns, literals and queries, its leaves. The queries right below a query are
those of its source, the targets of its joins and the ones among the leaves of its log. Of a join
target that does nothing but project only the source is written, so the queries written right below
a query are fewer. Main statements: what holds of a query if it holds of the queries right below it
holds of every query, and what is written below a query lies below it.
-/

namespace SqlTree

/-- What stands at an end of an expression. -/
inductive Leaf where
  | named (name : String) (owner : Option Reference)
  | literal (value : Literal)
  | query (query : Query)

/-- The query at an end of an expression. -/
def Leaf.query? : Leaf → Option Query
  | .query q => some q
  | _ => none

/-- The query that a column at an end of an expression is drawn from. The star stands for itself. -/
def Leaf.owner? : Leaf → Option Reference
  | .named name owner => if name = starName then none else owner
  | _ => none

mutual

/-- The ends of a column expression; subqueries are not entered. -/
def Column.leaves : Column → List Leaf
  | ⟨base, _, _⟩ => base.leaves

/-- The ends of the expression that functions are applied to. -/
def Base.leaves : Base → List Leaf
  | .named name owner => [.named name owner]
  | .binary _ left right => left.leaves ++ right.leaves

/-- The ends of an operand. -/
def Operand.leaves : Operand → List Leaf
  | .column c => c.leaves
  | .literal v => [.literal v]
  | .query q => [.query q]

end

/-- The ends of the expressions of an entry, with the query that it tests for rows. -/
def Entry.leaves : Entry → List Leaf
  | .select items => items.flatMap fun item => item.expr.leaves
  | .filter cond => cond.leaves
  | .whereExists sub => [.query sub]
  | .group c => c.leaves
  | .having cond => cond.leaves
  | .order c => c.leaves
  | .join _ => []
  | .joinOn _ cond => cond.leaves

/-- The queries that a source is made of. -/
def Source.queries : Source → List Query
  | .named _ => []
  | .derived q => [q]
  | .combined _ left right => [left, right]

/-- The queries of an entry: the one that it joins and those at the ends of its expressions. -/
def Entry.queries (entry : Entry) : List Query :=
  entry.target?.toList ++ entry.leaves.filterMap Leaf.query?

/-- The queries right below a query. -/
def Query.queries (q : Query) : List Query := q.source.queries ++ q.log.flatMap Entry.queries

/-- The queries that are written for a join target: itself, or those of its source if it does
nothing but project. -/
def Query.targetQueries (target : Query) : List Query :=
  if target.onlyProjects then target.source.queries else [target]

/-- The queries that are written for an entry. -/
def Entry.writtenQueries (entry : Entry) : List Query :=
  (entry.target?.toList.flatMap Query.targetQueries) ++ entry.leaves.filterMap Leaf.query?

/-- The queries that are written right below a query. -/
def Query.writtenQueries (q : Query) : List Query :=
  q.source.queries ++ q.log.flatMap Entry.writtenQueries

/-- The query itself or one below it, at any depth. -/
def Query.Reaches : Query → Query → Prop :=
  Relation.ReflTransGen fun q sub => sub ∈ q.queries

/-- The query itself or one that is written below it, at any depth. -/
def Query.Writes : Query → Query → Prop :=
  Relation.ReflTransGen fun q sub => sub ∈ q.writtenQueries

section Sizes

variable {sub : Query}

mutual

theorem Column.sizeOf_lt_of_mem_leaves :
    ∀ c : Column, .query sub ∈ c.leaves → sizeOf sub < sizeOf c
  | ⟨base, functions, nullTest⟩, h => by
    simp only [Column.leaves] at h
    have := Base.sizeOf_lt_of_mem_leaves base h
    simp only [Column.mk.sizeOf_spec]
    omega

theorem Base.sizeOf_lt_of_mem_leaves :
    ∀ b : Base, .query sub ∈ b.leaves → sizeOf sub < sizeOf b
  | .named name owner, h => by simp [Base.leaves] at h
  | .binary op left right, h => by
    simp only [Base.leaves, List.mem_append] at h
    simp only [Base.binary.sizeOf_spec]
    rcases h with h | h
    · have := Operand.sizeOf_lt_of_mem_leaves left h
      omega
    · have := Operand.sizeOf_lt_of_mem_leaves right h
      omega

theorem Operand.sizeOf_lt_of_mem_leaves :
    ∀ side : Operand, .query sub ∈ side.leaves → sizeOf sub < sizeOf side
  | .column c, h => by
    simp only [Operand.leaves] at h
    have := Column.sizeOf_lt_of_mem_leaves c h
    simp only [Operand.column.sizeOf_spec]
    omega
  | .literal v, h => by simp [Operand.leaves] at h
  | .query q, h => by
    simp only [Operand.leaves, List.mem_singleton, Leaf.query.injEq] at h
    simp only [Operand.query.sizeOf_spec, h]
    omega

end

theorem Leaf.query?_eq_some_iff {leaf : Leaf} : leaf.query? = some sub ↔ leaf = .query sub := by
  cases leaf <;> simp [query?]

theorem Source.sizeOf_lt_of_mem_queries {source : Source} (h : sub ∈ source.queries) :
    sizeOf sub < sizeOf source := by
  cases source with
  | named name => simp [queries] at h
  | derived q =>
    simp only [queries, List.mem_singleton] at h
    simp [h]
  | combined op left right =>
    simp only [queries, List.mem_cons, List.not_mem_nil, or_false] at h
    rcases h with rfl | rfl <;> simp only [combined.sizeOf_spec] <;> omega

theorem Entry.sizeOf_lt_of_mem_leaves {entry : Entry} (h : .query sub ∈ entry.leaves) :
    sizeOf sub < sizeOf entry := by
  cases entry with
  | select items =>
    obtain ⟨item, hitem, hsub⟩ := List.mem_flatMap.mp h
    have hexpr := Operand.sizeOf_lt_of_mem_leaves item.expr hsub
    have hmem := List.sizeOf_lt_of_mem hitem
    obtain ⟨expr, aliasName⟩ := item
    simp only [select.sizeOf_spec, Projection.mk.sizeOf_spec] at hexpr hmem ⊢
    omega
  | filter c | group c | having c | order c =>
    have := Column.sizeOf_lt_of_mem_leaves c h
    simp only [filter.sizeOf_spec, group.sizeOf_spec, having.sizeOf_spec, order.sizeOf_spec]
    omega
  | whereExists q =>
    simp only [leaves, List.mem_singleton, Leaf.query.injEq] at h
    simp [h]
  | join target => simp [leaves] at h
  | joinOn target cond =>
    have := Column.sizeOf_lt_of_mem_leaves cond h
    simp only [joinOn.sizeOf_spec]
    omega

theorem Entry.sizeOf_lt_of_target? {entry : Entry} (h : entry.target? = some sub) :
    sizeOf sub < sizeOf entry := by
  cases entry with
  | join target | joinOn target cond =>
    simp only [target?, Option.some.injEq] at h
    simp only [h, join.sizeOf_spec, joinOn.sizeOf_spec]
    omega
  | _ => simp [target?] at h

theorem Entry.sizeOf_lt_of_mem_queries {entry : Entry} (h : sub ∈ entry.queries) :
    sizeOf sub < sizeOf entry := by
  simp only [queries, List.mem_append, Option.mem_toList, List.mem_filterMap,
    Leaf.query?_eq_some_iff] at h
  rcases h with h | ⟨_, h, rfl⟩
  · exact sizeOf_lt_of_target? h
  · exact sizeOf_lt_of_mem_leaves h

/-- A query right below another one is smaller. -/
theorem Query.sizeOf_lt_of_mem_queries {q : Query} (h : sub ∈ q.queries) :
    sizeOf sub < sizeOf q := by
  obtain ⟨source, aliasName, log, limit, distinct, reversed, driver⟩ := q
  simp only [queries, List.mem_append, List.mem_flatMap] at h
  simp only [mk.sizeOf_spec]
  rcases h with h | ⟨entry, hentry, h⟩
  · have := Source.sizeOf_lt_of_mem_queries h
    omega
  · have := Entry.sizeOf_lt_of_mem_queries h
    have := List.sizeOf_lt_of_mem hentry
    omega

end Sizes

section Demanded

variable {d : Demand} {sub : Query}

mutual

/-- The queries at the ends of a column expression are as demanded if the expression is. -/
theorem Column.meets_of_mem_leaves : ∀ c : Column, c.Meets d → .query sub ∈ c.leaves → sub.Meets d
  | ⟨base, _, _⟩, hc, h => by
    simp only [Column.leaves] at h
    exact Base.meets_of_mem_leaves base (Column.meets_iff.mp hc).2 h

theorem Base.meets_of_mem_leaves : ∀ b : Base, b.Meets d → .query sub ∈ b.leaves → sub.Meets d
  | .named _ _, _, h => by simp [Base.leaves] at h
  | .binary _ left right, hb, h => by
    simp only [Base.Meets] at hb
    simp only [Base.leaves, List.mem_append] at h
    exact h.elim (Operand.meets_of_mem_leaves left hb.1) (Operand.meets_of_mem_leaves right hb.2)

theorem Operand.meets_of_mem_leaves :
    ∀ side : Operand, side.Meets d → .query sub ∈ side.leaves → sub.Meets d
  | .column c, hside, h => by
    simp only [Operand.leaves] at h
    simp only [Operand.Meets] at hside
    exact Column.meets_of_mem_leaves c hside h
  | .literal _, _, h => by simp [Operand.leaves] at h
  | .query q, hside, h => by
    simp only [Operand.leaves, List.mem_singleton, Leaf.query.injEq] at h
    simp only [Operand.Meets] at hside
    rwa [h]

end

theorem Source.meets_of_mem_queries {source : Source} (hsource : source.Meets d)
    (h : sub ∈ source.queries) : sub.Meets d := by
  cases source with
  | named name => simp [queries] at h
  | derived q =>
    simp only [queries, List.mem_singleton] at h
    simp only [Source.Meets] at hsource
    rwa [h]
  | combined op left right =>
    simp only [queries, List.mem_cons, List.not_mem_nil, or_false] at h
    simp only [Source.Meets] at hsource
    rcases h with rfl | rfl
    · exact hsource.1
    · exact hsource.2

theorem Entry.meets_of_target? {entry : Entry} (hentry : entry.Meets d)
    (h : entry.target? = some sub) : sub.Meets d := by
  have hparts := hentry.2
  cases entry with
  | join target =>
    obtain rfl := Option.some.inj h
    exact hparts
  | joinOn target cond =>
    obtain rfl := Option.some.inj h
    simp only [PartsMeet] at hparts
    exact hparts.1
  | _ => cases h

theorem Entry.meets_of_mem_leaves {entry : Entry} (hentry : entry.Meets d)
    (h : .query sub ∈ entry.leaves) : sub.Meets d := by
  have hparts := hentry.2
  cases entry with
  | select items =>
    simp only [PartsMeet, Projection.allMeet_iff] at hparts
    obtain ⟨item, hitem, h⟩ := List.mem_flatMap.mp h
    exact Operand.meets_of_mem_leaves item.expr (hparts item hitem) h
  | filter c | group c | having c | order c => exact Column.meets_of_mem_leaves c hparts h
  | whereExists q =>
    simp only [leaves, List.mem_singleton, Leaf.query.injEq] at h
    exact h ▸ hparts
  | join target => simp [leaves] at h
  | joinOn target cond =>
    simp only [PartsMeet] at hparts
    exact Column.meets_of_mem_leaves cond hparts.2 h

/-- What is written for an entry is as demanded if the entry is. -/
theorem Entry.meets_of_mem_writtenQueries {entry : Entry} (hentry : entry.Meets d)
    (h : sub ∈ entry.writtenQueries) : sub.Meets d := by
  simp only [writtenQueries, List.mem_append, List.mem_flatMap, Option.mem_toList,
    List.mem_filterMap, Leaf.query?_eq_some_iff, exists_eq_right] at h
  rcases h with ⟨target, htarget, h⟩ | h
  · have hmeets := Entry.meets_of_target? hentry htarget
    unfold Query.targetQueries at h
    split at h
    · exact Source.meets_of_mem_queries (Query.meets_iff.mp hmeets).2.1 h
    · obtain rfl := List.mem_singleton.mp h
      exact hmeets
  · exact Entry.meets_of_mem_leaves hentry h

/-- What is written right below a query is as demanded if the query is. -/
theorem Query.meets_of_mem_writtenQueries {q : Query} (hq : q.Meets d)
    (h : sub ∈ q.writtenQueries) : sub.Meets d := by
  obtain ⟨_, hsource, hlog⟩ := Query.meets_iff.mp hq
  rcases List.mem_append.mp h with h | h
  · exact Source.meets_of_mem_queries hsource h
  · obtain ⟨entry, hentry, h⟩ := List.mem_flatMap.mp h
    exact Entry.meets_of_mem_writtenQueries (hlog entry hentry) h

end Demanded

namespace Query

/-- A query written right below another one lies right below it, or it is in the source of a join
target that does nothing but project. -/
theorem of_mem_writtenQueries {q sub : Query} (h : sub ∈ q.writtenQueries) :
    sub ∈ q.queries ∨ ∃ entry ∈ q.log, ∃ target, entry.target? = some target ∧
      target.onlyProjects = true ∧ sub ∈ target.source.queries := by
  simp only [writtenQueries, queries, Entry.writtenQueries, Entry.queries, List.mem_append,
    List.mem_flatMap, Option.mem_toList] at h ⊢
  rcases h with h | ⟨entry, hentry, ⟨target, htarget, h⟩ | h⟩
  · exact Or.inl (Or.inl h)
  · unfold targetQueries at h
    split at h
    · rename_i honly
      exact Or.inr ⟨entry, hentry, target, htarget, honly, h⟩
    · obtain rfl := List.mem_singleton.mp h
      exact Or.inl (Or.inr ⟨entry, hentry, Or.inl htarget⟩)
  · exact Or.inl (Or.inr ⟨entry, hentry, Or.inr h⟩)

/-- A query right below another one is in its source, the target of a join or at the end of an
expression. -/
theorem mem_queries_iff {q sub : Query} :
    sub ∈ q.queries ↔ sub ∈ q.source.queries ∨
      ∃ entry ∈ q.log, entry.target? = some sub ∨ .query sub ∈ entry.leaves := by
  simp only [queries, Entry.queries, List.mem_append, List.mem_flatMap, Option.mem_toList,
    List.mem_filterMap, Leaf.query?_eq_some_iff, exists_eq_right]

/-- The target of a join lies right below the query. -/
theorem mem_queries_of_target? {q target : Query} {entry : Entry} (hentry : entry ∈ q.log)
    (h : entry.target? = some target) : target ∈ q.queries := by
  refine List.mem_append_right _ (List.mem_flatMap.mpr ⟨entry, hentry, ?_⟩)
  exact List.mem_append_left _ (Option.mem_toList.mpr h)

/-- What the source of a query is made of lies right below the query. -/
theorem mem_queries_of_mem_source {q sub : Query} (h : sub ∈ q.source.queries) : sub ∈ q.queries :=
  List.mem_append_left _ h

theorem sizeOf_lt_of_mem_writtenQueries {q sub : Query} (h : sub ∈ q.writtenQueries) :
    sizeOf sub < sizeOf q := by
  rcases of_mem_writtenQueries h with h | ⟨entry, hentry, target, htarget, _, h⟩
  · exact sizeOf_lt_of_mem_queries h
  · exact Nat.lt_trans (sizeOf_lt_of_mem_queries (mem_queries_of_mem_source h))
      (sizeOf_lt_of_mem_queries (mem_queries_of_target? hentry htarget))

/-- What holds of a query if it holds of all queries right below it holds of all. -/
theorem inductionOnQueries {motive : Query → Prop}
    (step : ∀ q, (∀ sub ∈ q.queries, motive sub) → motive q) (q : Query) : motive q :=
  step q fun sub _ => inductionOnQueries step sub
termination_by sizeOf q
decreasing_by exact sizeOf_lt_of_mem_queries ‹_›

/-- What holds of a query if it holds of all queries written right below it holds of all. -/
theorem inductionOnWritten {motive : Query → Prop}
    (step : ∀ q, (∀ sub ∈ q.writtenQueries, motive sub) → motive q) (q : Query) : motive q :=
  step q fun sub _ => inductionOnWritten step sub
termination_by sizeOf q
decreasing_by exact sizeOf_lt_of_mem_writtenQueries ‹_›

end Query

end SqlTree
