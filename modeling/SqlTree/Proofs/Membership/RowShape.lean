import SqlTree.Proofs.Membership.Projected
import SqlTree.Query.Compile

/-!
# The shape of the subqueries that are converted

The rows of a subquery are decided filter by filter if nothing limits or groups them and no
aggregate is taken over them. Conversion does not look at this. Main statements: whether a subquery
qualifies is decided by its reference and its filters alone, and every conversion of a query is of
such a subquery exactly when the first one that qualifies is.
-/

namespace SqlTree

/-- Whether the entry projects an aggregate. -/
def Entry.projectsAggregate : Entry → Bool
  | .select items => items.any fun item => item.expr.containsAggregate
  | _ => false

/-- Whether nothing limits or groups the rows of the query and no aggregate is taken over them. -/
def Query.isFilterOnly (q : Query) : Bool :=
  q.limit.isNone && !q.has .group && !q.has .having && !q.log.any Entry.projectsAggregate

/-- The conditions of the filters in the log. -/
def Query.filters (q : Query) : List Column := q.log.filterMap Entry.filter?

theorem Query.isFilterOnly_iff {q : Query} :
    q.isFilterOnly = true ↔ q.limit = none ∧ q.has .group = false ∧ q.has .having = false ∧
      ∀ entry ∈ q.log, entry.projectsAggregate = false := by
  simp [isFilterOnly, Option.isNone_iff_eq_none, and_assoc]

/-- A Boolean test that no projection passes finds the same in the log as before. -/
theorem Query.any_log_projected {p : Entry → Bool} (hall : p Entry.selectAll = false)
    (hentry : ∀ entry : Entry, p entry.projected = p entry) (q : Query) :
    q.projected.log.any p = q.log.any p := by
  rw [Bool.eq_iff_iff, List.any_eq_true, List.any_eq_true]
  refine exists_mem_log_projected ?_ (fun entry => ?_) q
  · rw [hall]
    exact Bool.false_ne_true
  · rw [hentry]

/-- Explicit projections apply no aggregate. -/
theorem Entry.projectsAggregate_projected (entry : Entry) :
    entry.projected.projectsAggregate = entry.projectsAggregate := by
  cases entry with
  | select items =>
    simp only [Entry.projected, projectsAggregate, Projection.projectedItems_eq_map, List.any_map]
    refine congrArg (List.any items) (funext fun item => ?_)
    cases item
    exact Operand.containsAggregate_projected _
  | _ => simp [Entry.projected, projectsAggregate]

/-- The shape of a query does not depend on whether its projections are explicit. -/
theorem Query.isFilterOnly_projected (q : Query) :
    q.projected.isFilterOnly = q.isFilterOnly := by
  have hgroup : q.projected.has .group = q.has .group :=
    any_log_projected rfl (fun entry => by rw [Entry.kind_projected]) q
  have hhaving : q.projected.has .having = q.has .having :=
    any_log_projected rfl (fun entry => by rw [Entry.kind_projected]) q
  have haggregate := any_log_projected (p := Entry.projectsAggregate) rfl
    Entry.projectsAggregate_projected q
  simp only [isFilterOnly, limit_projected, hgroup, hhaving, haggregate]

/-- What holds of filters only is found in the log or not by its filters. -/
theorem Query.exists_mem_log_iff_filters {p : Entry → Prop}
    (hkind : ∀ entry, p entry → entry.kind = .filter) (q : Query) :
    (∃ entry ∈ q.log, p entry) ↔ ∃ cond ∈ q.filters, p (.filter cond) := by
  constructor
  · rintro ⟨entry, hmem, hp⟩
    have hentry := hkind entry hp
    cases entry with
    | filter cond => exact ⟨cond, List.mem_filterMap.mpr ⟨_, hmem, rfl⟩, hp⟩
    | _ => cases hentry
  · rintro ⟨cond, hcond, hp⟩
    obtain ⟨entry, hmem, he⟩ := List.mem_filterMap.mp hcond
    exact ⟨entry, hmem, Entry.filter?_eq_some_iff.mp he ▸ hp⟩

/-- Whether a subquery qualifies is told by its reference and its filters. -/
theorem Query.qualifies_iff_filters {outer : Reference} {sub : Query} :
    sub.Qualifies outer ↔ outer.qualifier.isSome = true ∧
      sub.reference.qualifier.isSome = true ∧ outer ≠ sub.reference ∧
      (∃ cond ∈ sub.filters, (Entry.filter cond).Selective sub.reference) ∧
      ∃ cond ∈ sub.filters, ∃ outerColumn innerColumn,
        (Entry.filter cond).Correlates outer sub.reference outerColumn innerColumn := by
  have hselective := exists_mem_log_iff_filters (p := Entry.Selective sub.reference)
    (fun entry h => h.kind_eq) sub
  have hkind (entry : Entry) (h : ∃ outerColumn innerColumn,
      entry.Correlates outer sub.reference outerColumn innerColumn) : entry.kind = .filter := by
    obtain ⟨_, _, hc⟩ := h
    exact hc.kind_eq
  have hcorrelated := exists_mem_log_iff_filters hkind sub
  rw [← hselective, ← hcorrelated]
  constructor
  · intro h
    exact ⟨h.outer_qualified, h.inner_qualified, h.ne, h.selective, h.correlated⟩
  · rintro ⟨houter, hinner, hne, hs, hc⟩
    exact ⟨houter, hinner, hne, hs, hc⟩

/-- Queries with one reference and the same filters qualify together. -/
theorem Query.qualifies_congr {outer : Reference} {sub sub' : Query}
    (href : sub.reference = sub'.reference) (hfilters : sub.filters = sub'.filters) :
    sub.Qualifies outer ↔ sub'.Qualifies outer := by
  rw [qualifies_iff_filters, qualifies_iff_filters, href, hfilters]

/-- The subqueries that conversion and compilation turn into membership tests are decided filter by
filter exactly when the first one that qualifies is. Of a subquery its reference and its filters are
looked at, and nothing else. -/
theorem Query.forall_converts_isFilterOnly_iff (root : Query) :
    ((∀ sub, root.Converts sub → sub.isFilterOnly = true) ↔
      root.source.isCombined = true ∨
        ∀ sub, root.FirstQualifying sub → sub.isFilterOnly = true) ∧
    ((∀ sub, root.projected.Converts sub → sub.isFilterOnly = true) ↔
      root.source.isCombined = true ∨
        ∀ sub, root.FirstQualifying sub → sub.isFilterOnly = true) ∧
    ∀ sub sub' : Query, sub.reference = sub'.reference → sub.filters = sub'.filters →
      (sub.Qualifies root.reference ↔ sub'.Qualifies root.reference) := by
  have hdirect : (∀ sub, root.Converts sub → sub.isFilterOnly = true) ↔
      root.source.isCombined = true ∨
        ∀ sub, root.FirstQualifying sub → sub.isFilterOnly = true := by
    simp only [converts_iff]
    cases root.source.isCombined <;> simp
  have hcompiled : (∀ sub, root.projected.Converts sub → sub.isFilterOnly = true) ↔
      ∀ sub, root.Converts sub → sub.isFilterOnly = true := by
    constructor
    · intro h sub hsub
      rw [← isFilterOnly_projected]
      exact h _ (converts_projected_iff.mpr ⟨sub, hsub, rfl⟩)
    · intro h sub' hsub'
      obtain ⟨sub, hsub, rfl⟩ := converts_projected_iff.mp hsub'
      rw [isFilterOnly_projected]
      exact h sub hsub
  exact ⟨hdirect, hcompiled.trans hdirect, fun sub sub' => qualifies_congr⟩

/-- The rows of `t2` that meet a selective and a correlating filter. -/
def Query.selectiveMatch : Query :=
  let t2 := Query.ofTable "t2"
  { t2 with
    log := [.filter ((t2.column "a").combine .eq (.literal (.int 5))),
      .filter ((t2.column "id").combine .eq (.column ((Query.ofTable "t1").column "id")))] }

/-- At most one of them. -/
def Query.limitedMatch : Query := { selectiveMatch with limit := some 1 }

/-- The rows of `t1` that have one. -/
def Query.withLimitedMatch : Query := (Query.ofTable "t1").whereExists limitedMatch

/-- A limited subquery is converted: the limit then cuts the rows of `t2` before they are compared
with the row of `t1`. -/
theorem Query.not_forall_converts_isFilterOnly :
    (withLimitedMatch.Converts limitedMatch ∧ limitedMatch.isFilterOnly = false ∧
      withLimitedMatch.compile =
        .ok "SELECT * FROM t1 WHERE (t1.id IN (SELECT t2.id FROM t2 WHERE (t2.a = 5) LIMIT 1));") ∧
    ¬ ∀ root sub : Query, root.Converts sub → sub.isFilterOnly = true := by
  have hconverts : withLimitedMatch.Converts limitedMatch := ⟨by decide, rfl⟩
  have hshape : limitedMatch.isFilterOnly = false := rfl
  refine ⟨⟨hconverts, hshape, by decide +kernel⟩, fun h => ?_⟩
  rw [h _ _ hconverts] at hshape
  cases hshape

end SqlTree
