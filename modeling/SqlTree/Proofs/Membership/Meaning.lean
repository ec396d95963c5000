import SqlTree.Proofs.Semantics.Condition

/-!
# Conversion keeps the meaning

The correlating filter compares the row outside with each row of the subquery. Taken out of the
subquery, the same comparison is made by the membership test over the rows that the other filters
keep. Main statement: if the subquery is decided filter by filter and declares the outer qualifier
nowhere, a query accepts the same rows before and after the conversion.
-/

namespace SqlTree

/-- A column drawn from a query is qualified by it. -/
theorem Column.DrawnFrom.qualifier?_eq {owner : Reference} {c : Column} (h : c.DrawnFrom owner) :
    c.qualifier? = owner.qualifier := by
  obtain ⟨name, _, rfl⟩ := h
  rfl

namespace Query

variable {sub : Query} {before after others : List Entry} {entry : Entry} {c : Column}

/-- Taking a filter out leaves the joins of a subquery as they are. -/
theorem joins_yielding (hlog : sub.log = before ++ entry :: after) (hkind : entry.kind = .filter) :
    (sub.yielding (before ++ after) c).joins = sub.joins := by
  have hselect (log : List Entry) :
      (log.filter fun e => e.kind != .select).filter (fun e => e.kind == .join) =
        log.filter fun e => e.kind == .join := by
    rw [List.filter_filter]
    refine List.filter_congr fun e _ => ?_
    cases e <;> rfl
  have hnone : (Entry.select [⟨.column c, none⟩]).kind = .select := rfl
  simp only [joins, yielding, hlog, List.filter_append, hselect, List.filter_cons, hkind, hnone,
    List.filter_nil]
  simp

/-- The names that a subquery declares stay the same. -/
theorem declaredNames_yielding (hlog : sub.log = before ++ entry :: after)
    (hkind : entry.kind = .filter) :
    (sub.yielding (before ++ after) c).declaredNames = sub.declaredNames :=
  declaredNames_congr rfl (joins_yielding hlog hkind)

/-- A subquery that is projected to a bare column yields it. -/
theorem yielded?_yielding (hc : c.isBare = true) : (sub.yielding others c).yielded? = some c := by
  have hitems : (others.filter fun e => e.kind != .select).flatMap Entry.items = [] := by
    rw [List.flatMap_eq_nil_iff]
    intro e he
    have hkind := (List.mem_filter.mp he).2
    cases e <;> first | rfl | cases hkind
  simp [yielded?, yielding, List.flatMap_append, hitems, Entry.items, Operand.bare?, hc]

/-- A subquery that is decided filter by filter stays so. -/
theorem isFilterOnly_yielding (h : sub.isFilterOnly = true) (hothers : ∀ e ∈ others, e ∈ sub.log)
    (hc : c.containsAggregate = false) : (sub.yielding others c).isFilterOnly = true := by
  obtain ⟨hlimit, hgroup, hhaving, haggregate⟩ := isFilterOnly_iff.mp h
  have hmem (e : Entry) (he : e ∈ (sub.yielding others c).log) :
      e ∈ sub.log ∨ e = .select [⟨.column c, none⟩] := by
    rcases List.mem_append.mp he with hkept | hlast
    · exact Or.inl (hothers e (List.mem_filter.mp hkept).1)
    · exact Or.inr (List.mem_singleton.mp hlast)
  have hhas {kind : EntryKind} (hkind : kind ≠ .select) (hsub : sub.has kind = false) :
      (sub.yielding others c).has kind = false := by
    rw [has, List.any_eq_false] at hsub ⊢
    intro e he
    rcases hmem e he with hkept | rfl
    · exact hsub e hkept
    · simpa [Entry.kind] using hkind.symm
  refine isFilterOnly_iff.mpr ⟨hlimit, hhas (by decide) hgroup, hhas (by decide) hhaving, ?_⟩
  intro e he
  rcases hmem e he with hkept | rfl
  · exact haggregate e hkept
  · simp [Entry.projectsAggregate, Operand.containsAggregate, hc]

end Query

section Meaning

variable {α : Type} [DecidableEq α] {I : Interpretation α} {scopes : List (Scope α)}

/-- Without the correlating filter a subquery keeps the rows that meet all its other entries. -/
theorem Query.mem_kept_yielding_iff {sub : Query} {before after : List Entry} {entry : Entry}
    {c : Column} {scope : Scope α} (hlog : sub.log = before ++ entry :: after)
    (hkind : entry.kind = .filter) :
    scope ∈ (sub.yielding (before ++ after) c).kept I scopes ↔
      ∃ row ∈ I.rows sub.source sub.aliasName sub.joins scopes,
        scope = ⟨sub.declaredNames, row⟩ ∧
          ∀ e ∈ before ++ after, e.truth I (scope :: scopes) = .yes := by
  have hall : (∀ e ∈ (sub.yielding (before ++ after) c).log,
        e.truth I (scope :: scopes) = .yes) ↔
      ∀ e ∈ before ++ after, e.truth I (scope :: scopes) = .yes := by
    constructor
    · intro h e he
      by_cases hselect : e.kind = .select
      · cases e with
        | select items => rfl
        | _ => cases hselect
      · exact h e (List.mem_append_left _ (List.mem_filter.mpr ⟨he, bne_iff_ne.mpr hselect⟩))
    · intro h e he
      rcases List.mem_append.mp he with hkept | hlast
      · exact h e (List.mem_filter.mp hkept).1
      · rw [List.mem_singleton.mp hlast]
        rfl
  rw [mem_kept_iff, joins_yielding hlog hkind, declaredNames_yielding hlog hkind, hall]
  rfl

/-- Inside a subquery that does not declare the outer qualifier, the correlating filter compares the
value of the row outside with a value of the row inside. -/
theorem Entry.Correlates.truth_eq {outer inner : Reference} {entry : Entry}
    {outerColumn innerColumn : Column} {name : String} {scope : Scope α}
    (h : entry.Correlates outer inner outerColumn innerColumn)
    (hname : outer.qualifier = some name) (hscope : name ∉ scope.names)
    (hdeclared : ∃ around ∈ scopes, name ∈ around.names) :
    entry.truth I (scope :: scopes) =
      Truth.equal (outerColumn.value I scopes) (innerColumn.value I (scope :: scopes)) := by
  have houter := h.outerColumn_drawnFrom.isBare
  have hinner := h.innerColumn_drawnFrom.isBare
  have hvalue : outerColumn.value I (scope :: scopes) = outerColumn.value I scopes :=
    Column.value_cons_of_notMem (h.outerColumn_drawnFrom.qualifier?_eq.trans hname) hscope
      hdeclared
  rcases h.eq_filter with rfl | rfl
  · rw [truth_filter_equality houter hinner, hvalue]
  · rw [truth_filter_equality hinner houter, hvalue, Truth.equal_comm]

/-- A converted existence test is true exactly when the membership test in its place is. -/
theorem Entry.truth_eq_yes_iff_of_membership? {outer : Reference} {sub : Query} {cond : Column}
    {name : String} (h : (Entry.whereExists sub).membership? outer = some cond)
    (hshape : sub.isFilterOnly = true) (hname : outer.qualifier = some name)
    (hfree : name ∉ sub.declaredNames) (hdeclared : ∃ around ∈ scopes, name ∈ around.names) :
    (Entry.whereExists sub).truth I scopes = .yes ↔
      (Entry.filter cond).truth I scopes = .yes := by
  obtain ⟨_, before, after, entry, outerColumn, innerColumn, hreplaced⟩ :=
    replaced_of_membership? h
  obtain ⟨hlog, _, hcorrelates, rfl⟩ := hreplaced
  have hkind := hcorrelates.kind_eq
  have hothers : ∀ e ∈ before ++ after, e ∈ sub.log := by
    intro e he
    rw [hlog]
    rcases List.mem_append.mp he with hb | ha
    · exact List.mem_append_left _ hb
    · exact List.mem_append_right _ (List.mem_cons_of_mem _ ha)
  have haggregate : innerColumn.containsAggregate = false := by
    obtain ⟨column, _, rfl⟩ := hcorrelates.innerColumn_drawnFrom
    rfl
  -- The comparison made by the filter inside is the one made by the test outside.
  have hentry (row : String → String → Option α) :
      entry.truth I (⟨sub.declaredNames, row⟩ :: scopes) =
        Truth.equal (outerColumn.value I scopes)
          (innerColumn.value I (⟨sub.declaredNames, row⟩ :: scopes)) :=
    hcorrelates.truth_eq hname hfree hdeclared
  rw [truth_whereExists_eq_yes_iff hshape,
    truth_filter_membership_eq_yes_iff hcorrelates.outerColumn_drawnFrom.isBare
      (Query.isFilterOnly_yielding hshape hothers haggregate)
      (Query.yielded?_yielding hcorrelates.innerColumn_drawnFrom.isBare)]
  simp only [Query.mem_kept_iff (q := sub), Query.mem_kept_yielding_iff hlog hkind]
  constructor
  · rintro ⟨_, row, hrow, rfl, hall⟩
    rw [hlog, List.forall_mem_append, List.forall_mem_cons, hentry] at hall
    exact ⟨_, ⟨row, hrow, rfl, List.forall_mem_append.mpr ⟨hall.1, hall.2.2⟩⟩, hall.2.1⟩
  · rintro ⟨_, ⟨row, hrow, rfl, hall⟩, hequal⟩
    rw [List.forall_mem_append] at hall
    refine ⟨_, row, hrow, rfl, ?_⟩
    rw [hlog, List.forall_mem_append, List.forall_mem_cons, hentry]
    exact ⟨hall.1, hequal, hall.2⟩

/-- A conversion keeps the rows that a query accepts, whatever its tables hold and its other
conditions come to. -/
theorem Query.accepts_eq_yes_iff_of_membership? {root root' sub : Query}
    (h : root.membership? = some root') (hsub : root.converted? = some sub)
    (hshape : sub.isFilterOnly = true)
    (hfree : ∀ table ∈ sub.fromList, table.reference.qualifier ≠ root.reference.qualifier)
    (I : Interpretation α) (row : String → String → Option α) :
    root.accepts I row = .yes ↔ root'.accepts I row = .yes := by
  obtain ⟨before, sub', after, cond, hsub', hlog, hcond, rfl⟩ := converted?_of_membership? h
  obtain rfl : sub' = sub := Option.some.inj (hsub'.symm.trans hsub)
  obtain ⟨name, hname⟩ := Option.isSome_iff_exists.mp
    (Entry.replaced_of_membership? hcond).1.outer_qualified
  have hnotMem : name ∉ sub'.declaredNames := by
    rw [mem_declaredNames_iff]
    rintro ⟨table, htable, hqualifier⟩
    exact hfree table htable (hqualifier.trans hname.symm)
  have hnames : ({ root with log := before ++ after ++ [.filter cond] } : Query).declaredNames =
      root.declaredNames := by
    refine declaredNames_congr rfl ?_
    simp [joins, hlog, List.filter_append, Entry.kind]
  have hdeclared : ∃ around ∈ [(⟨root.declaredNames, row⟩ : Scope α)], name ∈ around.names :=
    ⟨_, List.mem_singleton_self _, qualifier_mem_declaredNames hname⟩
  have htest := Entry.truth_eq_yes_iff_of_membership? (I := I) hcond hshape hname hnotMem hdeclared
  rw [accepts, accepts, hnames, Entry.conjunction_eq_yes_iff, Entry.conjunction_eq_yes_iff, hlog]
  simp only [List.forall_mem_append, List.forall_mem_cons, htest]
  constructor
  · rintro ⟨hbefore, hfilter, hafter⟩
    exact ⟨⟨hbefore, hafter⟩, hfilter, List.forall_mem_nil _⟩
  · rintro ⟨⟨hbefore, hafter⟩, hfilter, _⟩
    exact ⟨hbefore, hfilter, hafter⟩

end Meaning

/-- One table of rows with an `id` and an `a`, whatever the source, and equality with a number. -/
def Interpretation.ofPairs (pairs : List (Option Int × Option Int)) : Interpretation Int where
  rows _ _ _ _ := pairs.map fun pair _ column => if column = "id" then pair.1 else pair.2
  undeclared _ _ := none
  condition c scopes :=
    match c.equality? with
    | some (.column d, .literal (.int n)) => Truth.equal ((d.found? scopes).getD none) (some n)
    | _ => .unknown
  existence _ _ := .unknown

/-- The rows of `t1` that have a match. -/
def Query.withSelectiveMatch : Query := (Query.ofTable "t1").whereExists selectiveMatch

/-- A row without an `id`, one that matches, and one that the selective filter drops. -/
def Interpretation.threeRows : Interpretation Int :=
  .ofPairs [(none, some 5), (some 1, some 5), (some 2, some 7)]

/-- The row of `t1` with `id = 1` is accepted before and after the conversion. -/
theorem Query.accepts_selectiveMatch :
    ∃ root', withSelectiveMatch.membership? = some root' ∧
      withSelectiveMatch.converted? = some selectiveMatch ∧ selectiveMatch.isFilterOnly = true ∧
      (∀ table ∈ selectiveMatch.fromList,
        table.reference.qualifier ≠ withSelectiveMatch.reference.qualifier) ∧
      withSelectiveMatch.accepts .threeRows (fun _ _ => some 1) = .yes ∧
      root'.accepts .threeRows (fun _ _ => some 1) = .yes := by
  have hfree : ∀ table ∈ selectiveMatch.fromList,
      table.reference.qualifier ≠ withSelectiveMatch.reference.qualifier := by decide
  have hyes : withSelectiveMatch.accepts .threeRows (fun _ _ => some 1) = .yes := by decide
  refine ⟨_, rfl, rfl, rfl, hfree, hyes, ?_⟩
  exact (accepts_eq_yes_iff_of_membership? rfl rfl rfl hfree .threeRows _).mp hyes

end SqlTree
