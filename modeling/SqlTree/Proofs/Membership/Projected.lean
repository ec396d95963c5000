import SqlTree.Proofs.Membership.Revised

/-!
# Conversions under explicit projections

Making projections explicit touches the filters of a query only inside their subqueries and adds
nothing but a projection to its log. Main statement: the subqueries converted after that are the
ones converted before it, with their own projections made explicit.
-/

namespace SqlTree

@[simp] theorem Source.name?_projected (source : Source) :
    source.projected.name? = source.name? := by
  cases source <;> simp [Source.projected, name?]

@[simp] theorem Source.isCombined_projected (source : Source) :
    source.projected.isCombined = source.isCombined := by
  cases source <;> simp [Source.projected, isCombined, setOp?]

@[simp] theorem Entry.kind_projected (entry : Entry) : entry.projected.kind = entry.kind := by
  cases entry <;> simp [Entry.projected, kind]

theorem Entry.projectedLog_eq_map (log : List Entry) :
    projectedLog log = log.map Entry.projected := by
  induction log with
  | nil => simp [projectedLog]
  | cons entry rest ih => simp [projectedLog, ih]

theorem Projection.projectedItems_eq_map (items : List Projection) :
    projectedItems items = items.map Projection.projected := by
  induction items with
  | nil => simp [projectedItems]
  | cons item rest ih => simp [projectedItems, ih]

@[simp] theorem Query.source_projected (q : Query) : q.projected.source = q.source.projected := by
  cases q
  simp [Query.projected]

@[simp] theorem Query.limit_projected (q : Query) : q.projected.limit = q.limit := by
  cases q
  simp [Query.projected]

@[simp] theorem Query.reference_projected (q : Query) :
    q.projected.reference = q.reference := by
  cases q
  simp [Query.projected, reference]

/-- The log of a set operation is left alone. -/
theorem Query.log_projected_of_isCombined {q : Query} (h : q.source.isCombined = true) :
    q.projected.log = q.log := by
  cases q
  simp only at h
  simp [Query.projected, h]

theorem Query.log_projected {q : Query} (h : q.source.isCombined = false) :
    q.projected.log = Entry.withSelect (q.log.map Entry.projected) := by
  cases q
  simp only at h
  simp [Query.projected, h, Entry.projectedLog_eq_map]

/-- Only a projection to all columns may be added to a log. -/
theorem Entry.withSelect_eq (log : List Entry) :
    withSelect log = log ∨ withSelect log = log ++ [selectAll] := by
  unfold withSelect
  split
  · exact Or.inl rfl
  · exact Or.inr rfl

/-- What holds of no projection is found in the log of a query before its projection is made
explicit or not at all. -/
theorem Query.exists_mem_log_projected {p : Entry → Prop} (hall : ¬ p Entry.selectAll)
    (hentry : ∀ entry : Entry, p entry.projected ↔ p entry) (q : Query) :
    (∃ entry ∈ q.projected.log, p entry) ↔ ∃ entry ∈ q.log, p entry := by
  cases hsource : q.source.isCombined with
  | true => rw [log_projected_of_isCombined hsource]
  | false =>
    rw [log_projected hsource]
    rcases Entry.withSelect_eq (q.log.map Entry.projected) with he | he <;>
      simp [he, hall, hentry, or_and_right, exists_or]

theorem Entry.isSelective_projected (inner : Reference) (entry : Entry) :
    entry.projected.isSelective inner = entry.isSelective inner := by
  rw [projected_eq_revised, isSelective_revised]

theorem Entry.correlation?_projected (outer inner : Reference) (entry : Entry) :
    entry.projected.correlation? outer inner = entry.correlation? outer inner := by
  rw [projected_eq_revised, correlation?_revised]

theorem Entry.selective_projected {inner : Reference} {entry : Entry} :
    entry.projected.Selective inner ↔ entry.Selective inner := by
  rw [← isSelective_iff, ← isSelective_iff, isSelective_projected]

/-- Between two different queries an entry correlates the same columns as before. -/
theorem Entry.correlates_projected {outer inner : Reference} {outerColumn innerColumn : Column}
    {entry : Entry} (hne : outer ≠ inner) :
    entry.projected.Correlates outer inner outerColumn innerColumn ↔
      entry.Correlates outer inner outerColumn innerColumn := by
  rw [← correlation?_eq_some_iff hne, ← correlation?_eq_some_iff hne, correlation?_projected]

/-- A subquery qualifies or not whether or not its projections are explicit. -/
theorem Query.qualifies_projected {outer : Reference} {sub : Query} :
    sub.projected.Qualifies outer ↔ sub.Qualifies outer := by
  have hselective : (∃ entry ∈ sub.projected.log, entry.Selective sub.reference) ↔
      ∃ entry ∈ sub.log, entry.Selective sub.reference := by
    refine exists_mem_log_projected ?_ (fun entry => Entry.selective_projected) sub
    exact fun h => absurd h.kind_eq (by decide)
  have hcorrelated (hne : outer ≠ sub.reference) :
      (∃ entry ∈ sub.projected.log, ∃ outerColumn innerColumn,
        entry.Correlates outer sub.reference outerColumn innerColumn) ↔
      ∃ entry ∈ sub.log, ∃ outerColumn innerColumn,
        entry.Correlates outer sub.reference outerColumn innerColumn := by
    refine exists_mem_log_projected ?_ (fun entry => ?_) sub
    · rintro ⟨o, i, h⟩
      exact absurd h.kind_eq (by decide)
    · simp only [Entry.correlates_projected hne]
  constructor
  · intro h
    have hne : outer ≠ sub.reference := reference_projected sub ▸ h.ne
    exact ⟨h.outer_qualified, reference_projected sub ▸ h.inner_qualified, hne,
      hselective.mp (reference_projected sub ▸ h.selective),
      (hcorrelated hne).mp (reference_projected sub ▸ h.correlated)⟩
  · intro h
    refine ⟨h.outer_qualified, ?_, ?_, ?_, ?_⟩ <;> rw [reference_projected]
    · exact h.inner_qualified
    · exact h.ne
    · exact hselective.mpr h.selective
    · exact (hcorrelated h.ne).mpr h.correlated

/-- An existence test is converted if it was, and its subquery is made explicit. -/
theorem Entry.converted?_projected (outer : Reference) (entry : Entry) :
    entry.projected.converted? outer = (entry.converted? outer).map Query.projected := by
  cases entry with
  | whereExists sub =>
    simp only [Entry.projected, converted?]
    by_cases h : sub.Qualifies outer
    · rw [if_pos (membership?_isSome_iff.mpr (Query.qualifies_projected.mpr h)),
        if_pos (membership?_isSome_iff.mpr h), Option.map_some]
    · rw [if_neg fun hp => h (Query.qualifies_projected.mp (membership?_isSome_iff.mp hp)),
        if_neg fun hq => h (membership?_isSome_iff.mp hq), Option.map_none]
  | _ => simp [Entry.projected, converted?]

/-- The subquery converted is the one that was, with its projections made explicit. -/
theorem Query.converted?_projected (q : Query) :
    q.projected.converted? = q.converted?.map Query.projected := by
  unfold converted?
  rw [source_projected, Source.isCombined_projected, reference_projected]
  cases hsource : q.source.isCombined with
  | true => simp
  | false =>
    have hmap : (q.log.map Entry.projected).findSome? (Entry.converted? q.reference) =
        (q.log.findSome? (Entry.converted? q.reference)).map Query.projected := by
      induction q.log with
      | nil => rfl
      | cons entry rest ih =>
        rw [List.map_cons, List.findSome?_cons, List.findSome?_cons, Entry.converted?_projected]
        cases entry.converted? q.reference with
        | none => exact ih
        | some sub => rfl
    have hall : Entry.selectAll.converted? q.reference = none := rfl
    simp only [Bool.false_eq_true, if_false]
    rw [log_projected hsource, ← hmap]
    rcases Entry.withSelect_eq (q.log.map Entry.projected) with he | he
    · rw [he]
    · rw [he, List.findSome?_append]
      simp [hall]

/-- What is converted under explicit projections was converted without them. -/
theorem Query.converts_projected_iff {q sub' : Query} :
    q.projected.Converts sub' ↔ ∃ sub, q.Converts sub ∧ sub.projected = sub' := by
  simp only [converts_iff, ← converted?_eq_some_iff, converted?_projected, Option.map_eq_some_iff]

mutual

/-- Explicit projections in subqueries apply no aggregate to a column expression. -/
theorem Column.containsAggregate_projected :
    ∀ c : Column, c.projected.containsAggregate = c.containsAggregate
  | ⟨base, functions, nullTest⟩ => by
    simp only [Column.projected, Column.containsAggregate]
    rw [Base.containsAggregate_projected base]

theorem Base.containsAggregate_projected :
    ∀ b : Base, b.projected.containsAggregate = b.containsAggregate
  | .named name owner => by simp only [Base.projected]
  | .binary op left right => by
    simp only [Base.projected, Base.containsAggregate]
    rw [Operand.containsAggregate_projected left, Operand.containsAggregate_projected right]

theorem Operand.containsAggregate_projected :
    ∀ side : Operand, side.projected.containsAggregate = side.containsAggregate
  | .column c => by
    simp only [Operand.projected, Operand.containsAggregate]
    rw [Column.containsAggregate_projected c]
  | .literal v => by simp only [Operand.projected]
  | .query q => by simp only [Operand.projected, Operand.containsAggregate]

end

end SqlTree
