import SqlTree.Proofs.Membership.Projected
import SqlTree.Proofs.Tree.Everywhere
import SqlTree.Query.Compile

/-!
# What the passes keep

Before a query is written its projections are made explicit and an existence test may become a
membership test. Main statement: a demand that allows for the few entries and columns that these
passes make anew is met after them by every tree that met it before.
-/

namespace SqlTree

/-- A demand that the passes cannot break: what it asks of a query concerns its reference and its
limit only, it does not look into subqueries, and it allows what the passes make anew. -/
structure Demand.Stable (d : Demand) : Prop where
  query_congr : ∀ q q' : Query, q'.reference = q.reference → q'.limit = q.limit →
    d.query q → d.query q'
  entry_projected : ∀ entry : Entry, d.entry entry → d.entry entry.projected
  entry_yield : ∀ c : Column, d.entry (.select [⟨.column c, none⟩])
  entry_membership : ∀ (c : Column) (values : Query), c.isBare = true →
    d.entry (.filter (c.combine .isIn (.query values)))
  column_projected : ∀ c : Column, d.column c → d.column c.projected
  column_star : d.column .star
  column_ofBinary : ∀ (op : BinaryOp) (left right : Operand), d.column (.ofBinary op left right)

/-- A column by name is not changed when projections are made explicit. -/
theorem Column.base_eq_of_projected {c : Column} {name : String} {owner : Option Reference}
    (h : c.projected.base = .named name owner) : c.base = .named name owner := by
  obtain ⟨base, functions, nullTest⟩ := c
  cases base with
  | named name' owner' => simpa only [Column.projected, Base.projected] using h
  | binary op left right => simp [Column.projected, Base.projected] at h

/-- Projected expressions keep their aliases when projections are made explicit. -/
theorem Entry.exists_item_of_projected {entry : Entry} {items : List Projection}
    (h : entry.projected = .select items) {item : Projection} (hitem : item ∈ items) :
    ∃ items' item', entry = .select items' ∧ item' ∈ items' ∧
      item'.aliasName = item.aliasName := by
  cases entry with
  | select items' =>
    simp only [Entry.projected, Projection.projectedItems_eq_map, Entry.select.injEq] at h
    subst h
    obtain ⟨⟨expr, aliasName⟩, hitem', rfl⟩ := List.mem_map.mp hitem
    exact ⟨items', ⟨expr, aliasName⟩, rfl, hitem', by simp only [Projection.projected]⟩
  | _ => simp [Entry.projected] at h

variable {d : Demand}

/-- A projection to a column that is as demanded is as demanded. -/
theorem Entry.meets_yield (hd : d.Stable) {c : Column} (hc : c.Meets d) :
    (Entry.select [⟨.column c, none⟩]).Meets d := by
  refine ⟨hd.entry_yield c, ?_⟩
  simp only [PartsMeet, Projection.allMeet_iff, List.forall_mem_singleton, Operand.Meets]
  exact hc

theorem Entry.meets_selectAll (hd : d.Stable) : Entry.selectAll.Meets d := by
  refine meets_yield (c := .star) hd ?_
  rw [Column.meets_iff]
  exact ⟨hd.column_star, trivial⟩

theorem Entry.meets_withSelect (hd : d.Stable) {log : List Entry} (h : Entry.AllMeet d log) :
    Entry.AllMeet d (Entry.withSelect log) := by
  rw [allMeet_iff] at h ⊢
  rcases withSelect_eq log with he | he
  · rw [he]
    exact h
  · rw [he, List.forall_mem_append, List.forall_mem_singleton]
    exact ⟨h, meets_selectAll hd⟩

mutual

/-- Explicit projections keep what is demanded of a query. -/
theorem Query.meets_projected (hd : d.Stable) : ∀ q : Query, q.Meets d → q.projected.Meets d
  | ⟨source, aliasName, log, limit, distinct, reversed, driver⟩, h => by
    simp only [Query.Meets] at h
    obtain ⟨hquery, hsource, hlog⟩ := h
    have hreference := Query.reference_projected
      ⟨source, aliasName, log, limit, distinct, reversed, driver⟩
    simp only [Query.projected] at hreference
    simp only [Query.projected, Query.Meets]
    refine ⟨hd.query_congr _ _ hreference rfl hquery, Source.meets_projected hd source hsource, ?_⟩
    cases source.isCombined with
    | true => exact hlog
    | false => exact Entry.meets_withSelect hd (Entry.allMeet_projectedLog hd log hlog)

theorem Source.meets_projected (hd : d.Stable) :
    ∀ source : Source, source.Meets d → source.projected.Meets d
  | .named _, h => h
  | .derived q, h => by
    simp only [Source.projected, Source.Meets] at h ⊢
    exact Query.meets_projected hd q h
  | .combined _ left right, h => by
    simp only [Source.projected, Source.Meets] at h ⊢
    exact ⟨Query.meets_projected hd left h.1, Query.meets_projected hd right h.2⟩

theorem Entry.partsMeet_projected (hd : d.Stable) :
    ∀ entry : Entry, entry.PartsMeet d → entry.projected.PartsMeet d
  | .select items, h => by
    simp only [Entry.projected, Entry.PartsMeet] at h ⊢
    exact Projection.allMeet_projectedItems hd items h
  | .filter cond, h => by
    simp only [Entry.projected, Entry.PartsMeet] at h ⊢
    exact Column.meets_projected hd cond h
  | .whereExists sub, h => by
    simp only [Entry.projected, Entry.PartsMeet] at h ⊢
    exact Query.meets_projected hd sub h
  | .group c, h => by
    simp only [Entry.projected, Entry.PartsMeet] at h ⊢
    exact Column.meets_projected hd c h
  | .having cond, h => by
    simp only [Entry.projected, Entry.PartsMeet] at h ⊢
    exact Column.meets_projected hd cond h
  | .order c, h => by
    simp only [Entry.projected, Entry.PartsMeet] at h ⊢
    exact Column.meets_projected hd c h
  | .join target, h => by
    simp only [Entry.projected, Entry.PartsMeet] at h ⊢
    exact Query.meets_projected hd target h
  | .joinOn target cond, h => by
    simp only [Entry.projected, Entry.PartsMeet] at h ⊢
    exact ⟨Query.meets_projected hd target h.1, Column.meets_projected hd cond h.2⟩

theorem Entry.allMeet_projectedLog (hd : d.Stable) :
    ∀ log : List Entry, Entry.AllMeet d log → Entry.AllMeet d (Entry.projectedLog log)
  | [], h => h
  | entry :: rest, h => by
    simp only [Entry.projectedLog, Entry.AllMeet] at h ⊢
    exact ⟨⟨hd.entry_projected entry h.1.1, Entry.partsMeet_projected hd entry h.1.2⟩,
      Entry.allMeet_projectedLog hd rest h.2⟩

theorem Projection.meets_projected (hd : d.Stable) :
    ∀ item : Projection, item.Meets d → item.projected.Meets d
  | ⟨expr, _⟩, h => by
    simp only [Projection.projected, Projection.Meets] at h ⊢
    exact Operand.meets_projected hd expr h

theorem Projection.allMeet_projectedItems (hd : d.Stable) :
    ∀ items : List Projection, Projection.AllMeet d items →
      Projection.AllMeet d (Projection.projectedItems items)
  | [], h => h
  | item :: rest, h => by
    simp only [Projection.projectedItems, Projection.AllMeet] at h ⊢
    exact ⟨Projection.meets_projected hd item h.1, Projection.allMeet_projectedItems hd rest h.2⟩

theorem Column.meets_projected (hd : d.Stable) : ∀ c : Column, c.Meets d → c.projected.Meets d
  | ⟨base, functions, nullTest⟩, h => by
    have hcolumn := hd.column_projected ⟨base, functions, nullTest⟩
    simp only [Column.Meets] at h
    simp only [Column.projected, Column.Meets] at hcolumn ⊢
    exact ⟨hcolumn h.1, Base.meets_projected hd base h.2⟩

theorem Base.meets_projected (hd : d.Stable) : ∀ b : Base, b.Meets d → b.projected.Meets d
  | .named _ _, h => h
  | .binary _ left right, h => by
    simp only [Base.projected, Base.Meets] at h ⊢
    exact ⟨Operand.meets_projected hd left h.1, Operand.meets_projected hd right h.2⟩

theorem Operand.meets_projected (hd : d.Stable) :
    ∀ side : Operand, side.Meets d → side.projected.Meets d
  | .column c, h => by
    simp only [Operand.projected, Operand.Meets] at h ⊢
    exact Column.meets_projected hd c h
  | .literal _, h => h
  | .query q, h => by
    simp only [Operand.projected, Operand.Meets] at h ⊢
    exact Query.meets_projected hd q h

end

/-- The columns of a correlating filter are as demanded if the filter is. -/
theorem Entry.Correlates.meets {outer inner : Reference} {entry : Entry}
    {outerColumn innerColumn : Column}
    (h : entry.Correlates outer inner outerColumn innerColumn) (hentry : entry.Meets d) :
    outerColumn.Meets d ∧ innerColumn.Meets d := by
  rcases h.eq_filter with rfl | rfl <;>
    simp only [Entry.Meets, PartsMeet, Column.meets_ofBinary_iff, Operand.Meets] at hentry
  · exact hentry.2.2
  · exact ⟨hentry.2.2.2, hentry.2.2.1⟩

/-- A subquery that yields one of its columns is as demanded if the subquery is. -/
theorem Query.meets_yielding (hd : d.Stable) {sub : Query} {others : List Entry} {c : Column}
    (hsub : sub.Meets d) (hothers : ∀ entry ∈ others, entry ∈ sub.log) (hc : c.Meets d) :
    (sub.yielding others c).Meets d := by
  rw [meets_iff] at hsub ⊢
  obtain ⟨hquery, hsource, hlog⟩ := hsub
  refine ⟨hd.query_congr sub _ rfl rfl hquery, hsource, ?_⟩
  rw [yielding, List.forall_mem_append, List.forall_mem_singleton]
  refine ⟨fun entry hentry => ?_, Entry.meets_yield hd hc⟩
  exact hlog entry (hothers entry (List.mem_filter.mp hentry).1)

/-- The membership test that takes the place of an existence test is as demanded if that test is. -/
theorem Entry.meets_filter_of_membership? (hd : d.Stable) {outer : Reference} {sub : Query}
    {cond : Column} (h : (Entry.whereExists sub).membership? outer = some cond)
    (hsub : sub.Meets d) : (Entry.filter cond).Meets d := by
  obtain ⟨_, before, after, entry, outerColumn, innerColumn, hreplaced⟩ :=
    replaced_of_membership? h
  obtain ⟨hlog, _, hcorrelates, rfl⟩ := hreplaced
  have hbare : outerColumn.isBare = true := hcorrelates.outerColumn_drawnFrom.isBare
  have hentries := (Query.meets_iff.mp hsub).2.2
  rw [hlog, List.forall_mem_append, List.forall_mem_cons] at hentries
  obtain ⟨houter, hinner⟩ := hcorrelates.meets hentries.2.1
  have hothers : ∀ e ∈ before ++ after, e ∈ sub.log := by
    rw [hlog, List.forall_mem_append]
    exact ⟨fun e he => List.mem_append_left _ he,
      fun e he => List.mem_append_right _ (List.mem_cons_of_mem _ he)⟩
  refine ⟨hd.entry_membership _ _ hbare, ?_⟩
  simp only [PartsMeet, Column.combine, Column.meets_ofBinary_iff, Operand.Meets]
  exact ⟨hd.column_ofBinary _ _ _, houter, Query.meets_yielding hd hsub hothers hinner⟩

/-- A conversion keeps what is demanded of a query. -/
theorem Query.meets_of_membership? (hd : d.Stable) {q q' : Query}
    (h : q.membership? = some q') (hq : q.Meets d) : q'.Meets d := by
  obtain ⟨before, sub, after, cond, _, hlog, hcond, rfl⟩ := converted?_of_membership? h
  rw [meets_iff] at hq ⊢
  obtain ⟨hquery, hsource, hentries⟩ := hq
  rw [hlog, List.forall_mem_append, List.forall_mem_cons] at hentries
  obtain ⟨hbefore, hsub, hafter⟩ := hentries
  refine ⟨hd.query_congr q _ rfl rfl hquery, hsource, ?_⟩
  simp only [List.forall_mem_append, List.forall_mem_singleton]
  exact ⟨⟨hbefore, hafter⟩, Entry.meets_filter_of_membership? hd hcond hsub.2⟩

/-- A query with its first qualifying existence test converted, if it has one, meets a stable
demand that it met. -/
theorem Query.meets_getD_membership? (hd : d.Stable) {q : Query} (hq : q.Meets d) :
    (q.membership?.getD q).Meets d := by
  cases h : q.membership? with
  | none => exact hq
  | some q' => exact meets_of_membership? hd h hq

/-- A query in the form in which it is written meets a stable demand that it met. -/
theorem Query.meets_prepared (hd : d.Stable) {q : Query} (hq : q.Meets d) : q.prepared.Meets d :=
  meets_getD_membership? hd (meets_projected hd q hq)

end SqlTree
