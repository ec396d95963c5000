import SqlTree.Proofs.Membership.Qualifying
import SqlTree.Proofs.Tree.Revision
import SqlTree.Query.Compile

/-!
# Conversions of revised queries

What makes a subquery qualify are the names of columns and where literals stand; a revision changes
neither. Main statements: the test that takes the place of an existence test is revised with it, it
stands behind the projection that a revision may add, and a revision without explicit projections
may be made before a query is prepared or after it.
-/

namespace SqlTree

section TakeFirst

variable {α β : Type} {f : α → Option β}

/-- A search in a list whose elements were replaced, where replacing them keeps what is accepted. -/
theorem takeFirst?_map {α' β' : Type} {f' : α' → Option β'} {g : α → α'} {h : β → β'}
    (hf : ∀ a, f' (g a) = (f a).map h) (l : List α) :
    takeFirst? f' (l.map g) = (takeFirst? f l).map fun (b, others) => (h b, others.map g) := by
  induction l with
  | nil => rfl
  | cons a rest ih =>
    simp only [List.map_cons, takeFirst?, hf]
    cases f a with
    | some b => rfl
    | none => simp [ih, Option.map_map, Function.comp_def]

/-- A search does not reach an element at the end that is not accepted. -/
theorem takeFirst?_concat {a : α} (ha : f a = none) (l : List α) :
    takeFirst? f (l ++ [a]) =
      (takeFirst? f l).map fun (b, others) => (b, others ++ [a]) := by
  induction l with
  | nil => simp [takeFirst?, ha]
  | cons x rest ih =>
    simp only [List.cons_append, takeFirst?]
    cases f x with
    | some b => rfl
    | none => simp [ih, Option.map_map, Function.comp_def]

/-- The other elements are as many of any kind that is not accepted. -/
theorem any_of_takeFirst? {p : α → Bool} (hp : ∀ a, p a = true → f a = none) {l others : List α}
    {b : β} (h : takeFirst? f l = some (b, others)) : others.any p = l.any p := by
  obtain ⟨before, a, after, rfl, _, ha, rfl⟩ := takeFirst?_eq_some_iff.mp h
  have hpa : p a = false := by
    by_contra hne
    rw [hp a (eq_true_of_ne_false hne)] at ha
    cases ha
  simp [hpa]

/-- A search among entries that accepts no projection ends a log as the log without the entry found
is ended. -/
theorem Revision.takeFirst?_close (r : Revision) {f : Entry → Option β}
    (hf : ∀ entry : Entry, entry.kind = .select → f entry = none) (log : List Entry) :
    takeFirst? f (r.close log) =
      (takeFirst? f log).map fun (b, others) => (b, r.close others) := by
  unfold close
  cases r.explicit with
  | false => simp
  | true =>
    have hany : ∀ {b : β} {others : List Entry}, takeFirst? f log = some (b, others) →
        (others.any fun entry => entry.kind == .select) =
          log.any fun entry => entry.kind == .select :=
      any_of_takeFirst? fun entry hentry => hf entry (beq_iff_eq.mp hentry)
    simp only [if_true, Entry.withSelect]
    cases hfirst : takeFirst? f log with
    | none =>
      split
      · simp [hfirst]
      · rw [takeFirst?_concat (hf .selectAll rfl), hfirst]
        rfl
    | some found =>
      simp only [Option.map_some, hany hfirst]
      split
      · simp [hfirst]
      · rw [takeFirst?_concat (hf .selectAll rfl), hfirst]
        rfl

end TakeFirst

variable (r : Revision)

/-- The sides of an equality stay its sides. -/
theorem Column.equality?_revised (c : Column) :
    (c.revised r).equality? = c.equality?.map fun sides =>
      (sides.1.revised r, sides.2.revised r) := by
  obtain ⟨base, functions, nullTest⟩ := c
  cases base with
  | named name owner => simp [Column.revised, Base.revised, equality?]
  | binary op left right =>
    cases op <;> cases functions <;> cases nullTest <;>
      simp [Column.revised, Base.revised, equality?]

/-- A bare column holds no literal and no subquery. -/
theorem Column.revised_of_isBare {c : Column} (h : c.isBare = true) : c.revised r = c := by
  obtain ⟨base, functions, nullTest⟩ := c
  cases base with
  | named name owner => simp [Column.revised, Base.revised]
  | binary op left right => simp [isBare, Base.binary?] at h

theorem Column.isBare_revised (c : Column) : (c.revised r).isBare = c.isBare := by
  obtain ⟨base, functions, nullTest⟩ := c
  cases base <;>
    simp [Column.revised, Base.revised, isBare, isStar, Base.binary?, Base.columnName]

theorem Column.owner?_revised (c : Column) : (c.revised r).base.owner? = c.base.owner? := by
  obtain ⟨base, functions, nullTest⟩ := c
  cases base <;> simp [Column.revised, Base.revised, Base.owner?]

theorem Operand.columnOf?_revised (owner : Reference) (side : Operand) :
    (side.revised r).columnOf? owner = side.columnOf? owner := by
  cases side with
  | column c =>
    simp only [Operand.revised, columnOf?, Column.isBare_revised, Column.owner?_revised]
    split
    · rename_i h
      rw [Bool.and_eq_true] at h
      rw [Column.revised_of_isBare r h.1]
    · rfl
  | literal v => simp [Operand.revised, columnOf?]
  | query q => simp [Operand.revised, columnOf?]

theorem Operand.isColumnOf_revised (owner : Reference) (side : Operand) :
    (side.revised r).isColumnOf owner = side.isColumnOf owner := by
  cases side <;>
    simp [Operand.revised, isColumnOf, Column.isBare_revised, Column.owner?_revised]

theorem Operand.isLiteral_revised (side : Operand) :
    (side.revised r).isLiteral = side.isLiteral := by
  cases side <;> simp [Operand.revised, isLiteral]

namespace Entry

/-- The sides of the equality that an entry filters by stay its sides. -/
theorem sides_revised (entry : Entry) :
    (entry.revised r).filter?.bind Column.equality? =
      (entry.filter?.bind Column.equality?).map fun sides =>
        (sides.1.revised r, sides.2.revised r) := by
  cases entry <;> simp [Entry.revised, filter?, Column.equality?_revised]

theorem isSelective_revised (inner : Reference) (entry : Entry) :
    (entry.revised r).isSelective inner = entry.isSelective inner := by
  unfold isSelective
  rw [sides_revised]
  cases entry.filter?.bind Column.equality? with
  | none => rfl
  | some sides =>
    simp only [Option.map_some, Operand.isColumnOf_revised, Operand.isLiteral_revised]

theorem correlation?_revised (outer inner : Reference) (entry : Entry) :
    (entry.revised r).correlation? outer inner = entry.correlation? outer inner := by
  unfold correlation?
  rw [sides_revised]
  cases entry.filter?.bind Column.equality? with
  | none => rfl
  | some sides =>
    simp only [Option.map_some, Option.bind_eq_bind, Option.bind_some,
      Operand.columnOf?_revised]

/-- A projection filters nothing, so it is not found to compare columns. -/
theorem correlation?_of_kind_select {outer inner : Reference} {entry : Entry}
    (h : entry.kind = .select) : entry.correlation? outer inner = none := by
  cases entry with
  | select items => rfl
  | _ => cases h

/-- Only a single column by name is drawn from a query. -/
theorem isBare_of_correlation? {outer inner : Reference} {entry : Entry}
    {outerColumn innerColumn : Column}
    (h : entry.correlation? outer inner = some (outerColumn, innerColumn)) :
    outerColumn.isBare = true ∧ innerColumn.isBare = true := by
  have hcorrelates := Correlates.of_correlation? h
  exact ⟨hcorrelates.outerColumn_drawnFrom.isBare, hcorrelates.innerColumn_drawnFrom.isBare⟩

theorem membership?_of_kind_select {outer : Reference} {entry : Entry}
    (h : entry.kind = .select) : entry.membership? outer = none := by
  cases entry with
  | select items => rfl
  | _ => cases h

end Entry

namespace Query

/-- The log that a revision makes of entries of the query. -/
def revisedEntries (q : Query) (entries : List Entry) : List Entry :=
  if q.source.isCombined then entries.map (Entry.revised r.implicit)
  else r.close (entries.map (Entry.revised r))

/-- The columns compared in a subquery are the same, and its other entries are revised. -/
theorem takeFirst?_correlation?_revised (outer inner : Reference) (sub : Query) :
    takeFirst? (Entry.correlation? outer inner) (sub.revised r).log =
      (takeFirst? (Entry.correlation? outer inner) sub.log).map fun (columns, others) =>
        (columns, sub.revisedEntries r others) := by
  have hmap (r : Revision) :
      takeFirst? (Entry.correlation? outer inner) (sub.log.map (Entry.revised r)) =
        (takeFirst? (Entry.correlation? outer inner) sub.log).map fun (columns, others) =>
          (columns, others.map (Entry.revised r)) :=
    takeFirst?_map (h := id) (fun entry => by simp [Entry.correlation?_revised]) sub.log
  rw [log_revised]
  unfold revisedEntries
  split
  · exact hmap r.implicit
  · rw [r.takeFirst?_close fun entry => Entry.correlation?_of_kind_select, hmap r,
      Option.map_map]
    rfl

theorem any_isSelective_revised (inner : Reference) (sub : Query) :
    (sub.revised r).log.any (Entry.isSelective inner) =
      sub.log.any (Entry.isSelective inner) := by
  rw [log_revised]
  split
  · simp [List.any_map, Function.comp_def, Entry.isSelective_revised]
  · have hall : Entry.selectAll.isSelective inner = false := rfl
    rcases r.close_eq (sub.log.map (Entry.revised r)) with he | ⟨he, _⟩ <;>
      simp [he, hall, List.any_map, Function.comp_def, Entry.isSelective_revised]

/-- Without its projections a log ends as it did. -/
theorem filter_ne_select_close (log : List Entry) :
    ((r.close log).filter fun entry => entry.kind != .select) =
      log.filter fun entry => entry.kind != .select := by
  have hall : (Entry.selectAll.kind != .select) = false := rfl
  rcases r.close_eq log with he | ⟨he, _⟩ <;> simp [he, hall]

/-- A log that ends with a projection is given none. -/
theorem close_concat_select (log : List Entry) (items : List Projection) :
    r.close (log ++ [.select items]) = log ++ [.select items] := by
  have hall : ((Entry.select items).kind == .select) = true := rfl
  simp [Revision.close, Entry.withSelect, hall]

/-- A revised subquery yields what it yielded before, revised: its own projections are dropped, and
it is given none because it has one. -/
theorem yielding_revised (sub : Query) (others : List Entry) {c : Column}
    (hc : c.isBare = true) :
    (sub.revised r).yielding (sub.revisedEntries r others) c =
      (sub.yielding others c).revised r := by
  have hitem (r : Revision) : (Entry.select [⟨.column c, none⟩]).revised r =
      .select [⟨.column c, none⟩] := by
    simp [Entry.revised, Projection.revisedItems, Projection.revised, Operand.revised,
      Column.revised_of_isBare r hc]
  have hkept (r : Revision) :
      ((others.map (Entry.revised r)).filter fun entry => entry.kind != .select) =
        (others.filter fun entry => entry.kind != .select).map (Entry.revised r) := by
    simp [List.filter_map, Function.comp_def]
  obtain ⟨source, aliasName, log, limit, distinct, reversed, driver⟩ := sub
  simp only [yielding, Query.revised, revisedEntries, Entry.revisedLog_eq_map, List.map_append,
    List.map_singleton, hitem, close_concat_select]
  cases source.isCombined <;> simp [filter_ne_select_close, hkept]

end Query

/-- The test that takes the place of an existence test is revised with it. -/
theorem Entry.membership?_revised (outer : Reference) (entry : Entry) :
    (entry.revised r).membership? outer = (entry.membership? outer).map (Column.revised r) := by
  cases entry with
  | whereExists sub =>
    simp only [Entry.revised, membership?, Query.reference_revised, Query.any_isSelective_revised,
      Query.takeFirst?_correlation?_revised]
    split
    · cases htake : takeFirst? (correlation? outer sub.reference) sub.log with
      | none => rfl
      | some taken =>
        obtain ⟨⟨outerColumn, innerColumn⟩, others⟩ := taken
        obtain ⟨before, correlating, after, _, _, hcorrelates, _⟩ :=
          takeFirst?_eq_some_iff.mp htake
        obtain ⟨houter, hinner⟩ := isBare_of_correlation? hcorrelates
        change some (outerColumn.combine .isIn
            (.query ((sub.revised r).yielding (sub.revisedEntries r others) innerColumn))) =
          some ((outerColumn.combine .isIn (.query (sub.yielding others innerColumn))).revised r)
        rw [Query.yielding_revised r sub others hinner]
        simp [Column.combine, Column.ofBinary, Column.revised, Base.revised, Operand.revised,
          Column.revised_of_isBare r houter]
    · rfl
  | _ => simp [Entry.revised, membership?]

/-- The conversion of a revised query: the other entries are closed before the test is added. -/
theorem Query.membership?_revised (q : Query) :
    (q.revised r).membership? =
      if q.source.isCombined then none
      else (takeFirst? (Entry.membership? q.reference) q.log).map fun (cond, others) =>
        { q.revised r with
          log := r.close (others.map (Entry.revised r)) ++ [.filter (cond.revised r)] } := by
  unfold membership?
  rw [source_revised, Source.isCombined_revised, reference_revised, log_revised]
  split
  · rfl
  · rw [r.takeFirst?_close fun entry => Entry.membership?_of_kind_select,
      takeFirst?_map (Entry.membership?_revised r q.reference)]
    cases takeFirst? (Entry.membership? q.reference) q.log with
    | none => rfl
    | some found => simp

/-- Without explicit projections a query may be revised before a conversion or after it. -/
theorem Query.membership?_revised_of_implicit (hr : r.explicit = false) (q : Query) :
    (q.revised r).membership? = q.membership?.map (Query.revised r) := by
  have hclose (log : List Entry) : r.close log = log := by simp [Revision.close, hr]
  rw [membership?_revised]
  unfold membership?
  obtain ⟨source, aliasName, log, limit, distinct, reversed, driver⟩ := q
  cases hcombined : source.isCombined with
  | true => simp
  | false =>
    simp only [Bool.false_eq_true, if_false]
    cases takeFirst? (Entry.membership? (Query.reference ⟨source, aliasName, log, limit, distinct,
      reversed, driver⟩)) log with
    | none => rfl
    | some found =>
      simp [Query.revised, hcombined, hclose, Entry.revisedLog_eq_map, Entry.revised]

/-- A query may be revised before it is prepared or after that. -/
theorem Query.prepared_revised (hr : r.explicit = false) (q : Query) :
    (q.revised r).prepared = q.prepared.revised r := by
  unfold prepared
  rw [projected_revised, membership?_revised_of_implicit r hr]
  cases q.projected.membership? <;> rfl

end SqlTree
