import SqlTree.Query.DerivedName
import SqlTree.Query.Projection

/-!
# Revised trees

A revision replaces the literals of a tree, wherever they stand, and may make its projections
explicit on the way. Main statements: one revision after another is a revision, making projections
explicit is one, and so it may be done once or more often, before another revision or after it.
-/

namespace SqlTree

/-- What takes the place of each literal, and whether projections are made explicit. -/
structure Revision where
  literal : Literal → Literal
  explicit : Bool

namespace Revision

/-- The revision that makes projections explicit. -/
def projecting : Revision := ⟨id, true⟩

/-- The revision without explicit projections. -/
def implicit (r : Revision) : Revision := { r with explicit := false }

/-- One revision and then another. -/
def next (r s : Revision) : Revision := ⟨s.literal ∘ r.literal, r.explicit || s.explicit⟩

/-- The end that a revision puts to a log. -/
def close (r : Revision) (log : List Entry) : List Entry :=
  if r.explicit then Entry.withSelect log else log

end Revision

mutual

/-- The query revised. Projections are not made explicit in the log of a set operation. -/
def Query.revised (r : Revision) : Query → Query
  | ⟨source, aliasName, log, limit, distinct, reversed, driver⟩ =>
    ⟨source.revised r, aliasName,
      if source.isCombined then Entry.revisedLog r.implicit log
      else r.close (Entry.revisedLog r log),
      limit, distinct, reversed, driver⟩

/-- The source with the queries that it is made of revised. -/
def Source.revised (r : Revision) : Source → Source
  | .named name => .named name
  | .derived q => .derived (q.revised r)
  | .combined op left right => .combined op (left.revised r) (right.revised r)

/-- The entry with its expressions and queries revised. -/
def Entry.revised (r : Revision) : Entry → Entry
  | .select items => .select (Projection.revisedItems r items)
  | .filter cond => .filter (cond.revised r)
  | .whereExists sub => .whereExists (sub.revised r)
  | .group c => .group (c.revised r)
  | .having cond => .having (cond.revised r)
  | .order c => .order (c.revised r)
  | .join target => .join (target.revised r)
  | .joinOn target cond => .joinOn (target.revised r) (cond.revised r)

/-- The log with its entries revised. -/
def Entry.revisedLog (r : Revision) : List Entry → List Entry
  | [] => []
  | entry :: rest => entry.revised r :: Entry.revisedLog r rest

/-- The projected expression revised. -/
def Projection.revised (r : Revision) : Projection → Projection
  | ⟨expr, aliasName⟩ => ⟨expr.revised r, aliasName⟩

/-- The projected expressions revised. -/
def Projection.revisedItems (r : Revision) : List Projection → List Projection
  | [] => []
  | item :: rest => item.revised r :: Projection.revisedItems r rest

/-- The column expression with its operands revised. -/
def Column.revised (r : Revision) : Column → Column
  | ⟨base, functions, nullTest⟩ => ⟨base.revised r, functions, nullTest⟩

/-- The base with its operands revised. -/
def Base.revised (r : Revision) : Base → Base
  | .named name owner => .named name owner
  | .binary op left right => .binary op (left.revised r) (right.revised r)

/-- The operand revised. -/
def Operand.revised (r : Revision) : Operand → Operand
  | .column c => .column (c.revised r)
  | .literal v => .literal (r.literal v)
  | .query q => .query (q.revised r)

end

variable (r s : Revision)

@[simp] theorem Source.name?_revised (source : Source) :
    (source.revised r).name? = source.name? := by
  cases source <;> simp [Source.revised, name?]

@[simp] theorem Source.setOp?_revised (source : Source) :
    (source.revised r).setOp? = source.setOp? := by
  cases source <;> simp [Source.revised, setOp?]

@[simp] theorem Source.isNamed_revised (source : Source) :
    (source.revised r).isNamed = source.isNamed := by
  simp [isNamed]

@[simp] theorem Source.isCombined_revised (source : Source) :
    (source.revised r).isCombined = source.isCombined := by
  simp [isCombined]

@[simp] theorem Source.needsName_revised (source : Source) (aliasName : Option String) :
    (source.revised r).needsName aliasName = source.needsName aliasName := by
  simp [needsName]

@[simp] theorem Entry.kind_revised (entry : Entry) : (entry.revised r).kind = entry.kind := by
  cases entry <;> simp [Entry.revised, kind]

theorem Entry.revisedLog_eq_map (log : List Entry) :
    revisedLog r log = log.map (Entry.revised r) := by
  induction log with
  | nil => simp [revisedLog]
  | cons entry rest ih => simp [revisedLog, ih]

@[simp] theorem Query.source_revised (q : Query) : (q.revised r).source = q.source.revised r := by
  cases q
  simp [Query.revised]

@[simp] theorem Query.aliasName_revised (q : Query) : (q.revised r).aliasName = q.aliasName := by
  cases q
  simp [Query.revised]

@[simp] theorem Query.limit_revised (q : Query) : (q.revised r).limit = q.limit := by
  cases q
  simp [Query.revised]

@[simp] theorem Query.distinct_revised (q : Query) : (q.revised r).distinct = q.distinct := by
  cases q
  simp [Query.revised]

@[simp] theorem Query.reference_revised (q : Query) : (q.revised r).reference = q.reference := by
  simp [reference]

@[simp] theorem Query.needsName_revised (q : Query) : (q.revised r).needsName = q.needsName := by
  simp [needsName]

/-- The revised log of a query. -/
theorem Query.log_revised (q : Query) :
    (q.revised r).log =
      if q.source.isCombined then q.log.map (Entry.revised r.implicit)
      else r.close (q.log.map (Entry.revised r)) := by
  cases q
  simp [Query.revised, Entry.revisedLog_eq_map]

/-- A log ends as it did or with a projection to all columns, which it then had none of before. -/
theorem Revision.close_eq (log : List Entry) :
    r.close log = log ∨
      r.close log = log ++ [.selectAll] ∧ ∀ entry ∈ log, entry.kind ≠ .select := by
  unfold close Entry.withSelect
  split
  · split
    · exact .inl rfl
    · rename_i h
      refine .inr ⟨rfl, fun entry hentry hkind => h ?_⟩
      exact List.any_eq_true.mpr ⟨entry, hentry, beq_iff_eq.mpr hkind⟩
  · exact .inl rfl

/-- The end of a log adds no entry of a kind other than projections. -/
theorem Revision.any_kind_close {kind : EntryKind} (hkind : kind ≠ .select) (log : List Entry) :
    (r.close log).any (fun entry => entry.kind == kind) =
      log.any fun entry => entry.kind == kind := by
  rcases r.close_eq log with he | ⟨he, _⟩
  · rw [he]
  · have hall : (Entry.selectAll.kind == kind) = false := beq_eq_false_iff_ne.mpr hkind.symm
    simp [he, hall]

/-- Whether a log only projects is not changed by its end. -/
theorem Revision.all_select_close (log : List Entry) :
    (r.close log).all (fun entry => entry.kind == .select) =
      log.all fun entry => entry.kind == .select := by
  rcases r.close_eq log with he | ⟨he, _⟩
  · rw [he]
  · have hall : (Entry.selectAll.kind == .select) = true := rfl
    simp [he, hall]

@[simp] theorem Query.has_revised {kind : EntryKind} (hkind : kind ≠ .select) (q : Query) :
    (q.revised r).has kind = q.has kind := by
  unfold has
  rw [log_revised]
  split
  · simp [List.any_map, Function.comp_def]
  · simp [Revision.any_kind_close r hkind, List.any_map, Function.comp_def]

@[simp] theorem Query.cutsRows_revised (q : Query) : (q.revised r).cutsRows = q.cutsRows := by
  simp [cutsRows]

@[simp] theorem Query.onlyProjects_revised (q : Query) :
    (q.revised r).onlyProjects = q.onlyProjects := by
  unfold onlyProjects
  rw [log_revised, source_revised, Source.isCombined_revised, limit_revised, distinct_revised]
  cases q.source.isCombined with
  | true => simp
  | false => simp [Revision.all_select_close, List.all_map, Function.comp_def]

theorem Entry.revised_selectAll : Entry.selectAll.revised r = .selectAll := by
  simp [selectAll, Entry.revised, Projection.revisedItems, Projection.revised, Operand.revised,
    Column.revised, Base.revised]

theorem Entry.revised_withSelect (log : List Entry) :
    (withSelect log).map (Entry.revised r) = withSelect (log.map (Entry.revised r)) := by
  unfold withSelect
  rw [List.any_map]
  have hkind : ((fun entry : Entry => entry.kind == .select) ∘ Entry.revised r) =
      fun entry : Entry => entry.kind == .select := by
    funext entry
    simp
  rw [hkind]
  split
  · rfl
  · rw [List.map_append, List.map_singleton, revised_selectAll]

/-- A log that has a projection is given none. -/
theorem Entry.withSelect_withSelect (log : List Entry) :
    withSelect (withSelect log) = withSelect log := by
  unfold withSelect
  split
  · rfl
  · have hall : (Entry.selectAll.kind == EntryKind.select) = true := rfl
    simp [hall]

/-- The ends that two revisions put to a log, one after the other. -/
theorem Revision.close_map_close (log : List Entry) :
    s.close ((r.close log).map (Entry.revised s)) =
      (r.next s).close (log.map (Entry.revised s)) := by
  unfold close next
  cases r.explicit <;> cases s.explicit <;>
    simp [Entry.revised_withSelect, Entry.withSelect_withSelect]

mutual

/-- One revision after another is a revision. -/
theorem Query.revised_revised :
    ∀ (q : Query) (r s : Revision), (q.revised r).revised s = q.revised (r.next s)
  | ⟨source, aliasName, log, limit, distinct, reversed, driver⟩, r, s => by
    simp only [Query.revised, Source.isCombined_revised, Source.revised_revised source r s]
    cases source.isCombined with
    | true =>
      simp only [if_true, Entry.revisedLog_revisedLog log r.implicit s.implicit]
      rfl
    | false =>
      simp only [Bool.false_eq_true, if_false]
      rw [Entry.revisedLog_eq_map s, Revision.close_map_close, ← Entry.revisedLog_eq_map,
        Entry.revisedLog_revisedLog log r s]

theorem Source.revised_revised :
    ∀ (source : Source) (r s : Revision),
      (source.revised r).revised s = source.revised (r.next s)
  | .named name, r, s => by simp only [Source.revised]
  | .derived q, r, s => by simp only [Source.revised, Query.revised_revised q r s]
  | .combined op left right, r, s => by
    simp only [Source.revised, Query.revised_revised left r s, Query.revised_revised right r s]

theorem Entry.revised_revised :
    ∀ (entry : Entry) (r s : Revision), (entry.revised r).revised s = entry.revised (r.next s)
  | .select items, r, s => by
    simp only [Entry.revised, Projection.revisedItems_revisedItems items r s]
  | .filter cond, r, s => by simp only [Entry.revised, Column.revised_revised cond r s]
  | .whereExists sub, r, s => by simp only [Entry.revised, Query.revised_revised sub r s]
  | .group c, r, s => by simp only [Entry.revised, Column.revised_revised c r s]
  | .having cond, r, s => by simp only [Entry.revised, Column.revised_revised cond r s]
  | .order c, r, s => by simp only [Entry.revised, Column.revised_revised c r s]
  | .join target, r, s => by simp only [Entry.revised, Query.revised_revised target r s]
  | .joinOn target cond, r, s => by
    simp only [Entry.revised, Query.revised_revised target r s, Column.revised_revised cond r s]

theorem Entry.revisedLog_revisedLog :
    ∀ (log : List Entry) (r s : Revision),
      Entry.revisedLog s (Entry.revisedLog r log) = Entry.revisedLog (r.next s) log
  | [], r, s => by simp only [Entry.revisedLog]
  | entry :: rest, r, s => by
    simp only [Entry.revisedLog, Entry.revised_revised entry r s,
      Entry.revisedLog_revisedLog rest r s]

theorem Projection.revised_revised :
    ∀ (item : Projection) (r s : Revision),
      (item.revised r).revised s = item.revised (r.next s)
  | ⟨expr, aliasName⟩, r, s => by
    simp only [Projection.revised, Operand.revised_revised expr r s]

theorem Projection.revisedItems_revisedItems :
    ∀ (items : List Projection) (r s : Revision),
      Projection.revisedItems s (Projection.revisedItems r items) =
        Projection.revisedItems (r.next s) items
  | [], r, s => by simp only [Projection.revisedItems]
  | item :: rest, r, s => by
    simp only [Projection.revisedItems, Projection.revised_revised item r s,
      Projection.revisedItems_revisedItems rest r s]

theorem Column.revised_revised :
    ∀ (c : Column) (r s : Revision), (c.revised r).revised s = c.revised (r.next s)
  | ⟨base, functions, nullTest⟩, r, s => by
    simp only [Column.revised, Base.revised_revised base r s]

theorem Base.revised_revised :
    ∀ (b : Base) (r s : Revision), (b.revised r).revised s = b.revised (r.next s)
  | .named name owner, r, s => by simp only [Base.revised]
  | .binary op left right, r, s => by
    simp only [Base.revised, Operand.revised_revised left r s, Operand.revised_revised right r s]

theorem Operand.revised_revised :
    ∀ (side : Operand) (r s : Revision), (side.revised r).revised s = side.revised (r.next s)
  | .column c, r, s => by simp only [Operand.revised, Column.revised_revised c r s]
  | .literal v, r, s => rfl
  | .query q, r, s => by simp only [Operand.revised, Query.revised_revised q r s]

end

mutual

/-- A revision that keeps the literals makes projections explicit or does nothing. -/
theorem Query.revised_id :
    ∀ (q : Query) (e : Bool), q.revised ⟨id, e⟩ = bif e then q.projected else q
  | ⟨source, aliasName, log, limit, distinct, reversed, driver⟩, e => by
    have himplicit := Entry.revisedLog_id log false
    simp only [Query.revised, Query.projected, Revision.implicit, Source.revised_id source e,
      Entry.revisedLog_id log e, himplicit]
    cases e <;> simp [Revision.close]

theorem Source.revised_id :
    ∀ (source : Source) (e : Bool),
      source.revised ⟨id, e⟩ = bif e then source.projected else source
  | .named name, e => by cases e <;> simp [Source.revised, Source.projected]
  | .derived q, e => by
    cases e <;> simp [Source.revised, Source.projected, Query.revised_id q]
  | .combined op left right, e => by
    cases e <;>
      simp [Source.revised, Source.projected, Query.revised_id left, Query.revised_id right]

theorem Entry.revised_id :
    ∀ (entry : Entry) (e : Bool), entry.revised ⟨id, e⟩ = bif e then entry.projected else entry
  | .select items, e => by
    cases e <;> simp [Entry.revised, Entry.projected, Projection.revisedItems_id items]
  | .filter cond, e => by
    cases e <;> simp [Entry.revised, Entry.projected, Column.revised_id cond]
  | .whereExists sub, e => by
    cases e <;> simp [Entry.revised, Entry.projected, Query.revised_id sub]
  | .group c, e => by cases e <;> simp [Entry.revised, Entry.projected, Column.revised_id c]
  | .having cond, e => by
    cases e <;> simp [Entry.revised, Entry.projected, Column.revised_id cond]
  | .order c, e => by cases e <;> simp [Entry.revised, Entry.projected, Column.revised_id c]
  | .join target, e => by
    cases e <;> simp [Entry.revised, Entry.projected, Query.revised_id target]
  | .joinOn target cond, e => by
    cases e <;>
      simp [Entry.revised, Entry.projected, Query.revised_id target, Column.revised_id cond]

theorem Entry.revisedLog_id :
    ∀ (log : List Entry) (e : Bool),
      Entry.revisedLog ⟨id, e⟩ log = bif e then Entry.projectedLog log else log
  | [], e => by cases e <;> simp [Entry.revisedLog, Entry.projectedLog]
  | entry :: rest, e => by
    cases e <;>
      simp [Entry.revisedLog, Entry.projectedLog, Entry.revised_id entry,
        Entry.revisedLog_id rest]

theorem Projection.revised_id :
    ∀ (item : Projection) (e : Bool), item.revised ⟨id, e⟩ = bif e then item.projected else item
  | ⟨expr, aliasName⟩, e => by
    cases e <;> simp [Projection.revised, Projection.projected, Operand.revised_id expr]

theorem Projection.revisedItems_id :
    ∀ (items : List Projection) (e : Bool),
      Projection.revisedItems ⟨id, e⟩ items =
        bif e then Projection.projectedItems items else items
  | [], e => by cases e <;> simp [Projection.revisedItems, Projection.projectedItems]
  | item :: rest, e => by
    cases e <;>
      simp [Projection.revisedItems, Projection.projectedItems, Projection.revised_id item,
        Projection.revisedItems_id rest]

theorem Column.revised_id :
    ∀ (c : Column) (e : Bool), c.revised ⟨id, e⟩ = bif e then c.projected else c
  | ⟨base, functions, nullTest⟩, e => by
    cases e <;> simp [Column.revised, Column.projected, Base.revised_id base]

theorem Base.revised_id :
    ∀ (b : Base) (e : Bool), b.revised ⟨id, e⟩ = bif e then b.projected else b
  | .named name owner, e => by cases e <;> simp [Base.revised, Base.projected]
  | .binary op left right, e => by
    cases e <;>
      simp [Base.revised, Base.projected, Operand.revised_id left, Operand.revised_id right]

theorem Operand.revised_id :
    ∀ (side : Operand) (e : Bool), side.revised ⟨id, e⟩ = bif e then side.projected else side
  | .column c, e => by cases e <;> simp [Operand.revised, Operand.projected, Column.revised_id c]
  | .literal v, e => by cases e <;> simp [Operand.revised, Operand.projected]
  | .query q, e => by cases e <;> simp [Operand.revised, Operand.projected, Query.revised_id q]

end

/-- Making projections explicit is a revision. -/
theorem Query.projected_eq_revised (q : Query) : q.projected = q.revised .projecting :=
  (q.revised_id true).symm

theorem Entry.projected_eq_revised (entry : Entry) :
    entry.projected = entry.revised .projecting :=
  (entry.revised_id true).symm

theorem Column.projected_eq_revised (c : Column) : c.projected = c.revised .projecting :=
  (c.revised_id true).symm

/-- Making projections explicit once more changes nothing. -/
theorem Query.projected_projected (q : Query) : q.projected.projected = q.projected := by
  rw [projected_eq_revised q.projected, projected_eq_revised q, revised_revised]
  rfl

/-- Explicit projections may be made before or after a revision. -/
theorem Query.projected_revised (q : Query) :
    (q.revised r).projected = q.projected.revised r := by
  have hnext : r.next .projecting = Revision.projecting.next r := by
    simp [Revision.next, Revision.projecting]
  rw [projected_eq_revised, projected_eq_revised, revised_revised, revised_revised, hnext]

end SqlTree
