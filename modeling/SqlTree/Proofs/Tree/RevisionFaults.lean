import SqlTree.Proofs.Tree.Revision
import SqlTree.Query.Check

/-!
# Names and faults of revised trees

Neither the literals of a tree nor explicit projections take a name for a derived table or keep a
statement from being written. Main statements: a revised query takes as many names as before, and it
has the same fault.
-/

namespace SqlTree

variable (r : Revision)

theorem Entry.nameCounts_append (a b : List Entry) :
    nameCounts (a ++ b) = nameCounts a + nameCounts b := by
  induction a with
  | nil => simp [nameCounts]
  | cons entry rest ih => simp [nameCounts, ih, Nat.add_assoc]

/-- A log is looked at from its first entry to its last one. -/
theorem Entry.checks_append (a b : List Entry) :
    checks (a ++ b) = (checks a).bind fun _ => checks b := by
  induction a with
  | nil => simp [checks, Except.bind]
  | cons entry rest ih =>
    simp only [List.cons_append, checks, ih]
    cases entry.check <;> rfl

/-- The end of a log takes no name. -/
theorem Entry.nameCounts_close (log : List Entry) :
    nameCounts (r.close log) = nameCounts log := by
  rcases r.close_eq log with he | ⟨he, _⟩
  · rw [he]
  · rw [he, nameCounts_append]
    rfl

/-- The end of a log has no fault. -/
theorem Entry.checks_close (log : List Entry) : checks (r.close log) = checks log := by
  rcases r.close_eq log with he | ⟨he, _⟩
  · rw [he]
  · rw [he, checks_append]
    cases checks log <;> rfl

/-- Whether a query filters groups without having them is not changed by a revision. -/
theorem Query.checkGroups_revised (q : Query) : (q.revised r).checkGroups = q.checkGroups := by
  unfold checkGroups
  rw [has_revised r (by decide), has_revised r (by decide), reference_revised]

mutual

/-- A revised query takes as many names as before. -/
theorem Query.nameCount_revised :
    ∀ (q : Query) (r : Revision), (q.revised r).nameCount = q.nameCount
  | ⟨source, aliasName, log, limit, distinct, reversed, driver⟩, r => by
    simp only [Query.revised, Query.nameCount, Source.needsName_revised,
      Source.nameCount_revised source r]
    cases source.isCombined with
    | true => simp only [if_true, Entry.nameCounts_revisedLog log r.implicit]
    | false =>
      simp only [Bool.false_eq_true, if_false, Entry.nameCounts_close,
        Entry.nameCounts_revisedLog log r]

theorem Query.sourceNameCount_revised :
    ∀ (q : Query) (r : Revision), (q.revised r).sourceNameCount = q.sourceNameCount
  | ⟨source, aliasName, log, limit, distinct, reversed, driver⟩, r => by
    simp only [Query.revised, Query.sourceNameCount, Source.needsName_revised,
      Source.nameCount_revised source r]

theorem Source.nameCount_revised :
    ∀ (source : Source) (r : Revision), (source.revised r).nameCount = source.nameCount
  | .named name, r => by simp only [Source.revised]
  | .derived q, r => by simp only [Source.revised, Source.nameCount, Query.nameCount_revised q r]
  | .combined op left right, r => by
    simp only [Source.revised, Source.nameCount, Query.cutsRows_revised,
      Query.nameCount_revised left r, Query.nameCount_revised right r]

theorem Entry.nameCount_revised :
    ∀ (entry : Entry) (r : Revision), (entry.revised r).nameCount = entry.nameCount
  | .select items, r => by
    simp only [Entry.revised, Entry.nameCount, Projection.nameCounts_revisedItems items r]
  | .filter cond, r => by
    simp only [Entry.revised, Entry.nameCount, Column.nameCount_revised cond r]
  | .whereExists sub, r => by
    simp only [Entry.revised, Entry.nameCount, Query.nameCount_revised sub r]
  | .group c, r => by simp only [Entry.revised, Entry.nameCount, Column.nameCount_revised c r]
  | .having cond, r => by
    simp only [Entry.revised, Entry.nameCount, Column.nameCount_revised cond r]
  | .order c, r => by simp only [Entry.revised, Entry.nameCount, Column.nameCount_revised c r]
  | .join target, r => by
    simp only [Entry.revised, Entry.nameCount, Query.onlyProjects_revised,
      Query.needsName_revised, Query.sourceNameCount_revised target r,
      Query.nameCount_revised target r]
  | .joinOn target cond, r => by
    simp only [Entry.revised, Entry.nameCount, Query.onlyProjects_revised,
      Query.needsName_revised, Query.sourceNameCount_revised target r,
      Query.nameCount_revised target r, Column.nameCount_revised cond r]

theorem Entry.nameCounts_revisedLog :
    ∀ (log : List Entry) (r : Revision),
      Entry.nameCounts (Entry.revisedLog r log) = Entry.nameCounts log
  | [], r => by simp only [Entry.revisedLog]
  | entry :: rest, r => by
    simp only [Entry.revisedLog, Entry.nameCounts, Entry.nameCount_revised entry r,
      Entry.nameCounts_revisedLog rest r]

theorem Projection.nameCount_revised :
    ∀ (item : Projection) (r : Revision), (item.revised r).nameCount = item.nameCount
  | ⟨expr, aliasName⟩, r => by
    simp only [Projection.revised, Projection.nameCount, Operand.nameCount_revised expr r]

theorem Projection.nameCounts_revisedItems :
    ∀ (items : List Projection) (r : Revision),
      Projection.nameCounts (Projection.revisedItems r items) = Projection.nameCounts items
  | [], r => by simp only [Projection.revisedItems]
  | item :: rest, r => by
    simp only [Projection.revisedItems, Projection.nameCounts,
      Projection.nameCount_revised item r, Projection.nameCounts_revisedItems rest r]

theorem Column.nameCount_revised :
    ∀ (c : Column) (r : Revision), (c.revised r).nameCount = c.nameCount
  | ⟨base, functions, nullTest⟩, r => by
    simp only [Column.revised, Column.nameCount, Base.nameCount_revised base r]

theorem Base.nameCount_revised :
    ∀ (b : Base) (r : Revision), (b.revised r).nameCount = b.nameCount
  | .named name owner, r => by simp only [Base.revised]
  | .binary op left right, r => by
    simp only [Base.revised, Base.nameCount, Operand.nameCount_revised left r,
      Operand.nameCount_revised right r]

theorem Operand.nameCount_revised :
    ∀ (side : Operand) (r : Revision), (side.revised r).nameCount = side.nameCount
  | .column c, r => by simp only [Operand.revised, Operand.nameCount, Column.nameCount_revised c r]
  | .literal v, r => by simp only [Operand.revised, Operand.nameCount]
  | .query q, r => by simp only [Operand.revised, Operand.nameCount, Query.nameCount_revised q r]

end

mutual

/-- A revised query has the fault that it had before, or none. -/
theorem Query.check_revised : ∀ (q : Query) (r : Revision), (q.revised r).check = q.check
  | ⟨source, aliasName, log, limit, distinct, reversed, driver⟩, r => by
    have hgroups := Query.checkGroups_revised r
      ⟨source, aliasName, log, limit, distinct, reversed, driver⟩
    simp only [Query.revised] at hgroups
    simp only [Query.revised, Query.check, Source.setOp?_revised, Source.check_revised source r,
      hgroups]
    cases hop : source.setOp? with
    | some op =>
      have hcombined : source.isCombined = true := by simp [Source.isCombined, hop]
      simp only [hcombined, if_true, Entry.checkOrders_revisedLog op log r.implicit]
    | none =>
      have hcombined : source.isCombined = false := by simp [Source.isCombined, hop]
      simp only [hcombined, Bool.false_eq_true, if_false, Entry.checks_close,
        Entry.checks_revisedLog log r]

theorem Query.checkSource_revised :
    ∀ (q : Query) (r : Revision), (q.revised r).checkSource = q.checkSource
  | ⟨source, aliasName, log, limit, distinct, reversed, driver⟩, r => by
    simp only [Query.revised, Query.checkSource, Source.check_revised source r]

theorem Source.check_revised :
    ∀ (source : Source) (r : Revision), (source.revised r).check = source.check
  | .named name, r => by simp only [Source.revised]
  | .derived q, r => by simp only [Source.revised, Source.check, Query.check_revised q r]
  | .combined op left right, r => by
    simp only [Source.revised, Source.check, Query.check_revised left r,
      Query.check_revised right r]

theorem Entry.check_revised :
    ∀ (entry : Entry) (r : Revision), (entry.revised r).check = entry.check
  | .select items, r => by
    simp only [Entry.revised, Entry.check, Projection.checks_revisedItems items r]
  | .filter cond, r => by simp only [Entry.revised, Entry.check, Column.check_revised cond r]
  | .whereExists sub, r => by simp only [Entry.revised, Entry.check, Query.check_revised sub r]
  | .group c, r => by simp only [Entry.revised, Entry.check, Column.check_revised c r]
  | .having cond, r => by simp only [Entry.revised, Entry.check, Column.check_revised cond r]
  | .order c, r => by simp only [Entry.revised, Entry.check, Column.check_revised c r]
  | .join target, r => by
    simp only [Entry.revised, Entry.check, Query.onlyProjects_revised,
      Query.checkSource_revised target r, Query.check_revised target r]
  | .joinOn target cond, r => by
    simp only [Entry.revised, Entry.check, Query.onlyProjects_revised,
      Query.checkSource_revised target r, Query.check_revised target r,
      Column.check_revised cond r]

theorem Entry.checks_revisedLog :
    ∀ (log : List Entry) (r : Revision), Entry.checks (Entry.revisedLog r log) = Entry.checks log
  | [], r => by simp only [Entry.revisedLog]
  | entry :: rest, r => by
    simp only [Entry.revisedLog, Entry.checks, Entry.check_revised entry r,
      Entry.checks_revisedLog rest r]

theorem Entry.checkOrders_revisedLog (op : SetOp) :
    ∀ (log : List Entry) (r : Revision),
      Entry.checkOrders op (Entry.revisedLog r log) = Entry.checkOrders op log
  | [], r => by simp only [Entry.revisedLog]
  | entry :: rest, r => by
    simp only [Entry.revisedLog, Entry.checkOrders, Entry.kind_revised,
      Entry.check_revised entry r, Entry.checkOrders_revisedLog op rest r]

theorem Projection.check_revised :
    ∀ (item : Projection) (r : Revision), (item.revised r).check = item.check
  | ⟨expr, aliasName⟩, r => by
    simp only [Projection.revised, Projection.check, Operand.check_revised expr r]

theorem Projection.checks_revisedItems :
    ∀ (items : List Projection) (r : Revision),
      Projection.checks (Projection.revisedItems r items) = Projection.checks items
  | [], r => by simp only [Projection.revisedItems]
  | item :: rest, r => by
    simp only [Projection.revisedItems, Projection.checks, Projection.check_revised item r,
      Projection.checks_revisedItems rest r]

theorem Column.check_revised : ∀ (c : Column) (r : Revision), (c.revised r).check = c.check
  | ⟨base, functions, nullTest⟩, r => by
    simp only [Column.revised, Column.check, Base.check_revised base r]

theorem Base.check_revised : ∀ (b : Base) (r : Revision), (b.revised r).check = b.check
  | .named name owner, r => by simp only [Base.revised]
  | .binary op left right, r => by
    simp only [Base.revised, Base.check, Operand.check_revised left r,
      Operand.check_revised right r]

theorem Operand.check_revised :
    ∀ (side : Operand) (r : Revision), (side.revised r).check = side.check
  | .column c, r => by simp only [Operand.revised, Operand.check, Column.check_revised c r]
  | .literal v, r => by simp only [Operand.revised, Operand.check]
  | .query q, r => by simp only [Operand.revised, Operand.check, Query.check_revised q r]

end

end SqlTree
