import SqlTree.Proofs.Clauses.Interleaving
import SqlTree.Proofs.Faults.Traversal
import SqlTree.Proofs.Writing.Projection

/-!
# Which queries cannot be compiled

A query is ill-formed on its own if it filters groups and has none, or if it is a set operation with
an entry other than an ordering. Two kinds of parts are never written: the projections of a join
target that does nothing but project, and those of the subquery that becomes a membership test.
Main statements: compilation fails exactly if a query that is written is ill-formed, an error that
it reports is the fault of a query that is written, and an ill-formed query among the projections of
a join target goes unnoticed.
-/

namespace SqlTree

namespace Query

/-- Groups are filtered although there are none, or a set operation has an entry other than an
ordering. -/
def IllFormed (q : Query) : Prop :=
  q.source.isCombined = false ∧ q.has .having = true ∧ q.has .group = false ∨
    q.source.isCombined = true ∧ ∃ entry ∈ q.log, entry.kind ≠ .order

/-- The fault of a query on its own, whatever the queries below it are like. -/
def ownFault? (q : Query) : Option Error :=
  match q.source.setOp? with
  | some op => (q.log.find? fun entry => entry.kind != .order).map fun entry =>
      .entryOnCombination entry.kind op
  | none =>
    if q.has .having && !q.has .group then some (.havingWithoutGroup q.reference.text) else none

/-- The query without its projections. -/
def withoutSelects (q : Query) : Query :=
  { q with log := q.log.filter fun entry => entry.kind != .select }

/-- The query with what its conversion leaves of the subquery that is converted. -/
def trimmed (q : Query) : Query :=
  if q.source.isCombined then q
  else match takeFirst? (Entry.converted? q.reference) q.log with
    | some (sub, others) => { q with log := others ++ [.whereExists sub.withoutSelects] }
    | none => q

/-- A query is ill-formed exactly if it has a fault of its own. -/
theorem ownFault?_isSome_iff {q : Query} : q.ownFault?.isSome = true ↔ q.IllFormed := by
  unfold ownFault? IllFormed Source.isCombined
  cases q.source.setOp? with
  | none => simp
  | some op => simp

theorem ownFault?_eq_none_iff {q : Query} : q.ownFault? = none ↔ ¬ q.IllFormed := by
  rw [← ownFault?_isSome_iff, Option.not_isSome_iff_eq_none]

end Query

section Sequence

variable {first second : Except Error Unit} {e : Error}

theorem sequence_eq_ok_iff : (do first; second) = .ok () ↔ first = .ok () ∧ second = .ok () := by
  cases first <;> simp [bind, Except.bind]

theorem eq_error_of_sequence (h : (do first; second) = .error e) :
    first = .error e ∨ second = .error e := by
  cases first with
  | error fault => exact Or.inl h
  | ok => exact Or.inr h

end Sequence

/-- The log of a set operation fails at one of its orderings or at its first other entry. -/
theorem Entry.fault_of_checkOrders_eq_error {op : SetOp} {e : Error} {log : List Entry}
    (h : checkOrders op log = .error e) :
    ((log.find? fun entry => entry.kind != .order).map fun entry =>
        Error.entryOnCombination entry.kind op) = some e ∨
      ∃ entry ∈ log, entry.check = .error e := by
  induction log with
  | nil => cases h
  | cons entry rest ih =>
    rw [checkOrders] at h
    by_cases hkind : entry.kind = .order
    · rw [if_pos (beq_iff_eq.mpr hkind)] at h
      rcases eq_error_of_sequence h with hentry | hrest
      · exact Or.inr ⟨entry, List.mem_cons_self, hentry⟩
      · rcases ih hrest with hfind | ⟨found, hfound, hfault⟩
        · exact Or.inl (by simpa [hkind] using hfind)
        · exact Or.inr ⟨found, List.mem_cons_of_mem entry hfound, hfault⟩
    · rw [if_neg (by simpa using hkind), Except.error.injEq] at h
      exact Or.inl (by simp [hkind, h])

namespace Query

variable {q : Query} {e : Error}

/-- A query can be written exactly if it has no fault of its own and all queries that are written
right below it can be. -/
theorem check_eq_ok_iff :
    q.check = .ok () ↔ q.ownFault? = none ∧ ∀ sub ∈ q.writtenQueries, sub.check = .ok () := by
  obtain ⟨source, aliasName, log, limit, distinct, reversed, driver⟩ := q
  cases hop : source.setOp? with
  | some op =>
    simp only [check, hop, sequence_eq_ok_iff, Entry.checkOrders_eq_ok_iff, Source.check_eq,
      Entry.check_eq, checkAll, forM_eq_ok_iff, ownFault?, writtenQueries, List.forall_mem_append,
      List.forall_mem_flatMap, Option.map_eq_none_iff, List.find?_eq_none, bne_iff_ne, ne_eq,
      not_not, forall_and]
    rw [and_assoc]
    exact and_congr_right fun _ => and_comm
  | none =>
    simp only [check, hop, sequence_eq_ok_iff, Entry.checks_eq, Source.check_eq, checkAll,
      forM_eq_ok_iff, ownFault?, writtenQueries, List.forall_mem_append]
    refine and_congr_left fun _ => ?_
    unfold checkGroups
    split <;> simp

/-- An error of the check is the fault of the query itself or of one written right below it. -/
theorem fault_of_check_eq_error (h : q.check = .error e) :
    q.ownFault? = some e ∨ ∃ sub ∈ q.writtenQueries, sub.check = .error e := by
  have hbelow {queries : List Query} (hqueries : ∀ sub ∈ queries, sub ∈ q.writtenQueries)
      (h : checkAll queries = .error e) : ∃ sub ∈ q.writtenQueries, sub.check = .error e := by
    obtain ⟨sub, hsub, hfault⟩ := exists_of_forM_eq_error h
    exact ⟨sub, hqueries sub hsub, hfault⟩
  have hsource : ∀ sub ∈ q.source.queries, sub ∈ q.writtenQueries :=
    fun sub hsub => List.mem_append_left _ hsub
  have hentry : ∀ entry ∈ q.log, ∀ sub ∈ entry.writtenQueries, sub ∈ q.writtenQueries :=
    fun entry hmem sub hsub => List.mem_append_right _ (List.mem_flatMap.mpr ⟨entry, hmem, hsub⟩)
  obtain ⟨source, aliasName, log, limit, distinct, reversed, driver⟩ := q
  cases hop : source.setOp? with
  | some op =>
    simp only [check, hop] at h
    rcases eq_error_of_sequence h with horders | h
    · rcases Entry.fault_of_checkOrders_eq_error horders with hown | ⟨entry, hmem, hfault⟩
      · exact Or.inl (by simpa only [ownFault?, hop] using hown)
      · exact Or.inr (hbelow (hentry entry hmem) (Entry.check_eq entry ▸ hfault))
    · exact Or.inr (hbelow hsource (Source.check_eq source ▸ h))
  | none =>
    simp only [check, hop] at h
    rcases eq_error_of_sequence h with hgroups | h
    · refine Or.inl ?_
      unfold checkGroups at hgroups
      split at hgroups
      · rename_i hfilters
        simp only [ownFault?, hop, hfilters, if_true]
        exact congrArg some (Except.error.inj hgroups)
      · cases hgroups
    · rcases eq_error_of_sequence h with h | h
      · exact Or.inr (hbelow hsource (Source.check_eq source ▸ h))
      · rw [Entry.checks_eq] at h
        refine Or.inr (hbelow (fun sub hsub => ?_) h)
        obtain ⟨entry, hmem, hwritten⟩ := List.mem_flatMap.mp hsub
        exact hentry entry hmem sub hwritten

/-- A query can be written exactly if no query that is written is ill-formed. -/
theorem check_eq_ok_iff_writes : q.check = .ok () ↔ ∀ sub, q.Writes sub → ¬ sub.IllFormed := by
  constructor
  · intro h sub hwrites
    have hsub : sub.check = .ok () := by
      induction hwrites with
      | refl => exact h
      | tail _ hpart ih => exact (check_eq_ok_iff.mp ih).2 _ hpart
    exact ownFault?_eq_none_iff.mp (check_eq_ok_iff.mp hsub).1
  · induction q using inductionOnWritten with
    | step q ih =>
      intro h
      refine check_eq_ok_iff.mpr ⟨ownFault?_eq_none_iff.mpr (h q .refl), fun sub hsub => ?_⟩
      exact ih sub hsub fun part hpart => h part (.head hsub hpart)

/-- An error of the check is the fault of a query that is written. -/
theorem exists_writes_of_check_eq_error (h : q.check = .error e) :
    ∃ sub, q.Writes sub ∧ sub.ownFault? = some e := by
  induction q using inductionOnWritten with
  | step q ih =>
    rcases fault_of_check_eq_error h with hown | ⟨sub, hsub, hfault⟩
    · exact ⟨q, .refl, hown⟩
    · obtain ⟨part, hpart, hown⟩ := ih sub hsub hfault
      exact ⟨part, .head hsub hpart, hown⟩

/-- What becomes of a query that is converted and of what is looked at in its place. -/
theorem trimmed_of_membership? {q' : Query} (h : q.membership? = some q') :
    q.source.isCombined = false ∧ ∃ others sub cond,
      (Entry.whereExists sub).membership? q.reference = some cond ∧
      q' = { q with log := others ++ [.filter cond] } ∧
      q.trimmed = { q with log := others ++ [.whereExists sub.withoutSelects] } := by
  simp only [membership?, Entry.takeFirst?_membership?, Option.ite_none_left_eq_some,
    Bool.not_eq_true, Option.bind_eq_bind, Option.bind_eq_some_iff, Option.map_eq_some_iff,
    Option.pure_def, Option.some.injEq, Prod.exists, Prod.mk.injEq] at h
  obtain ⟨hsource, _, _, ⟨sub, others, hfound, cond, hcond, rfl, rfl⟩, rfl⟩ := h
  refine ⟨hsource, others, sub, cond, hcond, rfl, ?_⟩
  simp only [trimmed, hsource, hfound, Bool.false_eq_true, if_false]

/-- A query that is not converted is looked at as it is. -/
theorem trimmed_of_membership?_eq_none (h : q.membership? = none) : q.trimmed = q := by
  unfold trimmed
  cases hsource : q.source.isCombined with
  | true => rfl
  | false =>
    cases hfound : takeFirst? (Entry.converted? q.reference) q.log with
    | none => rfl
    | some found =>
      -- a subquery that is found can be converted
      obtain ⟨before, entry, after, _, _, hentry, _⟩ := takeFirst?_eq_some_iff.mp hfound
      have hsome := Entry.isSome_membership?_of_converted? hentry
      obtain ⟨cond, hcond⟩ := Option.isSome_iff_exists.mp hsome
      simp [membership?, Entry.takeFirst?_membership?, hsource, hfound, hcond] at h

/-- Queries over one source are ill-formed together if their logs agree on grouping and on filtering
groups, and on whether they hold more than orderings. -/
theorem illFormed_congr {log log' : List Entry}
    (hkinds : ∀ kind ∈ [EntryKind.having, .group],
      ((∃ entry ∈ log, entry.kind = kind) ↔ ∃ entry ∈ log', entry.kind = kind))
    (hcombined : q.source.isCombined = true →
      ((∃ entry ∈ log, entry.kind ≠ .order) ↔ ∃ entry ∈ log', entry.kind ≠ .order)) :
    IllFormed { q with log } ↔ IllFormed { q with log := log' } := by
  have hhas (kind : EntryKind) (hkind : kind ∈ [EntryKind.having, .group]) :
      has { q with log } kind = has { q with log := log' } kind := by
    rw [Bool.eq_iff_iff]
    simpa only [has, List.any_eq_true, beq_iff_eq] using hkinds kind hkind
  unfold IllFormed
  rw [hhas .having (by decide), hhas .group (by decide)]
  exact or_congr Iff.rfl (and_congr_right hcombined)

/-- A subquery can be written in the form it has in a membership test exactly if it can be without
its projections. -/
theorem check_yielding_eq_ok_iff {outer : Reference} {sub : Query} {cond : Column}
    {before after : List Entry} {entry : Entry} {outerColumn innerColumn : Column}
    (h : Entry.Replaced outer sub cond before after entry outerColumn innerColumn) :
    (sub.yielding (before ++ after) innerColumn).check = .ok () ↔
      sub.withoutSelects.check = .ok () := by
  obtain ⟨innerName, _, hinner⟩ := h.correlates.innerColumn_drawnFrom
  obtain ⟨outerName, _, houter⟩ := h.correlates.outerColumn_drawnFrom
  have hkind : entry.kind = .filter := h.correlates.kind_eq
  -- neither the correlating filter nor the column that is yielded has a query below it
  have hwritten : (Entry.writtenQueries entry) = [] := by
    rcases h.correlates.eq_filter with rfl | rfl <;> subst hinner houter <;> rfl
  have hyield : (Entry.select [⟨.column innerColumn, none⟩]).writtenQueries = [] := by
    subst hinner
    rfl
  have hsame : (sub.yielding (before ++ after) innerColumn).writtenQueries =
      sub.withoutSelects.writtenQueries := by
    simp [writtenQueries, yielding, withoutSelects, h.log_eq, hkind, hwritten, hyield]
  have hfault : (sub.yielding (before ++ after) innerColumn).IllFormed ↔
      sub.withoutSelects.IllFormed := by
    have hselect : (Entry.select [⟨.column innerColumn, none⟩]).kind = .select := rfl
    refine illFormed_congr ?_ fun _ => iff_of_true ?_ ?_
    · simp [h.log_eq, hkind, hselect, or_and_right, exists_or]
    · exact ⟨_, List.mem_append_right _ List.mem_cons_self, by simp [hselect]⟩
    · exact ⟨entry, by simp [h.log_eq, hkind], by simp [hkind]⟩
  rw [check_eq_ok_iff, check_eq_ok_iff, hsame, ownFault?_eq_none_iff, ownFault?_eq_none_iff, hfault]

/-- A query can be written in the form in which it is compiled exactly if what is looked at can. -/
theorem check_getD_membership?_eq_ok_iff :
    (q.membership?.getD q).check = .ok () ↔ q.trimmed.check = .ok () := by
  cases hmembership : q.membership? with
  | none => rw [trimmed_of_membership?_eq_none hmembership, Option.getD_none]
  | some q' =>
    obtain ⟨hsource, others, sub, cond, hcond, rfl, htrimmed⟩ := trimmed_of_membership? hmembership
    obtain ⟨_, before, after, entry, outerColumn, innerColumn, hreplaced⟩ :=
      Entry.replaced_of_membership? hcond
    obtain ⟨name, _, houter⟩ := hreplaced.correlates.outerColumn_drawnFrom
    have hfilter : (Entry.filter cond).writtenQueries =
        [sub.yielding (before ++ after) innerColumn] := by
      rw [hreplaced.cond_eq, houter]
      rfl
    have hexists : (Entry.whereExists sub.withoutSelects).writtenQueries = [sub.withoutSelects] :=
      rfl
    have hfault : IllFormed { q with log := others ++ [.filter cond] } ↔
        IllFormed { q with log := others ++ [.whereExists sub.withoutSelects] } := by
      refine illFormed_congr ?_ fun hcombined => ?_
      · simp [Entry.kind]
      · rw [hsource] at hcombined
        cases hcombined
    rw [Option.getD_some, htrimmed, check_eq_ok_iff, check_eq_ok_iff, ownFault?_eq_none_iff,
      ownFault?_eq_none_iff, hfault]
    simp only [writtenQueries, List.flatMap_append, List.flatMap_singleton, hfilter, hexists,
      List.forall_mem_append, List.forall_mem_singleton, check_yielding_eq_ok_iff hreplaced]

/-- Compilation fails exactly if a query is ill-formed that is written below what is looked at: the
query with the projections of the subquery that is converted left out. -/
theorem exists_compile_eq_error_iff (q : Query) :
    (∃ e, q.compile = .error e) ↔ ∃ sub, q.trimmed.Writes sub ∧ sub.IllFormed := by
  have hcompile : q.compile = (q.membership?.getD q).write := write_membership?_projected q
  have hfails {r : Query} : (∃ e, r.check = .error e) ↔ ¬ r.check = .ok () := by
    cases r.check <;> simp
  simp only [hcompile, write_eq_error_iff, hfails, check_getD_membership?_eq_ok_iff]
  simp only [check_eq_ok_iff_writes, not_forall, not_not, exists_prop]

/-- An error of a compilation is the fault of a query that is written. -/
theorem exists_writes_of_compile_eq_error (h : q.compile = .error e) :
    ∃ sub, (q.membership?.getD q).Writes sub ∧ sub.ownFault? = some e := by
  have hcompile : q.compile = (q.membership?.getD q).write := write_membership?_projected q
  rw [hcompile, write_eq_error_iff] at h
  exact exists_writes_of_check_eq_error h

/-- The table `b` with a condition on groups and no groups. -/
def ungroupedHaving : Query :=
  (ofTable "b").having (((ofTable "b").column "n").combine .gt (.literal (.int 1)))

/-- A comparison of a column of `t2` with its rows. -/
def comparedWithUngroupedHaving : Column :=
  ((ofTable "t2").column "x").combine .isIn (.query ungroupedHaving)

/-- The table `t1` joined with a projection of `t2` to that comparison. -/
def joinsUngroupedHaving : Query :=
  (ofTable "t1").join ((ofTable "t2").selectColumns [comparedWithUngroupedHaving])

/-- The rows of `t1` that have a selected match in `t2`, which projects to that comparison. -/
def convertsUngroupedHaving : Query :=
  let t2 := ofTable "t2"
  (ofTable "t1").whereExists { t2 with
    log := [.select [⟨.column comparedWithUngroupedHaving, none⟩],
      .filter ((t2.column "a").combine .eq (.literal (.int 5))),
      .filter ((t2.column "id").combine .eq (.column ((ofTable "t1").column "id")))] }

/-- An ill-formed query among the projections of a join target, or of a subquery that is converted,
is not written, and so the statement around it is compiled. -/
theorem not_forall_exists_compile_eq_error_iff :
    ungroupedHaving.IllFormed ∧
    (joinsUngroupedHaving.Reaches ungroupedHaving ∧
      joinsUngroupedHaving.compile = .ok "SELECT * FROM t1 INNER JOIN t2;") ∧
    (convertsUngroupedHaving.Reaches ungroupedHaving ∧
      convertsUngroupedHaving.compile =
        .ok "SELECT * FROM t1 WHERE (t1.id IN (SELECT t2.id FROM t2 WHERE (t2.a = 5)));") ∧
    ¬ ∀ q : Query, (∃ e, q.compile = .error e) ↔ ∃ sub, q.Reaches sub ∧ sub.IllFormed := by
  have hreaches : joinsUngroupedHaving.Reaches ungroupedHaving :=
    .tail (.single List.mem_cons_self) List.mem_cons_self
  have hconverts : convertsUngroupedHaving.Reaches ungroupedHaving :=
    .tail (.single List.mem_cons_self) List.mem_cons_self
  have hill : ungroupedHaving.IllFormed := Or.inl ⟨rfl, rfl, rfl⟩
  have hcompile : joinsUngroupedHaving.compile = .ok "SELECT * FROM t1 INNER JOIN t2;" := by
    decide +kernel
  refine ⟨hill, ⟨hreaches, hcompile⟩, ⟨hconverts, by decide +kernel⟩, fun hall => ?_⟩
  obtain ⟨e, he⟩ := (hall joinsUngroupedHaving).mpr ⟨ungroupedHaving, hreaches, hill⟩
  rw [hcompile] at he
  cases he

end Query

end SqlTree
