import SqlTree.Proofs.Membership.Qualifying
import SqlTree.Query.Remembered
import Mathlib.Data.List.Forall2
import Mathlib.Logic.Function.Iterate

/-!
# Conversions one after another

A conversion takes one existence test out of the log and puts a filter at its end. The filter is no
existence test, and the reference of the query stays, so what qualified before still does. Main
statement: a query is converted exactly if one of its existence tests qualifies, and repeated
conversions take the qualifying tests in the order of the log until none is left.
-/

namespace SqlTree

section TakeFirst

variable {α β : Type} {f : α → Option β}

/-- The element taken is the first one accepted, and the others are what is left without it. -/
theorem takeFirst?_eq_map_head? (f : α → Option β) (l : List α) :
    takeFirst? f l =
      (l.filterMap f).head?.map fun b => (b, l.eraseP fun a => (f a).isSome) := by
  induction l with
  | nil => rfl
  | cons a rest ih =>
    cases ha : f a with
    | some b => simp [takeFirst?, ha]
    | none => simp [takeFirst?, ha, ih, Function.comp_def]

/-- Without the first element accepted, the others are accepted as before. -/
theorem filterMap_eraseP (f : α → Option β) (l : List α) :
    (l.eraseP fun a => (f a).isSome).filterMap f = (l.filterMap f).tail := by
  induction l with
  | nil => rfl
  | cons a rest ih =>
    cases ha : f a with
    | some b => simp [ha]
    | none => simp [ha, ih]

/-- Taking no element changes nothing. -/
theorem eraseP_of_filterMap_eq_nil {l : List α} (h : l.filterMap f = []) :
    (l.eraseP fun a => (f a).isSome) = l := by
  rw [List.filterMap_eq_nil_iff] at h
  refine List.eraseP_of_forall_not fun a ha => ?_
  simp [h a ha]

/-- An element is taken before those that follow at the end. -/
theorem eraseP_append_of_filterMap_ne_nil {l : List α} (h : l.filterMap f ≠ []) (last : List α) :
    ((l ++ last).eraseP fun a => (f a).isSome) = (l.eraseP fun a => (f a).isSome) ++ last := by
  obtain ⟨b, hb⟩ := List.exists_mem_of_ne_nil _ h
  obtain ⟨a, ha, hab⟩ := List.mem_filterMap.mp hb
  exact List.eraseP_append_left (by simp [hab]) last ha

end TakeFirst

instance (outer : Reference) (sub : Query) : Decidable (sub.Qualifies outer) :=
  decidable_of_iff _ Entry.membership?_isSome_iff

/-- The condition takes the place of the existence test of the subquery: the outer column of the
first correlating filter is among the values of the subquery, which is left without this filter and
its projections and yields the inner column. Nothing is applied to the condition. -/
def Query.Becomes (outer : Reference) (sub : Query) (cond : Column) : Prop :=
  ∃ before correlating after outerColumn innerColumn,
    sub.log = before ++ correlating :: after ∧
    (∀ entry ∈ before, ∀ o i, ¬ entry.Correlates outer sub.reference o i) ∧
    correlating.Correlates outer sub.reference outerColumn innerColumn ∧
    cond = ⟨.binary .isIn (.column outerColumn) (.query { sub with
      log := ((before ++ after).filter fun entry => entry.kind != .select) ++
        [.select [⟨.column innerColumn, none⟩]] }), [], none⟩

/-- A qualifying existence test is replaced by what its subquery becomes. -/
theorem Query.becomes_of_membership? {outer : Reference} {sub : Query} {cond : Column}
    (h : (Entry.whereExists sub).membership? outer = some cond) : sub.Becomes outer cond := by
  obtain ⟨hsub, before, after, entry, outerColumn, innerColumn, hreplaced⟩ :=
    Entry.replaced_of_membership? h
  refine ⟨before, entry, after, outerColumn, innerColumn, hreplaced.log_eq, ?_,
    hreplaced.correlates, hreplaced.cond_eq⟩
  intro e he o i hcorrelates
  have hnone := hreplaced.before_uncorrelated e he
  rw [hcorrelates.correlation? hsub.ne] at hnone
  cases hnone

namespace Query

/-- The subquery of the entry, if the entry is an existence test of the query that qualifies. -/
def qualifying? (q : Query) : Entry → Option Query
  | .whereExists sub =>
    if q.source.isCombined = false ∧ sub.Qualifies q.reference then some sub else none
  | _ => none

/-- The subqueries of the existence tests that qualify, in the order of the log. -/
def qualifying (q : Query) : List Query := q.log.filterMap q.qualifying?

/-- The log without its first qualifying existence test. -/
def dropQualifying (q : Query) (log : List Entry) : List Entry :=
  log.eraseP fun entry => (q.qualifying? entry).isSome

variable {q : Query}

theorem qualifying?_eq_some_iff {entry : Entry} {sub : Query} :
    q.qualifying? entry = some sub ↔
      entry = .whereExists sub ∧ q.source.isCombined = false ∧ sub.Qualifies q.reference := by
  cases entry with
  | whereExists other =>
    simp only [qualifying?, Option.ite_none_right_eq_some, Option.some.injEq,
      Entry.whereExists.injEq]
    constructor
    · rintro ⟨h, rfl⟩
      exact ⟨rfl, h⟩
    · rintro ⟨rfl, h⟩
      exact ⟨h, rfl⟩
  | _ => simp [qualifying?]

theorem mem_qualifying_iff {sub : Query} :
    sub ∈ q.qualifying ↔
      q.source.isCombined = false ∧ .whereExists sub ∈ q.log ∧ sub.Qualifies q.reference := by
  simp only [qualifying, List.mem_filterMap, qualifying?_eq_some_iff]
  constructor
  · rintro ⟨_, hentry, rfl, hsource, hsub⟩
    exact ⟨hsource, hentry, hsub⟩
  · rintro ⟨hsource, hentry, hsub⟩
    exact ⟨_, hentry, rfl, hsource, hsub⟩

/-- Which tests qualify is decided by the reference of a query. -/
@[simp] theorem qualifying?_withLog (log : List Entry) :
    ({ q with log := log } : Query).qualifying? = q.qualifying? :=
  funext fun entry => by cases entry <;> rfl

@[simp] theorem dropQualifying_withLog (log : List Entry) :
    ({ q with log := log } : Query).dropQualifying = q.dropQualifying := by
  funext
  simp only [dropQualifying, qualifying?_withLog]

theorem converted?_eq_qualifying? (h : q.source.isCombined = false) :
    Entry.converted? q.reference = q.qualifying? := by
  funext entry
  refine Option.ext fun sub => ?_
  rw [Entry.converted?_eq_some_iff, qualifying?_eq_some_iff, h]
  simp

/-- A conversion takes the first qualifying existence test out of the log and puts what it becomes
at the end. -/
theorem membership?_eq_map_head? (q : Query) :
    q.membership? = q.qualifying.head?.bind fun sub =>
      ((Entry.whereExists sub).membership? q.reference).map fun cond =>
        { q with log := q.dropQualifying q.log ++ [.filter cond] } := by
  unfold membership?
  cases hsource : q.source.isCombined with
  | true =>
    have hnone : q.qualifying = [] :=
      List.eq_nil_iff_forall_not_mem.mpr fun sub hsub => by
        rw [mem_qualifying_iff, hsource] at hsub
        exact Bool.noConfusion hsub.1
    simp [hnone]
  | false =>
    rw [Entry.takeFirst?_membership?, converted?_eq_qualifying? hsource, takeFirst?_eq_map_head?]
    simp only [Bool.false_eq_true, if_false, qualifying, dropQualifying]
    cases (q.log.filterMap q.qualifying?).head? with
    | none => rfl
    | some sub =>
      simp only [Option.map_some, Option.bind_some]
      cases (Entry.whereExists sub).membership? q.reference <;> rfl

/-- Without a qualifying existence test nothing is converted. -/
theorem membership?_eq_none_of_qualifying_eq_nil (h : q.qualifying = []) :
    q.membership? = none := by
  simp [membership?_eq_map_head?, h]

/-- The first qualifying existence test is converted. -/
theorem exists_membership?_eq_some {sub : Query} {rest : List Query}
    (h : q.qualifying = sub :: rest) :
    ∃ cond, sub.Becomes q.reference cond ∧
      q.membership? = some { q with log := q.dropQualifying q.log ++ [.filter cond] } := by
  have hsub : sub ∈ q.qualifying := h ▸ List.mem_cons_self
  have hsome := Entry.membership?_isSome_iff.mpr (mem_qualifying_iff.mp hsub).2.2
  obtain ⟨cond, hcond⟩ := Option.isSome_iff_exists.mp hsome
  exact ⟨cond, becomes_of_membership? hcond, by simp [membership?_eq_map_head?, h, hcond]⟩

/-- A query with an existence test that qualifies is converted. -/
theorem membership?_isSome_iff : q.membership?.isSome = true ↔ q.qualifying ≠ [] := by
  cases h : q.qualifying with
  | nil => simp [membership?_eq_none_of_qualifying_eq_nil h]
  | cons sub rest =>
    obtain ⟨_, _, hsome⟩ := exists_membership?_eq_some h
    simp [hsome]

/-- The entry that is taken out is the first qualifying existence test. -/
theorem exists_membership?_of_first {before after : List Entry} {sub : Query}
    (hsource : q.source.isCombined = false) (hlog : q.log = before ++ .whereExists sub :: after)
    (hbefore : ∀ other, .whereExists other ∈ before → ¬ other.Qualifies q.reference)
    (hsub : sub.Qualifies q.reference) :
    ∃ cond, sub.Becomes q.reference cond ∧
      q.membership? = some { q with log := before ++ after ++ [.filter cond] } := by
  have hfound : q.qualifying? (.whereExists sub) = some sub :=
    qualifying?_eq_some_iff.mpr ⟨rfl, hsource, hsub⟩
  have hpassed : ∀ entry ∈ before, q.qualifying? entry = none := by
    intro entry hentry
    refine Option.eq_none_iff_forall_ne_some.mpr fun other hother => ?_
    obtain ⟨rfl, _, hq⟩ := qualifying?_eq_some_iff.mp hother
    exact hbefore other hentry hq
  have hfirst : q.qualifying = sub :: after.filterMap q.qualifying? := by
    rw [qualifying, hlog, List.filterMap_append, List.filterMap_eq_nil_iff.mpr hpassed,
      List.filterMap_cons_some hfound, List.nil_append]
  have hdrop : q.dropQualifying q.log = before ++ after := by
    rw [dropQualifying, hlog, List.eraseP_append_right _ (by simpa using hpassed),
      List.eraseP_cons_of_pos (by simp [hfound])]
  exact hdrop ▸ exists_membership?_eq_some hfirst

/-- The query without its first qualifying existence tests, so many of them, and with these filters
at the end of its log. -/
def exchanged (q : Query) (k : Nat) (conds : List Column) : Query :=
  { q with log := q.dropQualifying^[k] q.log ++ conds.map .filter }

theorem exchanged_zero (q : Query) : q.exchanged 0 [] = q := by
  cases q
  simp [exchanged]

/-- As many tests are left in a log as were not taken out of it. -/
theorem filterMap_dropQualifying (k : Nat) (log : List Entry) :
    (q.dropQualifying^[k] log).filterMap q.qualifying? = (log.filterMap q.qualifying?).drop k := by
  induction k with
  | zero => rfl
  | succ k ih =>
    rw [Function.iterate_succ_apply', dropQualifying, filterMap_eraseP, ih, List.tail_drop]

/-- The filters at the end are no existence tests. -/
theorem qualifying_exchanged (k : Nat) (conds : List Column) :
    (q.exchanged k conds).qualifying = q.qualifying.drop k := by
  have hfilters : (conds.map Entry.filter).filterMap q.qualifying? = [] := by
    simp [List.filterMap_eq_nil_iff, qualifying?]
  simp only [exchanged, qualifying, qualifying?_withLog, List.filterMap_append, hfilters,
    filterMap_dropQualifying, List.append_nil]

/-- A conversion leaves the other tests that qualify. -/
theorem qualifying_of_membership? {q' : Query} (h : q.membership? = some q') :
    q.qualifying ≠ [] ∧ q'.qualifying = q.qualifying.tail := by
  cases hqualifying : q.qualifying with
  | nil =>
    rw [membership?_eq_none_of_qualifying_eq_nil hqualifying] at h
    cases h
  | cons sub rest =>
    obtain ⟨cond, _, hsome⟩ := exists_membership?_eq_some hqualifying
    obtain rfl := Option.some.inj (h.symm.trans hsome)
    have hleft := qualifying_exchanged (q := q) 1 [cond]
    rw [hqualifying] at hleft
    exact ⟨List.cons_ne_nil sub rest, hleft⟩

/-- When no test is left, there is none to take out. -/
theorem exchanged_succ_of_drop_eq_nil {k : Nat} (h : q.qualifying.drop k = [])
    (conds : List Column) : q.exchanged (k + 1) conds = q.exchanged k conds := by
  have hnone := (filterMap_dropQualifying k q.log).trans h
  unfold exchanged
  rw [Function.iterate_succ_apply', dropQualifying, eraseP_of_filterMap_eq_nil hnone]

/-- When a test is left, the first one is exchanged for what it becomes. -/
theorem exists_membership?_exchanged {k : Nat} {sub : Query} {rest : List Query}
    (h : q.qualifying.drop k = sub :: rest) (conds : List Column) :
    ∃ cond, sub.Becomes q.reference cond ∧
      (q.exchanged k conds).membership? = some (q.exchanged (k + 1) (conds ++ [cond])) := by
  obtain ⟨cond, hcond, hmembership⟩ :=
    exists_membership?_eq_some ((qualifying_exchanged k conds).trans h)
  have hleft : (q.dropQualifying^[k] q.log).filterMap q.qualifying? ≠ [] := by
    rw [filterMap_dropQualifying, ← qualifying, h]
    exact List.cons_ne_nil sub rest
  refine ⟨cond, hcond, hmembership.trans ?_⟩
  simp only [exchanged, dropQualifying_withLog, Function.iterate_succ_apply']
  rw [dropQualifying, eraseP_append_of_filterMap_ne_nil hleft]
  simp [dropQualifying]

end Query

namespace Remembered

variable {r : Remembered}

theorem makeMembership_of_eq_none (h : r.query.membership? = none) :
    r.makeMembership = (false, r) := by
  simp [makeMembership, h]

theorem makeMembership_of_eq_some {q : Query} (h : r.query.membership? = some q) :
    r.makeMembership = (true, { r with query := q }) := by
  simp [makeMembership, h]

theorem makeMembership_eq_true_iff : r.makeMembership.1 = true ↔ r.query.qualifying ≠ [] := by
  rw [← Query.membership?_isSome_iff]
  cases h : r.query.membership? with
  | none => simp [makeMembership_of_eq_none h]
  | some q => simp [makeMembership_of_eq_some h]

/-- The instance after a number of conversions in place. -/
def converted (r : Remembered) (k : Nat) : Remembered :=
  (fun s : Remembered => s.makeMembership.2)^[k] r

theorem converted_succ (r : Remembered) (k : Nat) :
    r.converted (k + 1) = (r.converted k).makeMembership.2 :=
  Function.iterate_succ_apply' _ k r

/-- Conversions exchange the qualifying tests one by one, in the order of the log. -/
theorem exists_converted_eq (r : Remembered) (k : Nat) :
    ∃ conds : List Column,
      List.Forall₂ (Query.Becomes r.query.reference) (r.query.qualifying.take k) conds ∧
        r.converted k = { r with query := r.query.exchanged k conds } := by
  induction k with
  | zero => exact ⟨[], .nil, by rw [Query.exchanged_zero]; rfl⟩
  | succ k ih =>
    obtain ⟨conds, hconds, hstate⟩ := ih
    rw [converted_succ, hstate]
    cases hrest : r.query.qualifying.drop k with
    | nil =>
      have hall : r.query.qualifying.take (k + 1) = r.query.qualifying.take k := by
        rw [List.drop_eq_nil_iff] at hrest
        rw [List.take_of_length_le hrest, List.take_of_length_le (Nat.le_succ_of_le hrest)]
      have hnone := Query.membership?_eq_none_of_qualifying_eq_nil
        ((Query.qualifying_exchanged k conds).trans hrest)
      refine ⟨conds, hall ▸ hconds, ?_⟩
      rw [makeMembership_of_eq_none hnone, Query.exchanged_succ_of_drop_eq_nil hrest]
    | cons sub rest =>
      have hnext : r.query.qualifying.take (k + 1) = r.query.qualifying.take k ++ [sub] := by
        have hget : r.query.qualifying[k]? = some sub := by
          rw [← List.head?_drop, hrest, List.head?_cons]
        rw [List.take_add_one, hget, Option.toList_some]
      obtain ⟨cond, hcond, hsome⟩ := Query.exists_membership?_exchanged hrest conds
      refine ⟨conds ++ [cond], hnext ▸ List.rel_append hconds (.cons hcond .nil), ?_⟩
      rw [makeMembership_of_eq_some hsome]

/-- A call converts as long as a qualifying test is left. -/
theorem makeMembership_converted_eq_true_iff {k : Nat} :
    (r.converted k).makeMembership.1 = true ↔ k < r.query.qualifying.length := by
  obtain ⟨conds, _, hstate⟩ := r.exists_converted_eq k
  have hleft : (r.converted k).query.qualifying = r.query.qualifying.drop k := by
    rw [hstate]
    exact Query.qualifying_exchanged k conds
  rw [makeMembership_eq_true_iff, hleft, ne_eq, List.drop_eq_nil_iff, Nat.not_le]

/-- A call tells whether some existence test of the query qualifies. If none does, it leaves the
instance as it is. If one does, the first of them is taken out of the log and a filter by what it
becomes is put at its end, and nothing else is changed. Repeated calls convert as often as there are
qualifying tests, and exchange these in the order of the log. -/
theorem makeMembership_in_log_order (r : Remembered) :
    (r.makeMembership.1 = true ↔ r.query.source.isCombined = false ∧
      ∃ sub, .whereExists sub ∈ r.query.log ∧ sub.Qualifies r.query.reference) ∧
    (r.makeMembership.1 = false → r.makeMembership.2 = r) ∧
    (∀ before sub after, r.query.source.isCombined = false →
      r.query.log = before ++ .whereExists sub :: after →
      (∀ other, .whereExists other ∈ before → ¬ other.Qualifies r.query.reference) →
      sub.Qualifies r.query.reference →
        ∃ cond, sub.Becomes r.query.reference cond ∧
          r.makeMembership.2 =
            { r with query := { r.query with log := before ++ after ++ [.filter cond] } }) ∧
    ∀ k, ((r.converted k).makeMembership.1 = true ↔ k < r.query.qualifying.length) ∧
      ∃ conds : List Column,
        List.Forall₂ (Query.Becomes r.query.reference) (r.query.qualifying.take k) conds ∧
          r.converted k = { r with query := r.query.exchanged k conds } := by
  refine ⟨?_, ?_, ?_, fun k => ⟨makeMembership_converted_eq_true_iff, r.exists_converted_eq k⟩⟩
  · rw [makeMembership_eq_true_iff, ne_eq, List.eq_nil_iff_forall_not_mem]
    simp only [Query.mem_qualifying_iff, not_forall, not_not, exists_and_left]
  · intro h
    cases hmembership : r.query.membership? with
    | none => rw [makeMembership_of_eq_none hmembership]
    | some q =>
      rw [makeMembership_of_eq_some hmembership] at h
      cases h
  · intro before sub after hsource hlog hbefore hsub
    obtain ⟨cond, hcond, hsome⟩ :=
      Query.exists_membership?_of_first hsource hlog hbefore hsub
    exact ⟨cond, hcond, by rw [makeMembership_of_eq_some hsome]⟩

/-- The rows of a table with `a = 5` and the `id` of the present row of another query. -/
def matchOf (q : Query) (name : String) : Query :=
  let sub := Query.ofTable name
  { sub with log := [
    .filter ((sub.column "a").combine .eq (.literal (.int 5))),
    .filter ((sub.column "id").combine .eq (.column (q.column "id")))] }

/-- The rows of a query that have a match in a table. -/
def matching (q : Query) (name : String) : Query := q.whereExists (matchOf q name)

/-- The rows of `t1` with a match both in `t2` and in `t3`. -/
def matchingTwice : Query := matching (matching (.ofTable "t1") "t2") "t3"

/-- The `id` of `t1` is one of those that the rows of a table with `a = 5` have. -/
def amongIds (name : String) : Column :=
  let own (column : String) : Operand := .column ⟨.named column (some ⟨some name, none⟩), [], none⟩
  ⟨.binary .isIn (.column ⟨.named "id" (some ⟨some "t1", none⟩), [], none⟩)
    (.query ⟨.named name, none,
      [.filter ⟨.binary .eq (own "a") (.literal (.int 5)), [], none⟩, .select [⟨own "id", none⟩]],
      none, false, false, none⟩), [], none⟩

/-- A call converts the match in `t2` and leaves the one in `t3` before it, which the second call
converts. There is none for a third call. -/
theorem makeMembership_in_log_order_matchingTwice :
    let r := ofQuery matchingTwice
    let inT2 := matchOf (.ofTable "t1") "t2"
    let inT3 := matchOf (.ofTable "t1") "t3"
    (r.query.source.isCombined = false ∧ r.query.log = [] ++ .whereExists inT2 :: [.whereExists inT3]
      ∧ inT2.Qualifies r.query.reference) ∧
    r.makeMembership.1 = true ∧ inT2.Becomes r.query.reference (amongIds "t2") ∧
    r.makeMembership.2.query.log = [.whereExists inT3, .filter (amongIds "t2")] ∧
    (r.converted 2).query.log = [.filter (amongIds "t2"), .filter (amongIds "t3")] ∧
    (r.converted 2).makeMembership.1 = false := by
  intro r inT2 inT3
  have hqualifies : inT2.Qualifies r.query.reference := by decide +kernel
  obtain ⟨hconverts, _, hfirst, hrepeated⟩ := makeMembership_in_log_order r
  have hlog : r.query.log = [] ++ .whereExists inT2 :: [.whereExists inT3] := rfl
  have hmem : .whereExists inT2 ∈ r.query.log := List.mem_cons_self
  obtain ⟨cond, hcond, hstate⟩ := hfirst [] inT2 [.whereExists inT3] rfl hlog
    (fun other hother => absurd hother List.not_mem_nil) hqualifies
  have hpinned : r.makeMembership.2.query.log = [.whereExists inT3, .filter (amongIds "t2")] := rfl
  obtain rfl : cond = amongIds "t2" := by
    rw [hstate] at hpinned
    simpa using hpinned
  have hnone : ¬ (r.converted 2).makeMembership.1 = true := by
    rw [(hrepeated 2).1]
    decide +kernel
  exact ⟨⟨rfl, hlog, hqualifies⟩, hconverts.mpr ⟨rfl, inT2, hmem, hqualifies⟩, hcond, hpinned, rfl,
    Bool.eq_false_iff.mpr hnone⟩

end Remembered

end SqlTree
