import SqlTree.Query.Membership
import Mathlib.Data.List.Basic

/-!
# Which existence test becomes a membership test

A subquery qualifies by its reference and by two of its filters, found in either order and written
in either orientation; nothing else of it is looked at. Main statements: an existence test is
accepted exactly when its subquery qualifies, the first such test of a query is the one that goes,
and the test that takes its place ranges over the same subquery without the correlating filter.
-/

namespace SqlTree

section TakeFirst

variable {α β : Type} {f : α → Option β}

/-- Nothing is taken exactly when nothing is accepted. -/
theorem takeFirst?_eq_none_iff {l : List α} : takeFirst? f l = none ↔ ∀ a ∈ l, f a = none := by
  induction l with
  | nil => simp [takeFirst?]
  | cons a rest ih =>
    cases ha : f a with
    | some b => simp [takeFirst?, ha]
    | none => simp [takeFirst?, ha, ih]

/-- The element taken is the first one accepted, and the other elements keep their order. -/
theorem takeFirst?_eq_some_iff {l others : List α} {b : β} :
    takeFirst? f l = some (b, others) ↔ ∃ before a after, l = before ++ a :: after ∧
      (∀ x ∈ before, f x = none) ∧ f a = some b ∧ others = before ++ after := by
  induction l generalizing others with
  | nil => simp [takeFirst?]
  | cons a rest ih =>
    cases ha : f a with
    | some c =>
      simp only [takeFirst?, ha, Option.some.injEq, Prod.mk.injEq]
      constructor
      · rintro ⟨rfl, rfl⟩
        exact ⟨[], a, rest, rfl, by simp, ha, rfl⟩
      · rintro ⟨before, x, after, hl, hbefore, hx, rfl⟩
        cases before with
        | nil =>
          obtain ⟨rfl, rfl⟩ := List.cons.inj hl
          exact ⟨Option.some.inj (ha.symm.trans hx), rfl⟩
        | cons y ys =>
          obtain ⟨rfl, rfl⟩ := List.cons.inj hl
          have hnone := hbefore a List.mem_cons_self
          rw [ha] at hnone
          cases hnone
    | none =>
      simp only [takeFirst?, ha, Option.map_eq_some_iff, Prod.mk.injEq, Prod.exists]
      constructor
      · rintro ⟨c, kept, hkept, rfl, rfl⟩
        obtain ⟨before, x, after, rfl, hbefore, hx, rfl⟩ := ih.mp hkept
        refine ⟨a :: before, x, after, rfl, ?_, hx, rfl⟩
        intro y hy
        cases List.mem_cons.mp hy with
        | inl he => exact he ▸ ha
        | inr ht => exact hbefore y ht
      · rintro ⟨before, x, after, hl, hbefore, hx, rfl⟩
        cases before with
        | nil =>
          obtain ⟨rfl, rfl⟩ := List.cons.inj hl
          rw [ha] at hx
          cases hx
        | cons y ys =>
          obtain ⟨rfl, rfl⟩ := List.cons.inj hl
          refine ⟨b, ys ++ after, ih.mpr ⟨ys, x, after, rfl, ?_, hx, rfl⟩, rfl, rfl⟩
          exact fun z hz => hbefore z (List.mem_cons_of_mem _ hz)

/-- What is made of the element taken may be made before or after, if it can always be made. -/
theorem takeFirst?_bind {γ : Type} {g : β → Option γ}
    (hg : ∀ a b, f a = some b → (g b).isSome = true) (l : List α) :
    takeFirst? (fun a => (f a).bind g) l =
      (takeFirst? f l).bind fun taken => (g taken.1).map fun c => (c, taken.2) := by
  induction l with
  | nil => rfl
  | cons a rest ih =>
    cases ha : f a with
    | none => cases htake : takeFirst? f rest <;> simp [takeFirst?, ha, ih, htake, Function.comp_def]
    | some b =>
      obtain ⟨c, hc⟩ := Option.isSome_iff_exists.mp (hg a b ha)
      simp [takeFirst?, ha, hc]

end TakeFirst

/-- A single column by name, other than the star, drawn from the query referred to. -/
def Column.DrawnFrom (owner : Reference) (c : Column) : Prop :=
  ∃ name, name ≠ starName ∧ c = .ownedBy owner name

/-- A bare column with an owner is nothing but its name. -/
theorem Column.drawnFrom_iff {owner : Reference} {c : Column} :
    c.DrawnFrom owner ↔ (c.isBare && c.base.owner? == some owner) = true := by
  obtain ⟨base, functions, nullTest⟩ := c
  cases base with
  | binary op left right => simp [DrawnFrom, ownedBy, isBare, Base.binary?]
  | named name given =>
    simp only [DrawnFrom, ownedBy, isBare, isStar, Base.binary?, Base.columnName, Base.owner?,
      Column.mk.injEq, Base.named.injEq, Bool.and_eq_true, Option.isNone_none, List.isEmpty_iff,
      Option.isNone_iff_eq_none, Bool.not_eq_true', beq_eq_false_iff_ne, beq_iff_eq, true_and]
    constructor
    · rintro ⟨_, hname, ⟨rfl, rfl⟩, rfl, rfl⟩
      exact ⟨⟨⟨rfl, rfl⟩, hname⟩, rfl⟩
    · rintro ⟨⟨⟨rfl, rfl⟩, hname⟩, rfl⟩
      exact ⟨name, hname, ⟨rfl, rfl⟩, rfl, rfl⟩

/-- A column drawn from a query is bare. -/
theorem Column.DrawnFrom.isBare {owner : Reference} {c : Column} (h : c.DrawnFrom owner) :
    c.isBare = true := by
  have hboth := Column.drawnFrom_iff.mp h
  rw [Bool.and_eq_true] at hboth
  exact hboth.1

theorem Operand.isColumnOf_iff {owner : Reference} {side : Operand} :
    side.isColumnOf owner = true ↔ ∃ c : Column, c.DrawnFrom owner ∧ side = .column c := by
  cases side with
  | column c => simp [isColumnOf, Column.drawnFrom_iff]
  | literal v => simp [isColumnOf]
  | query q => simp [isColumnOf]

theorem Operand.columnOf?_eq_some_iff {owner : Reference} {side : Operand} {c : Column} :
    side.columnOf? owner = some c ↔ c.DrawnFrom owner ∧ side = .column c := by
  cases side with
  | column d =>
    simp only [columnOf?, Option.ite_none_right_eq_some, Option.some.injEq, Operand.column.injEq]
    constructor
    · rintro ⟨hd, rfl⟩
      exact ⟨Column.drawnFrom_iff.mpr hd, rfl⟩
    · rintro ⟨hc, rfl⟩
      exact ⟨Column.drawnFrom_iff.mp hc, rfl⟩
  | literal v => simp [columnOf?]
  | query q => simp [columnOf?]

theorem Operand.isLiteral_iff {side : Operand} :
    side.isLiteral = true ↔ ∃ v, side = .literal v := by
  cases side <;> simp [isLiteral]

/-- Only an equality to which nothing is applied has two sides. -/
theorem Column.equality?_eq_some_iff {c : Column} {left right : Operand} :
    c.equality? = some (left, right) ↔ c = .ofBinary .eq left right := by
  unfold equality? ofBinary
  split
  · simp
  · rename_i hne
    simp only [reduceCtorEq, false_iff]
    rintro rfl
    exact hne left right rfl

theorem Entry.filter?_eq_some_iff {entry : Entry} {cond : Column} :
    entry.filter? = some cond ↔ entry = .filter cond := by
  cases entry <;> simp [filter?]

/-- The entry compares a column of the query referred to with a literal, in either orientation. -/
def Entry.Selective (inner : Reference) (entry : Entry) : Prop :=
  ∃ (c : Column) (v : Literal), c.DrawnFrom inner ∧
    (entry = .filter (.ofBinary .eq (.column c) (.literal v)) ∨
      entry = .filter (.ofBinary .eq (.literal v) (.column c)))

/-- The entry equates a column of the outer query and one of the inner, in either orientation. -/
structure Entry.Correlates (outer inner : Reference) (outerColumn innerColumn : Column)
    (entry : Entry) : Prop where
  outerColumn_drawnFrom : outerColumn.DrawnFrom outer
  innerColumn_drawnFrom : innerColumn.DrawnFrom inner
  eq_filter : entry = .filter (.ofBinary .eq (.column outerColumn) (.column innerColumn)) ∨
    entry = .filter (.ofBinary .eq (.column innerColumn) (.column outerColumn))

/-- An entry that compares a column with a literal is a filter. -/
theorem Entry.Selective.kind_eq {inner : Reference} {entry : Entry}
    (h : entry.Selective inner) : entry.kind = .filter := by
  obtain ⟨c, v, _, rfl | rfl⟩ := h <;> rfl

/-- An entry that correlates two columns is a filter. -/
theorem Entry.Correlates.kind_eq {outer inner : Reference} {entry : Entry}
    {outerColumn innerColumn : Column}
    (h : entry.Correlates outer inner outerColumn innerColumn) : entry.kind = .filter := by
  rcases h.eq_filter with rfl | rfl <;> rfl

/-- The subquery may be turned into a membership test of the outer query. -/
structure Query.Qualifies (outer : Reference) (sub : Query) : Prop where
  outer_qualified : outer.qualifier.isSome = true
  inner_qualified : sub.reference.qualifier.isSome = true
  ne : outer ≠ sub.reference
  selective : ∃ entry ∈ sub.log, entry.Selective sub.reference
  correlated : ∃ entry ∈ sub.log, ∃ outerColumn innerColumn,
    entry.Correlates outer sub.reference outerColumn innerColumn

theorem Entry.isSelective_iff {inner : Reference} {entry : Entry} :
    entry.isSelective inner = true ↔ entry.Selective inner := by
  unfold isSelective
  cases hs : entry.filter?.bind Column.equality? with
  | none =>
    simp only [Bool.false_eq_true, false_iff]
    rintro ⟨c, v, _, rfl | rfl⟩ <;> cases hs
  | some sides =>
    obtain ⟨left, right⟩ := sides
    obtain ⟨cond, hcond, heq⟩ := Option.bind_eq_some_iff.mp hs
    rw [filter?_eq_some_iff] at hcond
    rw [Column.equality?_eq_some_iff] at heq
    subst hcond heq
    simp only [Bool.or_eq_true, Bool.and_eq_true, Operand.isColumnOf_iff, Operand.isLiteral_iff]
    constructor
    · rintro (⟨⟨c, hc, rfl⟩, v, rfl⟩ | ⟨⟨v, rfl⟩, c, hc, rfl⟩)
      · exact ⟨c, v, hc, Or.inl rfl⟩
      · exact ⟨c, v, hc, Or.inr rfl⟩
    · rintro ⟨c, v, hc, he | he⟩ <;> cases he
      · exact Or.inl ⟨⟨c, hc, rfl⟩, v, rfl⟩
      · exact Or.inr ⟨⟨v, rfl⟩, c, hc, rfl⟩

/-- A column is drawn from one query only. -/
theorem Column.DrawnFrom.unique {r s : Reference} {c : Column} (hr : c.DrawnFrom r)
    (hs : c.DrawnFrom s) : r = s := by
  obtain ⟨name, _, rfl⟩ := hr
  obtain ⟨other, _, he⟩ := hs
  simp only [ownedBy, Column.mk.injEq, Base.named.injEq, Option.some.injEq] at he
  exact he.1.2

/-- Whatever is found as a correlation is one. -/
theorem Entry.Correlates.of_correlation? {outer inner : Reference} {entry : Entry}
    {outerColumn innerColumn : Column}
    (h : entry.correlation? outer inner = some (outerColumn, innerColumn)) :
    entry.Correlates outer inner outerColumn innerColumn := by
  obtain ⟨⟨left, right⟩, hsides, hpair⟩ := Option.bind_eq_some_iff.mp h
  obtain ⟨cond, hcond, heq⟩ := Option.bind_eq_some_iff.mp hsides
  rw [filter?_eq_some_iff] at hcond
  rw [Column.equality?_eq_some_iff] at heq
  subst hcond heq
  simp only [Option.orElse_eq_orElse, Option.orElse_eq_or, Option.or_eq_some_iff,
    Option.bind_eq_bind, Option.bind_eq_some_iff, Operand.columnOf?_eq_some_iff,
    Option.pure_def, Option.some.injEq, Prod.mk.injEq] at hpair
  rcases hpair with ⟨o, ⟨ho, rfl⟩, i, ⟨hi, rfl⟩, rfl, rfl⟩ |
    ⟨_, o, ⟨ho, rfl⟩, i, ⟨hi, rfl⟩, rfl, rfl⟩
  · exact ⟨ho, hi, Or.inl rfl⟩
  · exact ⟨ho, hi, Or.inr rfl⟩

/-- Between two different queries a correlation is found whichever way it is written. -/
theorem Entry.Correlates.correlation? {outer inner : Reference} {entry : Entry}
    {outerColumn innerColumn : Column} (hne : outer ≠ inner)
    (h : entry.Correlates outer inner outerColumn innerColumn) :
    entry.correlation? outer inner = some (outerColumn, innerColumn) := by
  have ho := Operand.columnOf?_eq_some_iff.mpr ⟨h.outerColumn_drawnFrom, rfl⟩
  have hi := Operand.columnOf?_eq_some_iff.mpr ⟨h.innerColumn_drawnFrom, rfl⟩
  rcases h.eq_filter with rfl | rfl
  · simp [Entry.correlation?, filter?, Column.equality?, Column.ofBinary, ho, hi]
  · have hnone : (Operand.column innerColumn).columnOf? outer = none := by
      cases hc : (Operand.column innerColumn).columnOf? outer with
      | none => rfl
      | some c =>
        obtain ⟨hd, he⟩ := Operand.columnOf?_eq_some_iff.mp hc
        cases he
        exact absurd (hd.unique h.innerColumn_drawnFrom) hne
    simp [Entry.correlation?, filter?, Column.equality?, Column.ofBinary, ho, hi, hnone]

/-- Between two different queries the search finds exactly the correlations. -/
theorem Entry.correlation?_eq_some_iff {outer inner : Reference} {entry : Entry}
    {outerColumn innerColumn : Column} (hne : outer ≠ inner) :
    entry.correlation? outer inner = some (outerColumn, innerColumn) ↔
      entry.Correlates outer inner outerColumn innerColumn :=
  ⟨Correlates.of_correlation?, Correlates.correlation? hne⟩

/-- The subquery with these entries in its log, projected to one column. -/
def Query.yielding (sub : Query) (others : List Entry) (c : Column) : Query :=
  { sub with log := (others.filter fun entry => entry.kind != .select) ++
      [.select [⟨.column c, none⟩]] }

/-- What takes the place of an existence test: the outer side of the first correlation is tested
against the inner side of it, over the subquery without that filter. -/
structure Entry.Replaced (outer : Reference) (sub : Query) (cond : Column)
    (before after : List Entry) (entry : Entry) (outerColumn innerColumn : Column) : Prop where
  log_eq : sub.log = before ++ entry :: after
  before_uncorrelated : ∀ e ∈ before, e.correlation? outer sub.reference = none
  correlates : entry.Correlates outer sub.reference outerColumn innerColumn
  cond_eq : cond = outerColumn.combine .isIn (.query (sub.yielding (before ++ after) innerColumn))

/-- An accepted existence test has a qualifying subquery and is replaced at the first correlation
in it. -/
theorem Entry.replaced_of_membership? {outer : Reference} {sub : Query} {cond : Column}
    (h : (Entry.whereExists sub).membership? outer = some cond) :
    sub.Qualifies outer ∧ ∃ before after entry outerColumn innerColumn,
      Replaced outer sub cond before after entry outerColumn innerColumn := by
  simp only [membership?, Option.ite_none_right_eq_some, Bool.and_eq_true, bne_iff_ne, ne_eq,
    Option.bind_eq_bind, Option.bind_eq_some_iff, Option.pure_def, Option.some.injEq,
    Prod.exists] at h
  obtain ⟨⟨⟨⟨houter, hinner⟩, hne⟩, hselective⟩, o, i, others, htake, rfl⟩ := h
  obtain ⟨before, entry, after, hlog, hbefore, hentry, rfl⟩ := takeFirst?_eq_some_iff.mp htake
  have hcorrelates := Correlates.of_correlation? hentry
  have hmem : entry ∈ sub.log := hlog ▸ List.mem_append_right before List.mem_cons_self
  obtain ⟨e, he, hs⟩ := List.any_eq_true.mp hselective
  refine ⟨⟨houter, hinner, hne, ⟨e, he, isSelective_iff.mp hs⟩, entry, hmem, o, i, hcorrelates⟩,
    before, after, entry, o, i, hlog, hbefore, hcorrelates, rfl⟩

/-- An existence test is accepted exactly when its subquery qualifies. -/
theorem Entry.membership?_isSome_iff {outer : Reference} {sub : Query} :
    ((Entry.whereExists sub).membership? outer).isSome = true ↔ sub.Qualifies outer := by
  constructor
  · intro h
    obtain ⟨cond, hcond⟩ := Option.isSome_iff_exists.mp h
    exact (replaced_of_membership? hcond).1
  · intro h
    obtain ⟨e, he, hs⟩ := h.selective
    obtain ⟨entry, hmem, o, i, hcorrelates⟩ := h.correlated
    have hany : sub.log.any (isSelective sub.reference) = true :=
      List.any_eq_true.mpr ⟨e, he, isSelective_iff.mpr hs⟩
    cases htake : takeFirst? (correlation? outer sub.reference) sub.log with
    | none =>
      have hnone := takeFirst?_eq_none_iff.mp htake entry hmem
      rw [hcorrelates.correlation? h.ne] at hnone
      cases hnone
    | some taken =>
      obtain ⟨⟨outerColumn, innerColumn⟩, others⟩ := taken
      simp [membership?, h.outer_qualified, h.inner_qualified, h.ne, hany, htake]

/-- Only existence tests are accepted. -/
theorem Entry.eq_whereExists_of_membership? {outer : Reference} {entry : Entry} {cond : Column}
    (h : entry.membership? outer = some cond) : ∃ sub, entry = .whereExists sub := by
  cases entry with
  | whereExists sub => exact ⟨sub, rfl⟩
  | _ => cases h

/-- The subquery of an existence test that is accepted. -/
def Entry.converted? (outer : Reference) : Entry → Option Query
  | .whereExists sub =>
    if ((Entry.whereExists sub).membership? outer).isSome then some sub else none
  | _ => none

/-- An existence test that is accepted is converted through its subquery. -/
theorem Entry.membership?_eq_bind (outer : Reference) (entry : Entry) :
    entry.membership? outer =
      (entry.converted? outer).bind fun sub => (Entry.whereExists sub).membership? outer := by
  cases entry with
  | whereExists sub =>
    cases hcond : (Entry.whereExists sub).membership? outer <;> simp [converted?, hcond]
  | _ => rfl

theorem Entry.isSome_membership?_of_converted? {outer : Reference} {entry : Entry} {sub : Query}
    (h : entry.converted? outer = some sub) :
    ((Entry.whereExists sub).membership? outer).isSome = true := by
  cases entry with
  | whereExists other =>
    obtain ⟨hsome, hsub⟩ := Option.ite_none_right_eq_some.mp h
    exact Option.some.inj hsub ▸ hsome
  | _ => cases h

/-- The first existence test that is accepted is found by its subquery. -/
theorem Entry.takeFirst?_membership? (outer : Reference) (log : List Entry) :
    takeFirst? (Entry.membership? outer) log =
      (takeFirst? (Entry.converted? outer) log).bind fun taken =>
        ((Entry.whereExists taken.1).membership? outer).map fun cond => (cond, taken.2) := by
  have hbind : Entry.membership? outer = fun entry : Entry => (entry.converted? outer).bind
      fun sub => (Entry.whereExists sub).membership? outer := funext (membership?_eq_bind outer)
  exact (congrArg (takeFirst? · log) hbind).trans
    (takeFirst?_bind (fun _ _ => isSome_membership?_of_converted?) log)

/-- The subquery that is turned into a membership test, if there is one. -/
def Query.converted? (q : Query) : Option Query :=
  if q.source.isCombined then none else q.log.findSome? (Entry.converted? q.reference)

/-- The subquery is that of the first existence test in the log whose subquery qualifies. -/
def Query.FirstQualifying (q sub : Query) : Prop :=
  ∃ before after, q.log = before ++ .whereExists sub :: after ∧
    (∀ other, .whereExists other ∈ before → ¬ other.Qualifies q.reference) ∧
    sub.Qualifies q.reference

theorem Query.FirstQualifying.qualifies {q sub : Query} (h : q.FirstQualifying sub) :
    sub.Qualifies q.reference := by
  obtain ⟨_, _, _, _, hsub⟩ := h
  exact hsub

theorem Entry.converted?_eq_some_iff {outer : Reference} {entry : Entry} {sub : Query} :
    entry.converted? outer = some sub ↔ entry = .whereExists sub ∧ sub.Qualifies outer := by
  cases entry with
  | whereExists other =>
    simp only [converted?, Option.ite_none_right_eq_some, membership?_isSome_iff,
      Option.some.injEq, Entry.whereExists.injEq]
    constructor
    · rintro ⟨h, rfl⟩
      exact ⟨rfl, h⟩
    · rintro ⟨rfl, h⟩
      exact ⟨h, rfl⟩
  | _ => simp [converted?]

theorem Entry.converted?_eq_none_iff {outer : Reference} {entry : Entry} :
    entry.converted? outer = none ↔
      ∀ sub, entry = .whereExists sub → ¬ sub.Qualifies outer := by
  simp only [Option.eq_none_iff_forall_ne_some, ne_eq, converted?_eq_some_iff, not_and]

/-- A query that is not a set operation converts its first qualifying subquery and no other. -/
theorem Query.converted?_eq_some_iff {q sub : Query} :
    q.converted? = some sub ↔ q.source.isCombined = false ∧ q.FirstQualifying sub := by
  simp only [converted?, Option.ite_none_left_eq_some, Bool.not_eq_true,
    List.findSome?_eq_some_iff, Entry.converted?_eq_some_iff, Entry.converted?_eq_none_iff]
  refine and_congr_right fun _ => ?_
  constructor
  · rintro ⟨before, entry, after, hlog, ⟨rfl, hsub⟩, hbefore⟩
    exact ⟨before, after, hlog, fun other hother => hbefore _ hother other rfl, hsub⟩
  · rintro ⟨before, after, hlog, hbefore, hsub⟩
    exact ⟨before, .whereExists sub, after, hlog, ⟨rfl, hsub⟩,
      fun entry hentry other he => hbefore other (he ▸ hentry)⟩

/-- A conversion takes the existence test out of the log and puts its replacement at the end. -/
theorem Query.converted?_of_membership? {q q' : Query} (h : q.membership? = some q') :
    ∃ before sub after cond, q.converted? = some sub ∧
      q.log = before ++ .whereExists sub :: after ∧
      (Entry.whereExists sub).membership? q.reference = some cond ∧
      q' = { q with log := before ++ after ++ [.filter cond] } := by
  simp only [membership?, Option.ite_none_left_eq_some, Bool.not_eq_true, Option.bind_eq_bind,
    Option.bind_eq_some_iff, Option.pure_def, Option.some.injEq, Prod.exists] at h
  obtain ⟨hsource, cond, others, htake, rfl⟩ := h
  obtain ⟨before, entry, after, hlog, hbefore, hentry, rfl⟩ := takeFirst?_eq_some_iff.mp htake
  obtain ⟨sub, rfl⟩ := Entry.eq_whereExists_of_membership? hentry
  have hsub := (Entry.replaced_of_membership? hentry).1
  refine ⟨before, sub, after, cond, converted?_eq_some_iff.mpr ⟨hsource, before, after, hlog,
    fun other hother hq => ?_, hsub⟩, hlog, hentry, rfl⟩
  have hsome := Entry.membership?_isSome_iff.mpr hq
  rw [hbefore _ hother] at hsome
  cases hsome

/-- The existence test of this subquery is turned into a membership test. -/
def Query.Converts (q sub : Query) : Prop :=
  q.membership?.isSome = true ∧ q.converted? = some sub

/-- What is converted is decided by the first qualifying subquery alone. -/
theorem Query.converts_iff {q sub : Query} :
    q.Converts sub ↔ q.source.isCombined = false ∧ q.FirstQualifying sub := by
  rw [← converted?_eq_some_iff]
  refine ⟨And.right, fun h => ⟨?_, h⟩⟩
  obtain ⟨hsource, before, after, hlog, hbefore, hsub⟩ := converted?_eq_some_iff.mp h
  cases htake : takeFirst? (Entry.membership? q.reference) q.log with
  | none =>
    have hmem : Entry.whereExists sub ∈ q.log :=
      hlog ▸ List.mem_append_right before List.mem_cons_self
    have hsome := Entry.membership?_isSome_iff.mpr hsub
    rw [takeFirst?_eq_none_iff.mp htake _ hmem] at hsome
    cases hsome
  | some taken => simp [membership?, hsource, htake]

end SqlTree
