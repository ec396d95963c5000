import SqlTree.Proofs.Faults.IllFormed
import SqlTree.Proofs.Membership.Meaning
import SqlTree.Proofs.Scoping.Declared

/-!
# Qualifiers are declared

A column is written with the qualifier of the query that owns it. The owner is to be a query that a
statement around the column takes its rows from: the query in whose log the column stands, the
target of one of its joins, or the same for a query around it. A set operation takes the rows of its
arms, and has no correlation name that columns could be qualified by. Main statements: if no owner
is a set operation, unless it is the target of a join, every qualifier of the text is declared by
the statement in which it is printed or by one around it, and the alias of a set operation that is
ordered by a column of its own is not declared.
-/

namespace SqlTree

/-- A column is printed with the qualifier of its owner. -/
theorem Base.nameSql_eq (name : String) (owner : Option Reference) :
    Base.nameSql name owner =
      ((Leaf.named name owner).owner?.bind Reference.sql?).elim name (· ++ "." ++ name) := by
  by_cases hname : name = starName
  · simp [Base.nameSql, Leaf.owner?, hname]
  · rw [Base.nameSql, Leaf.owner?, if_neg hname, if_neg hname]
    cases owner.bind Reference.sql? <;> rfl

namespace Query

/-- The owners of the columns in the log of a query; subqueries are not entered. -/
def owners (q : Query) : List Reference := (q.log.flatMap Entry.leaves).filterMap Leaf.owner?

/-- The references of the query and of the targets of its joins. -/
def references (q : Query) : List Reference := q.fromList.map reference

/-- The references whose qualifiers the statement of a query declares. -/
def declaredReferences (q : Query) : List Reference :=
  if q.source.isCombined then [] else q.references

/-- Every qualified column, at any depth, is owned by a reference that is visible in the query in
whose log it stands or in one around it. -/
inductive Owned (visible : Query → List Reference) : List Query → Query → Prop where
  | intro {around : List Query} {q : Query}
      (columns : ∀ owner ∈ q.owners, owner.qualifier.isSome = true →
        ∃ s ∈ q :: around, owner ∈ visible s)
      (below : ∀ sub ∈ q.queries, Owned visible (q :: around) sub) : Owned visible around q

/-- Every qualifier that is printed, at any depth, is declared by the statement in which it is
printed or by one around it, whatever derived tables are named. -/
inductive Scoped : List Query → Query → Prop where
  | intro {around : List Query} {q : Query}
      (columns : ∀ owner ∈ q.owners, ∀ qualifier, owner.sql? = some qualifier →
        ∃ s ∈ q :: around, ∀ n, s.Declares n qualifier)
      (below : ∀ sub ∈ q.writtenQueries, Scoped (q :: around) sub) : Scoped around q

/-- The qualifiers of the references that the first queries declare are declared by the statements
of the others. -/
def Covers (lenders around : List Query) : Prop :=
  ∀ s ∈ lenders, ∀ r ∈ s.declaredReferences, ∀ qualifier, r.sql? = some qualifier →
    ∃ s' ∈ around, ∀ n, s'.Declares n qualifier

variable {q : Query} {lenders around : List Query}

theorem mem_owners_iff {owner : Reference} :
    owner ∈ q.owners ↔ ∃ entry ∈ q.log, ∃ leaf ∈ entry.leaves, leaf.owner? = some owner := by
  simp only [owners, List.mem_filterMap, List.mem_flatMap]
  constructor
  · rintro ⟨leaf, ⟨entry, hentry, hleaf⟩, howner⟩
    exact ⟨entry, hentry, leaf, hleaf, howner⟩
  · rintro ⟨entry, hentry, leaf, hleaf, howner⟩
    exact ⟨leaf, ⟨entry, hentry, hleaf⟩, howner⟩

theorem covers_nil : Covers [] around := fun _ h => absurd h List.not_mem_nil

/-- A statement declares the references that it is said to. -/
theorem declares_of_mem_declaredReferences {r : Reference} {qualifier : String}
    (hr : r ∈ q.declaredReferences) (h : r.sql? = some qualifier) (n : Nat) :
    q.Declares n qualifier := by
  unfold declaredReferences at hr
  split at hr
  · cases hr
  · rename_i hq
    obtain ⟨table, htable, rfl⟩ := List.mem_map.mp hr
    exact declares_of_mem_fromList (Bool.not_eq_true _ ▸ hq) htable h n

/-- Inside a statement its own references are covered by itself. -/
theorem Covers.cons (h : Covers lenders around) (q : Query) :
    Covers (q :: lenders) (q :: around) := by
  intro s hs r hr qualifier hqualifier
  rcases List.mem_cons.mp hs with rfl | hs
  · exact ⟨s, List.mem_cons_self, declares_of_mem_declaredReferences hr hqualifier⟩
  · obtain ⟨s', hs', hdeclares⟩ := h s hs r hr qualifier hqualifier
    exact ⟨s', List.mem_cons_of_mem q hs', hdeclares⟩

/-- A query that does nothing but project takes its rows from its source alone. -/
theorem references_of_onlyProjects {target : Query} (h : target.onlyProjects = true) :
    target.references = [target.reference] := by
  simp only [onlyProjects, Bool.and_eq_true, List.all_eq_true, beq_iff_eq] at h
  have hnone : target.log.filterMap Entry.target? = [] := by
    refine List.filterMap_eq_nil_iff.mpr fun entry hentry => ?_
    have hkind := h.2 entry hentry
    cases entry <;> first | rfl | cases hkind
  rw [references, fromList, hnone, List.map_cons, List.map_nil]

/-- Inside the source of a join target that is joined by its source the statement around it covers
the target. -/
theorem Covers.target (h : Covers lenders around) (hq : q.source.isCombined = false)
    {target : Query} {entry : Entry} (hentry : entry ∈ q.log)
    (htarget : entry.target? = some target) (honly : target.onlyProjects = true) :
    Covers (target :: q :: lenders) (q :: around) := by
  intro s hs r hr qualifier hqualifier
  rcases List.mem_cons.mp hs with rfl | hs
  · have hmem : r ∈ s.references := by
      unfold declaredReferences at hr
      split at hr
      · cases hr
      · exact hr
    rw [references_of_onlyProjects honly, List.mem_singleton] at hmem
    subst hmem
    have htable : s ∈ q.fromList :=
      List.mem_cons_of_mem q (List.mem_filterMap.mpr ⟨entry, hentry, htarget⟩)
    exact ⟨q, List.mem_cons_self, declares_of_mem_fromList hq htable hqualifier⟩
  · exact h.cons q s hs r hr qualifier hqualifier

/-- A set operation that can be written joins nothing. -/
theorem source_isCombined_of_check_eq_ok (h : q.check = .ok ()) {entry : Entry}
    (hentry : entry ∈ q.log) {target : Query} (htarget : entry.target? = some target) :
    q.source.isCombined = false := by
  have hill := ownFault?_eq_none_iff.mp (check_eq_ok_iff.mp h).1
  by_contra hq
  refine hill (Or.inr ⟨eq_true_of_ne_false hq, entry, hentry, ?_⟩)
  intro hkind
  cases entry <;> cases htarget <;> cases hkind

/-- If every column is owned by what is declared, every printed qualifier is declared. -/
theorem Owned.scoped (howned : q.Owned declaredReferences lenders) (hcheck : q.check = .ok ())
    (hcovers : Covers lenders around) : q.Scoped around := by
  induction q using inductionOnWritten generalizing lenders around with
  | step q ih =>
    obtain ⟨columns, below⟩ := howned
    refine .intro (fun owner howner qualifier hqualifier => ?_) (fun sub hsub => ?_)
    · obtain ⟨name, hname, _⟩ := Reference.standsFor_of_sql? hqualifier
      obtain ⟨s, hs, hvisible⟩ := columns owner howner (by rw [hname]; rfl)
      exact hcovers.cons q s hs owner hvisible qualifier hqualifier
    · have hwritten := (check_eq_ok_iff.mp hcheck).2 sub hsub
      rcases of_mem_writtenQueries hsub with hsub' | ⟨entry, hentry, target, htarget, honly, hsub'⟩
      · exact ih sub hsub (below sub hsub') hwritten (hcovers.cons q)
      · obtain ⟨_, hsource⟩ := below target (mem_queries_of_target? hentry htarget)
        have hq := source_isCombined_of_check_eq_ok hcheck hentry htarget
        exact ih sub hsub (hsource sub (mem_queries_of_mem_source hsub')) hwritten
          (hcovers.target hq hentry htarget honly)

section Conversion

variable {visible : Query → List Reference} {around' : List Query} {q' : Query}

/-- What is owned inside some queries is owned inside others that make as much visible. -/
theorem Owned.mono (h : q.Owned visible around)
    (haround : ∀ s ∈ around, ∀ r ∈ visible s, ∃ s' ∈ around', r ∈ visible s') :
    q.Owned visible around' := by
  induction h generalizing around' with
  | @intro around q columns below ih =>
    have hcons : ∀ s ∈ q :: around, ∀ r ∈ visible s, ∃ s' ∈ q :: around', r ∈ visible s' := by
      intro s hs r hr
      rcases List.mem_cons.mp hs with rfl | hs
      · exact ⟨s, List.mem_cons_self, hr⟩
      · obtain ⟨s', hs', hr'⟩ := haround s hs r hr
        exact ⟨s', List.mem_cons_of_mem q hs', hr'⟩
    refine .intro (fun owner howner hqualified => ?_) fun sub hsub => ih sub hsub hcons
    obtain ⟨s, hs, hr⟩ := columns owner howner hqualified
    exact hcons s hs owner hr

/-- A query whose columns and queries are those of another one, or are owned, is owned if the other
one is and makes no more visible. -/
theorem Owned.replace (h : q.Owned visible around) (hvisible : visible q = visible q')
    (howners : ∀ owner ∈ q'.owners, owner ∈ q.owners ∨ owner ∈ visible q')
    (hqueries : ∀ sub ∈ q'.queries, sub ∈ q.queries ∨ sub.Owned visible (q' :: around)) :
    q'.Owned visible around := by
  have hcons : ∀ s ∈ q :: around, ∀ r ∈ visible s, ∃ s' ∈ q' :: around, r ∈ visible s' := by
    intro s hs r hr
    rcases List.mem_cons.mp hs with rfl | hs
    · exact ⟨q', List.mem_cons_self, hvisible ▸ hr⟩
    · exact ⟨s, List.mem_cons_of_mem q' hs, hr⟩
  obtain ⟨columns, below⟩ := h
  refine .intro (fun owner howner hqualified => ?_) fun sub hsub => ?_
  · rcases howners owner howner with howner | howner
    · obtain ⟨s, hs, hr⟩ := columns owner howner hqualified
      exact hcons s hs owner hr
    · exact ⟨q', List.mem_cons_self, howner⟩
  · rcases hqueries sub hsub with hsub | hsub
    · exact (below sub hsub).mono hcons
    · exact hsub

/-- Queries over one source with one alias and the same joins declare the same references. -/
theorem declaredReferences_congr {log : List Entry} (hjoins : joins { q with log } = q.joins) :
    declaredReferences { q with log } = q.declaredReferences := by
  have htargets : log.filterMap Entry.target? = q.log.filterMap Entry.target? := by
    rw [← filterMap_target?_joins q, ← hjoins]
    exact (filterMap_target?_joins { q with log }).symm
  have hreferences : references { q with log } = q.references := by
    simp only [references, fromList, List.map_cons, htargets]
    rfl
  simp only [declaredReferences, hreferences]

/-- A subquery in the form it has in a membership test is owned if it was. -/
theorem Owned.yielding {outer : Reference} {sub : Query} {cond : Column}
    {before after : List Entry} {entry : Entry} {outerColumn innerColumn : Column}
    (hreplaced : Entry.Replaced outer sub cond before after entry outerColumn innerColumn)
    (h : sub.Owned declaredReferences around) :
    (sub.yielding (before ++ after) innerColumn).Owned declaredReferences around := by
  have hlog := hreplaced.log_eq
  have hdeclared : (sub.yielding (before ++ after) innerColumn).declaredReferences =
      sub.declaredReferences :=
    declaredReferences_congr (joins_yielding hlog hreplaced.correlates.kind_eq)
  -- the column that is yielded stands in the correlating filter
  have hentries : ∀ e ∈ (sub.yielding (before ++ after) innerColumn).log,
      e ∈ sub.log ∨ e.target? = none ∧ ∃ e' ∈ sub.log, e.leaves ⊆ e'.leaves := by
    intro e he
    rcases List.mem_append.mp he with he | he
    · have hmem := (List.mem_filter.mp he).1
      exact Or.inl (hlog ▸ ((List.sublist_cons_self entry after).append_left before).subset hmem)
    · obtain rfl := List.mem_singleton.mp he
      refine Or.inr ⟨rfl, entry, by simp [hlog], ?_⟩
      rcases hreplaced.correlates.eq_filter with rfl | rfl <;>
        simp [Entry.leaves, Column.ofBinary, Column.leaves, Base.leaves, Operand.leaves]
  refine h.replace hdeclared.symm (fun owner howner => Or.inl ?_) (fun part hpart => Or.inl ?_)
  · obtain ⟨e, he, leaf, hleaf, howner⟩ := mem_owners_iff.mp howner
    rcases hentries e he with he | ⟨_, e', he', hleaves⟩
    · exact mem_owners_iff.mpr ⟨e, he, leaf, hleaf, howner⟩
    · exact mem_owners_iff.mpr ⟨e', he', leaf, hleaves hleaf, howner⟩
  · rcases mem_queries_iff.mp hpart with hpart | ⟨e, he, hpart⟩
    · exact mem_queries_iff.mpr (Or.inl hpart)
    · rcases hentries e he with he | ⟨htarget, e', he', hleaves⟩
      · exact mem_queries_iff.mpr (Or.inr ⟨e, he, hpart⟩)
      · rw [htarget] at hpart
        rcases hpart with hpart | hpart
        · cases hpart
        · exact mem_queries_iff.mpr (Or.inr ⟨e', he', Or.inr (hleaves hpart)⟩)

/-- A query is owned after the conversion of a subquery if it was before. -/
theorem Owned.of_membership? (h : q.Owned declaredReferences around)
    (hmembership : q.membership? = some q') : q'.Owned declaredReferences around := by
  obtain ⟨before, sub, after, cond, hconverted, hlog, hcond, rfl⟩ :=
    converted?_of_membership? hmembership
  have hq : q.source.isCombined = false := (converted?_eq_some_iff.mp hconverted).1
  obtain ⟨_, first, last, entry, outerColumn, innerColumn, hreplaced⟩ :=
    Entry.replaced_of_membership? hcond
  obtain ⟨name, _, houter⟩ := hreplaced.correlates.outerColumn_drawnFrom
  have hdeclared : declaredReferences { q with log := before ++ after ++ [.filter cond] } =
      q.declaredReferences :=
    declaredReferences_congr (by simp [joins, hlog, Entry.kind])
  -- the outer column is owned by the query itself, and what it is compared with was tested
  have hleaves : (Entry.filter cond).leaves = [.named name (some q.reference),
      .query (sub.yielding (first ++ last) innerColumn)] := by
    rw [hreplaced.cond_eq, houter]
    rfl
  have hkept : ∀ e ∈ before ++ after, e ∈ q.log := by
    intro e he
    exact hlog ▸ ((List.sublist_cons_self _ after).append_left before).subset he
  refine h.replace hdeclared.symm (fun owner howner => ?_) (fun part hpart => ?_)
  · obtain ⟨e, he, leaf, hleaf, howner⟩ := mem_owners_iff.mp howner
    rcases List.mem_append.mp he with he | he
    · exact Or.inl (mem_owners_iff.mpr ⟨e, hkept e he, leaf, hleaf, howner⟩)
    · refine Or.inr ?_
      obtain rfl := List.mem_singleton.mp he
      rw [hleaves, List.mem_pair] at hleaf
      rcases hleaf with rfl | rfl
      · have hreference : owner = q.reference := by
          simp only [Leaf.owner?] at howner
          split at howner
          · cases howner
          · exact (Option.some.inj howner).symm
        rw [hdeclared, hreference]
        simp [declaredReferences, hq, references, fromList]
      · cases howner
  · rcases mem_queries_iff.mp hpart with hpart | ⟨e, he, hpart⟩
    · exact Or.inl (mem_queries_iff.mpr (Or.inl hpart))
    · rcases List.mem_append.mp he with he | he
      · exact Or.inl (mem_queries_iff.mpr (Or.inr ⟨e, hkept e he, hpart⟩))
      · refine Or.inr ?_
        obtain rfl := List.mem_singleton.mp he
        have hyielding : part = sub.yielding (first ++ last) innerColumn := by
          rw [hleaves, List.mem_pair] at hpart
          rcases hpart with hpart | hpart | hpart <;> cases hpart
          rfl
        have htested : sub ∈ q.queries := by
          refine mem_queries_iff.mpr (Or.inr ⟨.whereExists sub, by simp [hlog], Or.inr ?_⟩)
          exact List.mem_singleton_self _
        obtain ⟨_, below⟩ := h
        rw [hyielding]
        refine ((below sub htested).mono fun s hs r hr => ?_).yielding hreplaced
        rcases List.mem_cons.mp hs with rfl | hs
        · exact ⟨_, List.mem_cons_self, hdeclared ▸ hr⟩
        · exact ⟨s, List.mem_cons_of_mem _ hs, hr⟩

end Conversion

/-- If no column is owned by a set operation, unless that is the target of a join, every qualifier
in the statement of a query is declared where it is printed or around it. -/
theorem scoped_of_compile_eq_ok {sql : String} (howned : q.Owned declaredReferences [])
    (h : q.compile = .ok sql) :
    sql = Statement.text ((q.membership?.getD q).tokens 0) ++ ";" ∧
      (q.membership?.getD q).Scoped [] := by
  have hcompile : q.compile = (q.membership?.getD q).write := write_membership?_projected q
  rw [hcompile, write_eq_ok_iff] at h
  refine ⟨h.2, Owned.scoped ?_ h.1 covers_nil⟩
  cases hmembership : q.membership? with
  | none => exact howned
  | some q' => exact howned.of_membership? hmembership

/-- A table, an aliased one joined with it, and a subquery that is converted: the quoted alias is
declared by the join, and the column that is moved out of the subquery by the table. -/
theorem scoped_of_compile_eq_ok_converted :
    let t1 := ofTable "t1"
    let t3 := ofTableAs "t3" "x y"
    let matched := ((t3.column "id").combine .eq (.column (t1.column "id")))
    let q := (t1.push (.joinOn t3 matched)).whereExists selectiveMatch
    let sql := "SELECT * FROM t1 INNER JOIN t3 AS \"x y\" ON (\"x y\".id = t1.id) " ++
      "WHERE (t1.id IN (SELECT t2.id FROM t2 WHERE (t2.a = 5)));"
    q.Owned declaredReferences [] ∧ q.compile = .ok sql ∧
      sql = Statement.text ((q.membership?.getD q).tokens 0) ++ ";" ∧
      (q.membership?.getD q).Scoped [] := by
  intro t1 t3 matched q sql
  have hjoined : t3.Owned declaredReferences [q] :=
    .intro (by decide) fun sub hsub => absurd hsub List.not_mem_nil
  have htested : selectiveMatch.Owned declaredReferences [q] :=
    .intro (by decide +kernel) fun sub hsub => absurd hsub List.not_mem_nil
  have howned : q.Owned declaredReferences [] := by
    refine .intro (by decide +kernel) fun sub hsub => ?_
    have hqueries : q.queries = [t3, selectiveMatch] := rfl
    rw [hqueries, List.mem_pair] at hsub
    rcases hsub with rfl | rfl
    · exact hjoined
    · exact htested
  have hcompile : q.compile = .ok sql := by decide +kernel
  exact ⟨howned, hcompile, scoped_of_compile_eq_ok howned hcompile⟩

/-- A union under an alias, ordered by a column of its own. -/
def orderedUnion : Query :=
  let union := (combine .union (ofTable "a") (ofTable "b")).withAlias "u"
  union.push (.order (union.column "x"))

/-- The alias of a set operation is printed before its columns, and no statement declares it. -/
theorem not_forall_scoped_of_compile_eq_ok :
    (orderedUnion.Owned references [] ∧
      orderedUnion.compile = .ok "SELECT * FROM a UNION SELECT * FROM b ORDER BY u.x ASC;" ∧
      ∀ n, ¬ orderedUnion.Declares n "u") ∧
    ¬ ∀ (q : Query) (sql : String), q.Owned references [] → q.compile = .ok sql →
      (q.membership?.getD q).Scoped [] := by
  have howned : orderedUnion.Owned references [] := by
    refine .intro (by decide) fun sub hsub => ?_
    have hqueries : orderedUnion.queries = [ofTable "a", ofTable "b"] := rfl
    rw [hqueries, List.mem_pair] at hsub
    rcases hsub with rfl | rfl <;>
      exact .intro (by decide) fun sub hsub => absurd hsub List.not_mem_nil
  have hcompile : orderedUnion.compile =
      .ok "SELECT * FROM a UNION SELECT * FROM b ORDER BY u.x ASC;" := by decide +kernel
  have hundeclared : ∀ n, ¬ orderedUnion.Declares n "u" := by
    rintro n ⟨item, hitem, _⟩
    cases hitem
  refine ⟨⟨howned, hcompile, hundeclared⟩, fun hall => ?_⟩
  have hscoped : orderedUnion.Scoped [] := hall orderedUnion _ howned hcompile
  obtain ⟨columns, _⟩ := hscoped
  obtain ⟨s, hs, hdeclares⟩ := columns ⟨none, some "u"⟩ (by decide) "u" (by decide)
  obtain rfl := List.mem_singleton.mp hs
  exact hundeclared 0 (hdeclares 0)

end Query

end SqlTree
