import SqlTree.Proofs.Membership.Qualifying
import SqlTree.Proofs.Semantics.Scope
import SqlTree.Query.Compile

/-!
# What the outer column refers to

Inside a subquery a column of the outer query refers to it only if no table of the subquery has the
same qualifier. Conversion compares names and aliases together and looks at the source of the
subquery only. Main statements: that is enough exactly when neither source has an alias and no join
brings the qualifier in again, and the outer column refers to the outer query exactly when no table
of the subquery has its qualifier.
-/

namespace SqlTree

/-- Two references without an alias have the same qualifier only if they are the same. -/
theorem Reference.qualifier_ne_of_ne {r s : Reference} (hne : r ≠ s) (hr : r.aliasName = none)
    (hs : s.aliasName = none) : s.qualifier ≠ r.qualifier := by
  obtain ⟨name, aliasName⟩ := r
  obtain ⟨other, aliasName'⟩ := s
  simp only at hr hs
  subst hr hs
  intro h
  have hname : other = name := h
  exact hne (hname ▸ rfl)

/-- The tables of a statement are its own source and the targets of its joins. -/
theorem Query.forall_mem_fromList_iff {q : Query} {p : Query → Prop} :
    (∀ table ∈ q.fromList, p table) ↔
      p q ∧ ∀ target ∈ q.log.filterMap Entry.target?, p target :=
  List.forall_mem_cons

/-- A qualifying subquery leaves the outer qualifier alone exactly when an alias makes no difference
to its own and no join brings the outer one in. -/
theorem Query.Qualifies.forall_mem_fromList_iff {root sub : Query}
    (h : sub.Qualifies root.reference) :
    (∀ table ∈ sub.fromList, table.reference.qualifier ≠ root.reference.qualifier) ↔
      (root.aliasName = none ∧ sub.aliasName = none ∨
        sub.reference.qualifier ≠ root.reference.qualifier) ∧
      ∀ target ∈ sub.log.filterMap Entry.target?,
        target.reference.qualifier ≠ root.reference.qualifier := by
  rw [Query.forall_mem_fromList_iff]
  refine and_congr_left fun _ => ⟨Or.inr, ?_⟩
  rintro (⟨hroot, hsub⟩ | hne)
  · exact Reference.qualifier_ne_of_ne h.ne hroot hsub
  · exact hne

/-- Seen from a qualifying subquery, the outer qualifier belongs to the outer query exactly when no
table of the subquery has it. -/
theorem Query.Qualifies.innermost?_eq_some_iff {root sub : Query} {name : String}
    (h : sub.Qualifies root.reference) (hname : root.reference.qualifier = some name) :
    innermost? Query.declaredNames [sub, root] name = some root ↔
      ∀ table ∈ sub.fromList, table.reference.qualifier ≠ root.reference.qualifier := by
  have hne : sub ≠ root := fun he => h.ne (congrArg reference he.symm)
  rw [innermost?_pair_eq_some_iff hne (qualifier_mem_declaredNames hname), mem_declaredNames_iff,
    hname]
  simp only [not_exists, not_and, ne_eq]

/-- The converted subqueries of a query have no table under its qualifier exactly when an alias
makes no difference to the first one that qualifies and no join of it brings the qualifier in. The
column that is moved out of such a subquery refers to the outer query exactly then. -/
theorem Query.forall_converts_qualifier_ne_iff (root : Query) :
    ((∀ sub, root.Converts sub →
        ∀ table ∈ sub.fromList, table.reference.qualifier ≠ root.reference.qualifier) ↔
      root.source.isCombined = true ∨ ∀ sub, root.FirstQualifying sub →
        (root.aliasName = none ∧ sub.aliasName = none ∨
          sub.reference.qualifier ≠ root.reference.qualifier) ∧
        ∀ target ∈ sub.log.filterMap Entry.target?,
          target.reference.qualifier ≠ root.reference.qualifier) ∧
    ∀ sub, root.Converts sub → ∀ outerColumn : Column, outerColumn.DrawnFrom root.reference →
      (outerColumn.qualifier?.bind (innermost? Query.declaredNames [sub, root]) = some root ↔
        ∀ table ∈ sub.fromList, table.reference.qualifier ≠ root.reference.qualifier) := by
  constructor
  · simp only [converts_iff]
    cases root.source.isCombined with
    | true => simp
    | false =>
      simp only [true_and, Bool.false_eq_true, false_or]
      exact forall_congr' fun sub =>
        forall_congr' fun hfirst => hfirst.qualifies.forall_mem_fromList_iff
  · rintro sub hsub outerColumn ⟨column, _, rfl⟩
    have hqualifies := (converts_iff.mp hsub).2.qualifies
    obtain ⟨name, hname⟩ := Option.isSome_iff_exists.mp hqualifies.outer_qualified
    have hqualifier : (Column.ownedBy root.reference column).qualifier? = some name := hname
    rw [hqualifier, Option.bind_some]
    exact hqualifies.innermost?_eq_some_iff hname

/-- The rows of `t2` under the name of the table outside, matched by a column of that table. -/
def Query.shadowingMatch : Query :=
  let inner := Query.ofTableAs "t2" "t1"
  { inner with
    log := [.filter ((inner.column "a").combine .eq (.literal (.int 5))),
      .filter ((inner.column "id").combine .eq
        (.column ((Query.ofTable "t1").column "pid")))] }

/-- The rows of `t1` that have such a match. -/
def Query.withShadowingMatch : Query := (Query.ofTable "t1").whereExists shadowingMatch

/-- A subquery under the outer qualifier is converted: `t1.pid` belonged to `t2` inside of it and
belongs to the table `t1` after that. -/
theorem Query.not_forall_converts_qualifier_ne :
    (withShadowingMatch.Converts shadowingMatch ∧
      shadowingMatch.reference.qualifier = withShadowingMatch.reference.qualifier ∧
      withShadowingMatch.compile = .ok
        "SELECT * FROM t1 WHERE (t1.pid IN (SELECT t1.id FROM t2 AS \"t1\" WHERE (t1.a = 5)));") ∧
    ¬ ∀ root sub : Query, root.Converts sub →
      ∀ table ∈ sub.fromList, table.reference.qualifier ≠ root.reference.qualifier := by
  have hconverts : withShadowingMatch.Converts shadowingMatch := ⟨by decide, rfl⟩
  have hsame : shadowingMatch.reference.qualifier = withShadowingMatch.reference.qualifier := rfl
  refine ⟨⟨hconverts, hsame, by decide +kernel⟩, fun h => ?_⟩
  exact h _ _ hconverts _ List.mem_cons_self hsame

end SqlTree
