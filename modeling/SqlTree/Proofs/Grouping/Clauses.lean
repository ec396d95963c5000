import SqlTree.Proofs.Grouping.Operands
import SqlTree.Proofs.Grouping.Paired

/-!
# The parentheses around a condition

A condition is written as it stands if a pair of parentheses is seen to enclose it, and in a pair of
its own if not. Main statement: the pair around an operator is seen exactly if what stands in it is
paired. So a condition has one pair if no alias has an apostrophe or a parenthesis in it, and an
operator may get a second pair for such an alias and keep its own one under a function.
-/

namespace SqlTree

/-- Whether the expression is an operator between its operands, with no function around it and no
test for null behind it. -/
def Column.isOperator (c : Column) : Bool :=
  c.base.isInfix && c.functions.isEmpty && c.nullTest.isNone

/-- The expression contributes the clause as a condition over rows and as one over groups. -/
structure Column.EmitsClause (c : Column) (n : Nat) (clause : String) : Prop where
  filter : (Entry.filter c).piece n = [⟨.filter, [clause]⟩]
  having : (Entry.having c).piece n = [⟨.having, [clause]⟩]

/-- The expression gets one pair of parentheses as a condition: an operator has a pair, which takes
no other one and gives way to that of a function, and anything else is put in a pair. -/
structure Column.GetsOnePair (c : Column) (n : Nat) : Prop where
  enclosed : c.isOperator = true →
    c.sql n = Text.parenthesized (c.base.body n) ∧ Text.IsBalanced (c.base.body n)
  unchanged : c.isOperator = true → c.EmitsClause n (c.sql n)
  applied : c.isOperator = true →
    ∀ f : Func, (c.applyFunc f).sql n = f.name ++ Text.parenthesized (c.base.body n)
  added : c.isOperator = false → c.EmitsClause n (Text.parenthesized (c.sql n))

/-- Names are free of marks, and the apostrophes and parentheses of each alias are paired. -/
def Demand.pairedAliases : Demand :=
  .spelled (fun aliasName => Text.IsPaired aliasName.toList) fun _ => True

namespace Text

theorem grouped_eq_self_iff {text : String} : grouped text = text ↔ isEnclosed text = true := by
  unfold grouped
  constructor
  · intro h
    by_contra henclosed
    rw [if_neg henclosed] at h
    have hlength : (parenthesized text).toList.length = text.toList.length := by rw [h]
    simp only [parenthesized, String.toList_append, List.length_append] at hlength
    have hopen : "(".toList.length = 1 := rfl
    omega
  · exact fun h => if_pos h

end Text

/-- What is written for names without marks, paired aliases and any literals is passed. -/
theorem Demand.likeness_pairedAliases :
    Likeness (Literal.mapStrings id) .pairedAliases fun s t => s = t ∧ Text.Passed s :=
  likeness_spelled Text.Passed.congruence (fun s => ⟨rfl, .string s⟩)
    (fun _ hname => ⟨rfl, hname.elim .identifier_of_isPaired .identifier⟩) fun _ _ _ _ => rfl

/-- An operator over paired aliases has a paired text. -/
theorem Base.isPaired_body {b : Base} (h : b.Meets .pairedAliases) (hop : b.isInfix = true)
    (n : Nat) : Text.IsPaired (b.body n).toList :=
  (related_body_of_isInfix Demand.likeness_pairedAliases hop false n h).2.isPaired

namespace Column

variable {c : Column}

theorem emitsClause_iff {n : Nat} {clause : String} :
    c.EmitsClause n clause ↔ Text.grouped (c.sql n) = clause := by
  constructor
  · intro h
    simpa [Entry.piece] using h.filter
  · rintro rfl
    exact ⟨by rw [Entry.piece], by rw [Entry.piece]⟩

theorem isInfix_of_isOperator (h : c.isOperator = true) : c.base.isInfix = true := by
  simp only [isOperator, Bool.and_eq_true] at h
  exact h.1.1

theorem sql_of_isOperator (h : c.isOperator = true) (n : Nat) :
    c.sql n = Text.parenthesized (c.base.body n) := by
  obtain ⟨base, functions, nullTest⟩ := c
  simp only [isOperator, Bool.and_eq_true, List.isEmpty_iff, Option.isNone_iff_eq_none] at h
  obtain ⟨⟨hop, rfl⟩, rfl⟩ := h
  exact sql_ofBase_of_isInfix hop n

theorem sql_applyFunc_of_isOperator (h : c.isOperator = true) (f : Func) (n : Nat) :
    (c.applyFunc f).sql n = f.name ++ Text.parenthesized (Text.ungrouped (c.sql n)) := by
  obtain ⟨base, functions, nullTest⟩ := c
  simp only [isOperator, Bool.and_eq_true, Option.isNone_iff_eq_none] at h
  obtain ⟨-, rfl⟩ := h
  exact sql_untested_applyFunc ⟨base, functions, none⟩ f n

/-- Only an operator is enclosed: a name and a call start with something else, and a test for null
does not end with a parenthesis. -/
theorem isEnclosed_sql_of_not_isOperator (hc : c.Meets .identifiers) (h : c.isOperator = false)
    (n : Nat) : Text.isEnclosed (c.sql n) = false := by
  rw [c.sql_eq_applied]
  cases htest : c.nullTest with
  | some test =>
    by_contra henclosed
    have hlast := Text.getLast?_of_isEnclosed (eq_true_of_ne_false henclosed)
    cases test <;> simp [NullTest.applied, NullTest.text] at hlast
  | none =>
    refine Text.isEnclosed_eq_false_of_head? ?_
    rw [NullTest.applied]
    rcases c.exists_applyFunc with hnone | ⟨d, f, rfl⟩
    · obtain ⟨base, functions, nullTest⟩ := c
      subst hnone htest
      have hop : base.isInfix = false := by simpa [isOperator] using h
      rw [untested, sql_ofBase_of_not_isInfix hop]
      cases base with
      | named name owner =>
        obtain ⟨hname, howner⟩ := (Column.meets_iff.mp hc).1 name owner rfl
        exact (Base.isName_nameSql hname howner).head?_ne
      | binary op left right =>
        obtain rfl : op = .mod := by simpa [Base.isInfix, BinaryOp.isFunction] using hop
        exact Text.head?_append_ne (BinaryOp.unmarked_symbol .mod) (by decide) _
    · rw [sql_untested_applyFunc, Func.applied]
      exact Text.head?_append_ne f.unmarked_name f.name_ne_empty _

/-- An operator is seen to be enclosed exactly if the text in its parentheses is paired. -/
theorem isEnclosed_sql_iff (h : c.isOperator = true) (n : Nat) :
    Text.isEnclosed (c.sql n) = true ↔ Text.IsPaired (c.base.body n).toList := by
  rw [sql_of_isOperator h, Text.isEnclosed_parenthesized_iff]

/-- An operator gets no second pair exactly if its own one is seen. -/
theorem getsOnePair_iff_of_isOperator (hc : c.Meets .identifiers) (h : c.isOperator = true)
    (n : Nat) : c.GetsOnePair n ↔ Text.IsPaired (c.base.body n).toList := by
  rw [← isEnclosed_sql_iff h, ← Text.grouped_eq_self_iff]
  constructor
  · exact fun hpair => emitsClause_iff.mp (hpair.unchanged h)
  · intro hgrouped
    have henclosed := Text.grouped_eq_self_iff.mp hgrouped
    have hunmarked := hc.entailed Demand.identifiers_entails_unmarkedNames
    refine ⟨fun _ => ⟨sql_of_isOperator h n, ?_⟩, fun _ => emitsClause_iff.mpr hgrouped,
      fun _ f => ?_, fun hnot => Bool.noConfusion (hnot.symm.trans h)⟩
    · exact Base.isBalanced_body (Column.meets_iff.mp hunmarked).2 (isInfix_of_isOperator h) n
    · rw [sql_of_isOperator h] at henclosed
      rw [sql_applyFunc_of_isOperator h, sql_of_isOperator h,
        Text.ungrouped_parenthesized henclosed]

/-- Whatever is no operator gets one pair. -/
theorem getsOnePair_of_not_isOperator (hc : c.Meets .identifiers) (h : c.isOperator = false)
    (n : Nat) : c.GetsOnePair n where
  enclosed hop := Bool.noConfusion (h.symm.trans hop)
  unchanged hop := Bool.noConfusion (h.symm.trans hop)
  applied hop := Bool.noConfusion (h.symm.trans hop)
  added _ := emitsClause_iff.mpr (if_neg (ne_true_of_eq_false
    (isEnclosed_sql_of_not_isOperator hc h n)))

/-- A condition gets one pair of parentheses exactly if, for an operator, the text between its own
parentheses is paired when the apostrophe is taken for the only quote. It is so if the aliases are
paired one by one, whatever the literals are. Otherwise a second pair is put around the condition,
and a function around the operator leaves the first pair where it is. -/
theorem getsOnePair_iff (hc : c.Meets .identifiers) (n : Nat) :
    (c.GetsOnePair n ↔
      (c.isOperator = true → Text.IsPaired (c.base.body n).toList)) ∧
    (c.Meets .pairedAliases → c.GetsOnePair n) ∧
    (¬ c.GetsOnePair n → c.EmitsClause n (Text.parenthesized (c.sql n)) ∧
      ∀ f : Func, (c.applyFunc f).sql n = f.name ++ Text.parenthesized (c.sql n)) := by
  cases h : c.isOperator with
  | false =>
    have hpair := getsOnePair_of_not_isOperator hc h n
    exact ⟨⟨nofun, fun _ => hpair⟩, fun _ => hpair, fun hnot => (hnot hpair).elim⟩
  | true =>
    have hiff := getsOnePair_iff_of_isOperator hc h n
    refine ⟨by simpa using hiff, fun haliases => hiff.mpr ?_, fun hnot => ?_⟩
    · exact Base.isPaired_body (Column.meets_iff.mp haliases).2 (isInfix_of_isOperator h) n
    · rw [hiff, ← isEnclosed_sql_iff h] at hnot
      refine ⟨emitsClause_iff.mpr (if_neg hnot), fun f => ?_⟩
      rw [sql_applyFunc_of_isOperator h, Text.ungrouped, if_neg hnot]

theorem meets_identifiers_aliased {table name : String} (htable : Text.isIdentifier table = true)
    (hname : Text.isIdentifier name = true) (aliasName : String) :
    ((Query.ofTableAs table aliasName).column name).Meets .identifiers := by
  refine Column.meets_iff.mpr ⟨fun _ _ hbase => ?_, trivial⟩
  cases hbase
  refine ⟨.inl hname, fun r hr other hother => ?_⟩
  cases hr
  cases hother
  exact .identifier htable

/-- Parentheses that are paired in an alias and marks in a string do no harm. -/
theorem getsOnePair_iff_bracketed :
    let t : Query := .ofTableAs "t" "x (y)"
    let cond : Column := (t.column "n").combine .ne (.literal (.string "it's (1"))
    cond.Meets .identifiers ∧ cond.Meets .pairedAliases ∧ cond.GetsOnePair 0 ∧
      (t.filter cond).bind Query.compile =
        .ok "SELECT * FROM t AS \"x (y)\" WHERE (\"x (y)\".n <> 'it''s (1');" ∧
      (cond.applyFunc (.unary .not)).compile = .ok "NOT(\"x (y)\".n <> 'it''s (1');" := by
  intro t cond
  have hidentifiers : cond.Meets .identifiers := Column.meets_ofBinary_iff.mpr
    ⟨nofun, meets_identifiers_aliased (by decide) (by decide) _, trivial⟩
  have hcolumn : (t.column "n").Meets .pairedAliases := by
    refine Column.meets_iff.mpr ⟨fun name owner hbase => ?_, trivial⟩
    cases hbase
    refine ⟨by decide, fun r hr => Option.some.inj hr ▸ ⟨fun name hname => ?_, fun a ha => ?_⟩⟩
    · exact Option.some.inj hname ▸ by decide
    · exact Option.some.inj ha ▸ by decide
  have hpaired : cond.Meets .pairedAliases :=
    Column.meets_ofBinary_iff.mpr ⟨nofun, hcolumn, trivial⟩
  exact ⟨hidentifiers, hpaired, (getsOnePair_iff hidentifiers 0).2.1 hpaired, by decide +kernel,
    by decide +kernel⟩

/-- An apostrophe in an alias hides the parentheses of an operator: the condition gets a second
pair, and a function is written around the first one. -/
theorem not_forall_getsOnePair :
    let t : Query := .ofTableAs "t" "x'"
    let cond : Column := (t.column "n").combine .eq (.literal (.int 5))
    (t.filter cond).bind Query.compile =
        .ok "SELECT * FROM t AS \"x'\" WHERE ((\"x'\".n = 5));" ∧
      (cond.applyFunc (.unary .not)).compile = .ok "NOT((\"x'\".n = 5));" ∧
      ¬ ∀ (c : Column) (n : Nat), c.Meets .identifiers → c.GetsOnePair n := by
  intro t cond
  have hcond : cond.Meets .identifiers := Column.meets_ofBinary_iff.mpr
    ⟨nofun, meets_identifiers_aliased (by decide) (by decide) _, trivial⟩
  refine ⟨by decide +kernel, by decide +kernel, fun hall => ?_⟩
  have hpaired := (getsOnePair_iff_of_isOperator hcond rfl 0).mp (hall cond 0 hcond)
  exact absurd hpaired (by decide +kernel)

end Column

end SqlTree
