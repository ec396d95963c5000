import SqlTree.Proofs.Builder.Call
import SqlTree.Proofs.Tree.Passes

/-!
# What the builders guarantee

The rules of the language are checked in different places: by the clauses over single rows, by the
functions of columns, by limits and by projections. The passes make entries without any check. Main
statements: a call keeps the rules at every depth of the values that it works on, and so every value
that a sequence of calls makes keeps them.
-/

namespace SqlTree

/-- The first column expression is the second or stands below its operators; the columns of
subqueries do not. -/
inductive Column.Within (part : Column) : Column → Prop where
  | refl : Within part part
  | left {inner c : Column} {op : BinaryOp} {right : Operand} (h : part.Within inner)
      (hbase : c.base = .binary op (.column inner) right) : Within part c
  | right {inner c : Column} {op : BinaryOp} {left : Operand} (h : part.Within inner)
      (hbase : c.base = .binary op left (.column inner)) : Within part c

mutual

/-- If an aggregate is applied in an expression, some expression within it carries one. -/
theorem Column.exists_within_of_containsAggregate :
    ∀ c : Column, c.containsAggregate = true →
      ∃ part : Column, part.Within c ∧ part.aggregate? ≠ none
  | ⟨base, functions, nullTest⟩, h => by
    simp only [Column.containsAggregate, Bool.or_eq_true] at h
    rcases h with hown | hbelow
    · exact ⟨_, .refl, Option.isSome_iff_ne_none.mp hown⟩
    · exact Base.exists_within_of_containsAggregate base hbelow functions nullTest

theorem Base.exists_within_of_containsAggregate :
    ∀ b : Base, b.containsAggregate = true →
      ∀ (functions : List Func) (nullTest : Option NullTest),
        ∃ part : Column, part.Within ⟨b, functions, nullTest⟩ ∧ part.aggregate? ≠ none
  | .named _ _, h, _, _ => by
    simp only [Base.containsAggregate, Bool.false_eq_true] at h
  | .binary op left right, h, functions, nullTest => by
    simp only [Base.containsAggregate, Bool.or_eq_true] at h
    rcases h with hleft | hright
    · obtain ⟨c, part, rfl, hpart, haggregate⟩ :=
        Operand.exists_within_of_containsAggregate left hleft
      exact ⟨part, .left hpart rfl, haggregate⟩
    · obtain ⟨c, part, rfl, hpart, haggregate⟩ :=
        Operand.exists_within_of_containsAggregate right hright
      exact ⟨part, .right hpart rfl, haggregate⟩

theorem Operand.exists_within_of_containsAggregate :
    ∀ side : Operand, side.containsAggregate = true →
      ∃ c part : Column, side = .column c ∧ part.Within c ∧ part.aggregate? ≠ none
  | .column c, h => by
    simp only [Operand.containsAggregate] at h
    obtain ⟨part, hpart, haggregate⟩ := Column.exists_within_of_containsAggregate c h
    exact ⟨c, part, rfl, hpart, haggregate⟩
  | .literal _, h => by simp only [Operand.containsAggregate, Bool.false_eq_true] at h
  | .query _, h => by simp only [Operand.containsAggregate, Bool.false_eq_true] at h

end

/-- An expression that carries an aggregate somewhere within contains it. -/
theorem Column.Within.containsAggregate {part c : Column} (h : part.Within c)
    (haggregate : part.aggregate? ≠ none) : c.containsAggregate = true := by
  induction h with
  | refl =>
    obtain ⟨base, functions, nullTest⟩ := part
    have hown : (functions.findSome? Func.aggregate?).isSome = true :=
      Option.isSome_iff_ne_none.mpr haggregate
    simp only [Column.containsAggregate, hown, Bool.true_or]
  | @left _ c _ _ _ hbase ih =>
    obtain ⟨base, functions, nullTest⟩ := c
    simp only at hbase
    simp only [hbase, Column.containsAggregate, Base.containsAggregate, Operand.containsAggregate,
      ih, Bool.true_or, Bool.or_true]
  | @right _ c _ _ _ hbase ih =>
    obtain ⟨base, functions, nullTest⟩ := c
    simp only at hbase
    simp only [hbase, Column.containsAggregate, Base.containsAggregate, Operand.containsAggregate,
      ih, Bool.or_true]

/-- No aggregate is applied in an expression exactly when no expression within it carries one. -/
theorem Column.containsAggregate_eq_false_iff {c : Column} :
    c.containsAggregate = false ↔ ∀ part : Column, part.Within c → part.aggregate? = none := by
  constructor
  · intro h part hpart
    by_contra haggregate
    rw [hpart.containsAggregate haggregate] at h
    cases h
  · intro h
    by_contra hne
    obtain ⟨part, hpart, haggregate⟩ :=
      c.exists_within_of_containsAggregate (eq_true_of_ne_false hne)
    exact haggregate (h part hpart)

/-- The expression of an entry that is evaluated for single rows. -/
def Entry.rowExpression? : Entry → Option Column
  | .filter c | .group c | .order c | .joinOn _ c => some c
  | .select _ | .whereExists _ | .having _ | .join _ => none

/-- An entry over single rows holds no aggregate, and a projection is of something. -/
structure Entry.KeepsRules (entry : Entry) : Prop where
  aggregate?_eq_none : ∀ c, entry.rowExpression? = some c →
    ∀ part : Column, part.Within c → part.aggregate? = none
  ne_select_nil : entry ≠ .select []

/-- An expression carries at most one aggregate and no function of one value twice. -/
structure Column.KeepsRules (c : Column) : Prop where
  one_aggregate : (c.functions.filterMap Func.aggregate?).length ≤ 1
  unaries_nodup : c.unaries.Nodup

/-- The rules of the language. A limit is at most the largest position, 2^63 - 1. -/
def Demand.rules : Demand where
  query q := ∀ n, q.limit = some n → Int.ofNat n ≤ Int64.maxValue.toInt
  entry := Entry.KeepsRules
  column := Column.KeepsRules
  literal _ := True

/-- Whether an entry keeps the rules is told by the test that the clauses make. -/
theorem Entry.keepsRules_iff {entry : Entry} :
    entry.KeepsRules ↔
      (∀ c, entry.rowExpression? = some c → c.containsAggregate = false) ∧
        entry ≠ .select [] := by
  simp only [Column.containsAggregate_eq_false_iff]
  exact ⟨fun h => ⟨h.1, h.2⟩, fun h => ⟨h.1, h.2⟩⟩

theorem Entry.rowExpression?_projected (entry : Entry) :
    entry.projected.rowExpression? = entry.rowExpression?.map Column.projected := by
  cases entry <;> simp [Entry.projected, rowExpression?]

/-- Explicit projections leave an entry that keeps the rules as one that does. -/
theorem Entry.KeepsRules.projected {entry : Entry} (h : entry.KeepsRules) :
    entry.projected.KeepsRules := by
  rw [keepsRules_iff] at h ⊢
  rw [rowExpression?_projected]
  constructor
  · intro c hc
    obtain ⟨c', hc', rfl⟩ := Option.map_eq_some_iff.mp hc
    rw [Column.containsAggregate_projected]
    exact h.1 c' hc'
  · intro he
    cases entry with
    | select items =>
      simp only [Entry.projected, Projection.projectedItems_eq_map, Entry.select.injEq,
        List.map_eq_nil_iff] at he
      exact h.2 (he ▸ rfl)
    | _ => simp [Entry.projected] at he

/-- An expression without functions keeps the rules. -/
theorem Column.keepsRules_of_functions_eq_nil {c : Column} (h : c.functions = []) :
    c.KeepsRules := by
  constructor <;> simp [unaries, h]

theorem Column.functions_projected (c : Column) : c.projected.functions = c.functions := by
  cases c
  simp only [Column.projected]

theorem Column.containsAggregate_of_isBare {c : Column} (h : c.isBare = true) :
    c.containsAggregate = false := by
  obtain ⟨base, functions, nullTest⟩ := c
  cases base with
  | named name owner =>
    simp only [isBare, Bool.and_eq_true, List.isEmpty_iff] at h
    simp [containsAggregate, Base.containsAggregate, h.1.1.2]
  | binary op left right => simp [isBare, Base.binary?] at h

/-- The passes cannot break the rules: the entries and columns that they make anew keep them. -/
theorem Demand.stable_rules : Demand.rules.Stable where
  query_congr _ _ _ hlimit h n hn := h n (hlimit ▸ hn)
  entry_projected _ h := h.projected
  entry_yield _ := ⟨fun _ hc => (nomatch hc), by simp⟩
  entry_membership c values hc := by
    refine Entry.keepsRules_iff.mpr ⟨fun cond hcond => ?_, by simp⟩
    cases hcond
    simp [Column.combine, Column.ofBinary, Column.containsAggregate, Base.containsAggregate,
      Operand.containsAggregate, Column.containsAggregate_of_isBare hc]
  column_projected c h := by
    constructor
    · rw [Column.functions_projected]
      exact h.one_aggregate
    · rw [Column.unaries, Column.functions_projected]
      exact h.unaries_nodup
  column_star := Column.keepsRules_of_functions_eq_nil rfl
  column_ofBinary _ _ _ := Column.keepsRules_of_functions_eq_nil rfl

namespace Column

/-- A column by name keeps the rules. -/
theorem meets_rules_named (name : String) (owner : Option Reference) :
    (⟨.named name owner, [], none⟩ : Column).Meets .rules :=
  meets_iff.mpr ⟨keepsRules_of_functions_eq_nil rfl, trivial⟩

/-- Operands that keep the rules do so under an operator. -/
theorem meets_rules_ofBinary {op : BinaryOp} {left right : Operand} (hleft : left.Meets .rules)
    (hright : right.Meets .rules) : (ofBinary op left right).Meets .rules :=
  meets_ofBinary_iff.mpr ⟨keepsRules_of_functions_eq_nil rfl, hleft, hright⟩

/-- A test for null breaks no rule. -/
theorem meets_rules_withNullTest {c : Column} {nullTest : Option NullTest}
    (hc : c.Meets .rules) : { c with nullTest := nullTest }.Meets .rules := by
  rw [meets_iff] at hc ⊢
  exact ⟨⟨hc.1.one_aggregate, hc.1.unaries_nodup⟩, hc.2⟩

/-- A first aggregate breaks no rule. -/
theorem meets_rules_applyFunc_aggregate {c : Column} {f : Aggregate} (hc : c.Meets .rules)
    (h : c.aggregate? = none) : (c.applyFunc (.aggregate f)).Meets .rules := by
  rw [meets_iff] at hc ⊢
  refine ⟨⟨?_, ?_⟩, hc.2⟩
  · have hnone : c.functions.filterMap Func.aggregate? = [] :=
      List.filterMap_eq_nil_iff.mpr (List.findSome?_eq_none_iff.mp h)
    simp [applyFunc, hnone, Func.aggregate?]
  · simpa [applyFunc, unaries, List.filterMap_cons, Func.unary?] using hc.1.unaries_nodup

/-- A function of one value that was not applied before breaks no rule. -/
theorem meets_rules_applyFunc_unary {c : Column} {f : Unary} (hc : c.Meets .rules)
    (h : .unary f ∉ c.functions) : (c.applyFunc (.unary f)).Meets .rules := by
  rw [meets_iff] at hc ⊢
  refine ⟨⟨?_, ?_⟩, hc.2⟩
  · simpa [applyFunc, List.filterMap_cons, Func.aggregate?] using hc.1.one_aggregate
  · have hnew : f ∉ c.unaries := by
      intro hf
      obtain ⟨g, hg, hgf⟩ := List.mem_filterMap.mp hf
      cases g with
      | aggregate g => cases hgf
      | unary g =>
        cases hgf
        exact h hg
    have hunaries : (c.applyFunc (.unary f)).unaries = c.unaries ++ [f] := by
      simp [applyFunc, unaries, Func.unary?]
    rw [hunaries]
    exact List.nodup_append.mpr ⟨hc.1.unaries_nodup, List.pairwise_singleton _ f,
      fun a ha b hb => by
        rw [List.mem_singleton.mp hb]
        exact fun he => hnew (he ▸ ha)⟩

/-- An expression that was given an aggregate keeps the rules. -/
theorem meets_rules_of_withAggregate_eq_ok {c c' : Column} {f : Aggregate}
    (h : c.withAggregate f = .ok c') (hc : c.Meets .rules) : c'.Meets .rules := by
  obtain ⟨hnone, rfl⟩ := withAggregate_eq_ok_iff.mp h
  exact meets_rules_applyFunc_aggregate hc hnone

/-- An expression that was given a function of one value keeps the rules. -/
theorem meets_rules_of_withUnary_eq_ok {c c' : Column} {f : Unary}
    (h : c.withUnary f = .ok c') (hc : c.Meets .rules) : c'.Meets .rules := by
  obtain ⟨hnew, rfl⟩ := withUnary_eq_ok_iff.mp h
  exact meets_rules_applyFunc_unary hc hnew

end Column

namespace Query

/-- A query over a source that keeps the rules does so. -/
theorem meets_rules_ofSource {source : Source} (h : source.Meets .rules) :
    (ofSource source).Meets .rules := by
  refine meets_iff.mpr ⟨?_, h, List.forall_mem_nil _⟩
  intro n hn
  cases hn

/-- A query with the rows, the log and the limit of one that keeps the rules does so. -/
theorem Meets.congr_rules {q q' : Query} (h : q.Meets .rules) (hsource : q'.source = q.source)
    (hlog : q'.log = q.log) (hlimit : q'.limit = q.limit) : q'.Meets .rules := by
  rw [meets_iff] at h ⊢
  rw [hsource, hlog]
  exact ⟨fun n hn => h.1 n (hlimit ▸ hn), h.2⟩

/-- An entry that keeps the rules may be logged. -/
theorem meets_rules_push {q : Query} {entry : Entry} (hq : q.Meets .rules)
    (hentry : entry.Meets .rules) : (q.push entry).Meets .rules := by
  rw [meets_iff] at hq ⊢
  refine ⟨hq.1, hq.2.1, ?_⟩
  rw [push, List.forall_mem_append, List.forall_mem_singleton]
  exact ⟨hq.2.2, hentry⟩

/-- Expressions that keep the rules may be projected. -/
theorem meets_rules_select {q : Query} {items : List Projection} (hq : q.Meets .rules)
    (hitems : ∀ item ∈ items, item.expr.Meets .rules) : (q.select items).Meets .rules := by
  unfold select
  split
  · exact hq
  · rename_i hne
    refine meets_rules_push hq ⟨⟨fun _ hc => (nomatch hc), fun he => ?_⟩, ?_⟩
    · cases he
      exact hne rfl
    · exact Projection.allMeet_iff.mpr hitems

/-- A limit set by a signed number is at most the largest one. -/
theorem meets_rules_of_take_eq_ok {q q' : Query} {n : Int64} (h : q.take n = .ok q')
    (hq : q.Meets .rules) : q'.Meets .rules := by
  obtain ⟨_, hn, rfl⟩ := take_eq_ok_iff.mp h
  rw [meets_iff] at hq ⊢
  refine ⟨fun limit hlimit => ?_, hq.2⟩
  cases hlimit
  have hmax := n.toInt_le
  rw [Int.ofNat_eq_natCast, Int.toNat_of_nonneg hn]
  exact hmax

end Query

/-- An entry over single rows keeps the rules if no aggregate is applied in its expression. -/
theorem Entry.keepsRules_of_rowExpression? {entry : Entry} {c : Column}
    (hentry : entry.rowExpression? = some c) (hc : c.containsAggregate = false) :
    entry.KeepsRules := by
  refine keepsRules_iff.mpr ⟨fun c' hc' => ?_, ?_⟩
  · cases hentry.symm.trans hc'
    exact hc
  · rintro rfl
    cases hentry

/-- An entry over groups or over whole queries keeps the rules. -/
theorem Entry.keepsRules_of_kind {entry : Entry} (hentry : entry.rowExpression? = none)
    (hkind : entry.kind ≠ .select) : entry.KeepsRules where
  aggregate?_eq_none _ hc := by
    rw [hentry] at hc
    cases hc
  ne_select_nil he := by
    subst he
    exact hkind rfl

/-- What a call makes of expressions and queries that keep the rules keeps them. -/
theorem Column.Call.meets_rules_of_result {call : Column.Call} {c : Column}
    (harguments : ∀ argument ∈ call.arguments, argument.Meets .rules)
    (h : call.result = .ok c) : c.Meets .rules := by
  cases call with
  | named name =>
    cases h
    exact meets_rules_named name none
  | star =>
    cases h
    exact meets_rules_named starName none
  | drawn q name =>
    cases h
    exact meets_rules_named name (some q.reference)
  | rowCount q =>
    cases h
    exact meets_rules_applyFunc_aggregate (meets_rules_named starName (some q.reference)) rfl
  | binary op left right =>
    cases h
    simp only [arguments, List.forall_mem_cons] at harguments
    exact meets_rules_ofBinary harguments.1 harguments.2.1
  | binaryToken token left right =>
    simp only [arguments, List.forall_mem_cons] at harguments
    obtain ⟨op, _, rfl⟩ := ofBinaryToken_eq_ok_iff.mp h
    exact meets_rules_ofBinary harguments.1 harguments.2.1
  | combine c op other =>
    cases h
    simp only [arguments, List.forall_mem_cons] at harguments
    exact meets_rules_ofBinary harguments.1 harguments.2.1
  | combineToken c token other =>
    simp only [arguments, List.forall_mem_cons] at harguments
    obtain ⟨op, _, rfl⟩ := ofBinaryToken_eq_ok_iff.mp h
    exact meets_rules_ofBinary harguments.1 harguments.2.1
  | between c low high =>
    cases h
    simp only [arguments, List.forall_mem_cons] at harguments
    have hbounds : (Operand.column (ofBinary .and low high)).Meets .rules := by
      simpa only [Operand.Meets] using meets_rules_ofBinary harguments.2.1 harguments.2.2.1
    exact meets_rules_ofBinary harguments.1 hbounds
  | aggregate c f =>
    simp only [arguments, List.forall_mem_cons, Operand.Meets] at harguments
    exact meets_rules_of_withAggregate_eq_ok h harguments.1
  | aggregateToken c token =>
    simp only [arguments, List.forall_mem_cons, Operand.Meets] at harguments
    obtain ⟨f, _, hf⟩ := withAggregateToken_eq_ok_iff.mp h
    exact meets_rules_of_withAggregate_eq_ok hf harguments.1
  | unary c f =>
    simp only [arguments, List.forall_mem_cons, Operand.Meets] at harguments
    exact meets_rules_of_withUnary_eq_ok h harguments.1
  | unaryToken c token =>
    simp only [arguments, List.forall_mem_cons, Operand.Meets] at harguments
    obtain ⟨f, _, hf⟩ := withUnaryToken_eq_ok_iff.mp h
    exact meets_rules_of_withUnary_eq_ok hf harguments.1
  | nullTest c test =>
    simp only [arguments, List.forall_mem_cons, Operand.Meets] at harguments
    obtain ⟨_, rfl⟩ := withNullTest_eq_ok_iff.mp h
    exact meets_rules_withNullTest harguments.1
  | projected c =>
    cases h
    simp only [arguments, List.forall_mem_cons, Operand.Meets] at harguments
    exact meets_projected Demand.stable_rules c harguments.1

/-- What a call makes of expressions and queries that keep the rules keeps them. -/
theorem Query.Call.meets_rules_of_result {call : Query.Call} {q : Query}
    (harguments : ∀ argument ∈ call.arguments, argument.Meets .rules)
    (h : call.result = .ok q) : q.Meets .rules := by
  cases call with
  | table name =>
    cases h
    exact meets_rules_ofSource trivial
  | tableAs name aliasName =>
    cases h
    have hsource : (Source.named name).Meets .rules := trivial
    exact (meets_rules_ofSource hsource).congr_rules rfl rfl rfl
  | derived q =>
    cases h
    simp only [arguments, List.forall_mem_cons, Operand.Meets] at harguments
    have hsource : (Source.derived q).Meets .rules := by
      simpa only [Source.Meets] using harguments.1
    exact (meets_rules_ofSource hsource).congr_rules rfl rfl rfl
  | combined op left right =>
    cases h
    simp only [arguments, List.forall_mem_cons, Operand.Meets] at harguments
    have hsource : (Source.combined op left right).Meets .rules := by
      simpa only [Source.Meets] using ⟨harguments.1, harguments.2.1⟩
    exact (meets_rules_ofSource hsource).congr_rules rfl rfl rfl
  | withAlias q aliasName =>
    cases h
    simp only [arguments, List.forall_mem_cons, Operand.Meets] at harguments
    exact harguments.1.congr_rules rfl rfl rfl
  | withDriver q driver =>
    cases h
    simp only [arguments, List.forall_mem_cons, Operand.Meets] at harguments
    exact harguments.1.congr_rules rfl rfl rfl
  | select q items =>
    cases h
    simp only [arguments, List.forall_mem_cons, List.forall_mem_map, Operand.Meets] at harguments
    exact meets_rules_select harguments.1 harguments.2
  | selectColumns q columns =>
    cases h
    simp only [arguments, List.forall_mem_cons, List.forall_mem_map, Operand.Meets] at harguments
    refine meets_rules_select harguments.1 ?_
    simpa only [List.forall_mem_map, Operand.Meets] using harguments.2
  | selectAs q aliasName c =>
    cases h
    simp only [arguments, List.forall_mem_cons, Operand.Meets] at harguments
    refine meets_rules_select harguments.1 ?_
    simpa only [List.forall_mem_singleton, Operand.Meets] using harguments.2.1
  | filter q cond =>
    simp only [arguments, List.forall_mem_cons, Operand.Meets] at harguments
    obtain ⟨hcond, rfl⟩ := Column.forClause_bind_eq_ok_iff.mp h
    exact meets_rules_push harguments.1
      ⟨Entry.keepsRules_of_rowExpression? rfl hcond, harguments.2.1⟩
  | whereExists q sub =>
    cases h
    simp only [arguments, List.forall_mem_cons, Operand.Meets] at harguments
    exact meets_rules_push harguments.1 ⟨Entry.keepsRules_of_kind rfl nofun, harguments.2.1⟩
  | groupBy q c =>
    simp only [arguments, List.forall_mem_cons, Operand.Meets] at harguments
    obtain ⟨hc, rfl⟩ := Column.forClause_bind_eq_ok_iff.mp h
    exact meets_rules_push harguments.1
      ⟨Entry.keepsRules_of_rowExpression? rfl hc, harguments.2.1⟩
  | having q cond =>
    cases h
    simp only [arguments, List.forall_mem_cons, Operand.Meets] at harguments
    exact meets_rules_push harguments.1 ⟨Entry.keepsRules_of_kind rfl nofun, harguments.2.1⟩
  | orderBy q c =>
    simp only [arguments, List.forall_mem_cons, Operand.Meets] at harguments
    obtain ⟨hc, rfl⟩ := Column.forClause_bind_eq_ok_iff.mp h
    exact meets_rules_push harguments.1
      ⟨Entry.keepsRules_of_rowExpression? rfl hc, harguments.2.1⟩
  | join q target =>
    cases h
    simp only [arguments, List.forall_mem_cons, Operand.Meets] at harguments
    exact meets_rules_push harguments.1 ⟨Entry.keepsRules_of_kind rfl nofun, harguments.2.1⟩
  | joinOn q target cond =>
    simp only [arguments, List.forall_mem_cons, Operand.Meets] at harguments
    obtain ⟨hcond, rfl⟩ := Column.forClause_bind_eq_ok_iff.mp h
    exact meets_rules_push harguments.1
      ⟨Entry.keepsRules_of_rowExpression? rfl hcond, harguments.2.1, harguments.2.2.1⟩
  | take q n =>
    simp only [arguments, List.forall_mem_cons, Operand.Meets] at harguments
    exact meets_rules_of_take_eq_ok h harguments.1
  | dedup q =>
    cases h
    simp only [arguments, List.forall_mem_cons, Operand.Meets] at harguments
    exact harguments.1.congr_rules rfl rfl rfl
  | reverse q =>
    cases h
    simp only [arguments, List.forall_mem_cons, Operand.Meets] at harguments
    exact harguments.1.congr_rules rfl rfl rfl
  | row q position =>
    simp only [arguments, List.forall_mem_cons, Operand.Meets] at harguments
    have hreversed : q.reverse.Meets .rules := harguments.1.congr_rules rfl rfl rfl
    rcases take_of_row_eq_ok h with hfirst | hlast
    · exact meets_rules_of_take_eq_ok hfirst harguments.1
    · exact meets_rules_of_take_eq_ok hlast hreversed
  | rows q first last =>
    simp only [arguments, List.forall_mem_cons, Operand.Meets] at harguments
    have hreversed : q.reverse.Meets .rules := harguments.1.congr_rules rfl rfl rfl
    obtain ⟨n, hleading | htrailing⟩ := take_of_rows_eq_ok h
    · exact meets_rules_of_take_eq_ok hleading harguments.1
    · exact meets_rules_of_take_eq_ok htrailing hreversed
  | projected q =>
    cases h
    simp only [arguments, List.forall_mem_cons, Operand.Meets] at harguments
    exact meets_projected Demand.stable_rules q harguments.1
  | converted q =>
    cases h
    simp only [arguments, List.forall_mem_cons, Operand.Meets] at harguments
    exact meets_getD_membership? Demand.stable_rules harguments.1

/-- What a call makes of values that keep the rules keeps them. -/
theorem Call.meets_rules_of_result {call : Call} {value : Operand}
    (harguments : ∀ argument ∈ call.arguments, argument.Meets .rules)
    (h : call.result = .ok value) : value.Meets .rules := by
  cases call with
  | literal v =>
    cases h
    trivial
  | column call =>
    obtain ⟨c, hc, rfl⟩ := Except.map_eq_ok_iff.mp h
    simpa only [Operand.Meets] using Column.Call.meets_rules_of_result harguments hc
  | query call =>
    obtain ⟨q, hq, rfl⟩ := Except.map_eq_ok_iff.mp h
    simpa only [Operand.Meets] using Query.Call.meets_rules_of_result harguments hq

/-- Whatever a sequence of calls makes keeps the rules of the language at every depth. -/
theorem Made.forall_meets_rules {made : List Operand} (h : Made made) :
    ∀ value ∈ made, value.Meets .rules := by
  induction h with
  | start => exact List.forall_mem_nil _
  | @call made call _ harguments ih =>
    unfold Call.after
    cases hresult : call.result with
    | error e => exact ih
    | ok value =>
      have hvalue := Call.meets_rules_of_result
        (fun argument hargument => ih argument (harguments argument hargument)) hresult
      exact List.forall_mem_cons.mpr ⟨hvalue, ih⟩

/-- The rules hold of a query that projects a sum and of the values that it is made of. A second
aggregate over the sum fails, as does a filter by the sum, and neither adds a value. -/
theorem Made.meets_rules_totals :
    let n : Column := .ofName "n"
    let sum : Column := n.applyFunc (.aggregate .sum)
    let orders : Query := .ofTable "orders"
    let totals : List Operand :=
      [.query (orders.select [⟨.column sum, none⟩]), .query orders, .column sum, .column n]
    Call.after totals (.column (.aggregate sum .max)) = totals ∧
      Call.after totals (.query (.filter orders sum)) = totals ∧
      Made totals ∧ ∀ value ∈ totals, value.Meets .rules := by
  intro n sum orders totals
  have hn : Made [.column n] :=
    @Made.call [] (.column (.named "n")) .start (List.forall_mem_nil _)
  have hsum : Made [.column sum, .column n] :=
    @Made.call _ (.column (.aggregate n .sum)) hn
      (by simp [Call.arguments, Column.Call.arguments])
  have horders : Made [.query orders, .column sum, .column n] :=
    @Made.call _ (.query (.table "orders")) hsum (List.forall_mem_nil _)
  have htotals : Made totals :=
    @Made.call _ (.query (.select orders [⟨.column sum, none⟩])) horders
      (by simp [Call.arguments, Query.Call.arguments])
  exact ⟨rfl, rfl, htotals, forall_meets_rules htotals⟩

end SqlTree
