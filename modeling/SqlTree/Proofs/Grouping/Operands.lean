import SqlTree.Proofs.Grouping.Unit

/-!
# What stands next to an operator

An operator between its operands is put in parentheses, a query is nested and a function makes a
call, so that an operand is read as one. A test for null is set behind an operand as it is. Main
statement: at every operator of a tree, at any depth, an operand holds together exactly if it is not
tested for null.
-/

namespace SqlTree

/-- The bounds of a range: the operands of a conjunction without functions. -/
def Operand.bounds? : Operand → Option (Operand × Operand)
  | .column ⟨.binary .and low high, [], _⟩ => some (low, high)
  | _ => none

/-- What stands to the right of a range test, each operand with the number of the first derived
table that it may name. -/
def Operand.rangeOperands (n : Nat) (side : Operand) : List (Nat × Operand) :=
  match side.bounds? with
  | some (low, high) => [(n, low), (n + low.nameCount, high)]
  | none => [(n, side)]

/-- The operands that the operators of a base stand between, unless it is written as a call. -/
def Base.infixOperands (n : Nat) : Base → List (Nat × Operand)
  | .named _ _ => []
  | .binary op left right =>
    let start := n + left.nameCount
    if op.isFunction then []
    else (n, left) :: if op = .between then right.rangeOperands start else [(start, right)]

/-- Whether the operand is tested for null. -/
def Operand.isTested : Operand → Bool
  | .column c => c.nullTest.isSome
  | .literal _ => false
  | .query _ => false

/-- Something is asked of the operands of infix operators. -/
def Demand.operands (p : Nat → Operand → Prop) : Demand :=
  { nothing with column := fun c => ∀ n, ∀ side ∈ c.base.infixOperands n, p side.1 side.2 }

/-- Columns are named by identifiers or the star, and tables by paths of identifiers. -/
def Demand.identifiers : Demand where
  query q := ∀ name, q.reference.name = some name → Text.IsPath name
  entry _ := True
  column c := ∀ name owner, c.base = .named name owner →
    (Text.isIdentifier name = true ∨ name = starName) ∧
      ∀ r, owner = some r → ∀ table, r.name = some table → Text.IsPath table
  literal _ := True

/-- The bounds of a range are joined by a conjunction. -/
theorem Operand.rangeSql_eq (side : Operand) (n : Nat) :
    side.rangeSql n =
      " AND ".intercalate ((side.rangeOperands n).map fun part => part.2.sql part.1) := by
  rcases side with ⟨base, functions, nullTest⟩ | v | q
  · cases base with
    | named name owner =>
      simp [rangeSql, Column.rangeSql, Base.isConjunction, rangeOperands, bounds?, sql, Column.sql]
    | binary op left right =>
      by_cases hand : op = .and ∧ functions = []
      · obtain ⟨rfl, rfl⟩ := hand
        simp [rangeSql, Column.rangeSql, Base.isConjunction, rangeOperands, bounds?, Base.body,
          BinaryOp.symbol, String.append_assoc]
      · have hconjunction : ((Base.binary op left right).isConjunction && functions.isEmpty) =
            false := by
          simpa [Base.isConjunction] using hand
        have hnone : (Operand.column ⟨.binary op left right, functions, nullTest⟩).bounds? =
            none := by
          unfold bounds?
          split
          · rename_i heq
            cases heq
            exact absurd ⟨rfl, rfl⟩ hand
          · rfl
        simp [rangeSql, Column.rangeSql, hconjunction, rangeOperands, hnone, sql, Column.sql]
  · simp [rangeSql, rangeOperands, bounds?, sql]
  · simp [rangeSql, rangeOperands, bounds?, sql]

/-- An infix operator is written between its operands, and these as they are. -/
theorem Base.body_eq_intercalate {op : BinaryOp} (hop : op.isFunction = false)
    (left right : Operand) (n : Nat) :
    (Base.binary op left right).body n = left.sql n ++ " " ++ op.symbol ++ " " ++
      " AND ".intercalate (((Base.binary op left right).infixOperands n).tail.map fun part =>
        part.2.sql part.1) := by
  cases op with
  | mod => cases hop
  | between => simp [body, infixOperands, BinaryOp.isFunction, Operand.rangeSql_eq]
  | _ => simp [body, infixOperands, BinaryOp.isFunction]

namespace Demand

theorem stable_identifiers : identifiers.Stable where
  query_congr q q' hreference _ hq name hname := hq name (hreference ▸ hname)
  entry_projected _ _ := trivial
  entry_yield _ := trivial
  entry_membership _ _ _ := trivial
  column_projected _ hc name owner hbase := hc name owner (Column.base_eq_of_projected hbase)
  column_star name owner hbase := by
    cases hbase
    exact ⟨.inr rfl, nofun⟩
  column_ofBinary op left right name owner hbase := by cases hbase

/-- Identifiers are free of marks. -/
theorem identifiers_entails_unmarkedNames : identifiers.Entails .unmarkedNames where
  query q hq :=
    ⟨fun name hname => ((Query.meets_iff.mp hq).1 name hname).unmarked, fun _ _ => trivial⟩
  entry _ _ _ _ _ _ _ _ := trivial
  column c hc name owner hbase := by
    obtain ⟨hname, howner⟩ := (Column.meets_iff.mp hc).1 name owner hbase
    refine ⟨?_, fun r hr => ⟨fun table htable => (howner r hr table htable).unmarked,
      fun _ _ => trivial⟩⟩
    rcases hname with hname | rfl
    · exact Text.unmarked_of_isIdentifier hname
    · decide
  literal _ _ := trivial

end Demand

/-- A column by name has a single name for its text. -/
theorem Base.isName_nameSql {name : String} {owner : Option Reference}
    (hname : Text.isIdentifier name = true ∨ name = starName)
    (howner : ∀ r, owner = some r → ∀ table, r.name = some table → Text.IsPath table) :
    Text.IsName (Base.nameSql name owner) := by
  unfold Base.nameSql
  split
  · rename_i hstar
    exact hstar ▸ .star
  · rename_i hstar
    have hname := hname.resolve_right hstar
    split
    · rename_i qualifier hqualifier
      obtain ⟨r, hr, hsql⟩ := Option.bind_eq_some_iff.mp hqualifier
      unfold Reference.sql? at hsql
      split at hsql
      · rename_i aliasName _
        obtain rfl := Option.some.inj hsql
        split
        · rename_i hplain
          exact .path (.member (.identifier (Text.isIdentifier_of_isPlainIdentifier hplain)) hname)
        · exact .aliased aliasName hname
      · exact .path (.member (howner r hr qualifier hsql) hname)
    · exact .path (.identifier hname)

/-- The operands of an operator leave the text between its parentheses balanced. -/
theorem Base.isBalanced_body {b : Base} (h : b.Meets .unmarkedNames) (hop : b.isInfix = true)
    (n : Nat) : Text.IsBalanced (b.body n) :=
  (related_body_of_isInfix Demand.likeness_unmarkedNames hop false n h).isBalanced

/-- The text of a base is an argument, if an operator is put in parentheses. -/
theorem Base.isArgument_body {b : Base} {functions : List Func} {nullTest : Option NullTest}
    (hb : (Column.mk b functions nullTest).Meets .identifiers) (n : Nat) :
    Text.IsArgument (if b.isInfix then Text.parenthesized (b.body n) else b.body n) := by
  have hunmarked := hb.entailed Demand.identifiers_entails_unmarkedNames
  rw [Column.Meets] at hb hunmarked
  cases b with
  | named name owner =>
    obtain ⟨hname, howner⟩ := hb.1 name owner rfl
    simp only [isInfix, Bool.false_eq_true, if_false, body]
    exact .name (isName_nameSql hname howner)
  | binary op left right =>
    cases op with
    | mod =>
      -- the one operator that is written as a call, with its operands between the parentheses
      have hlikeness := Demand.likeness_unmarkedNames
      have hsides := hunmarked.2
      rw [Base.Meets] at hsides
      have hleft := Operand.related_sql hlikeness left false n hsides.1
      have hright := Operand.related_sql hlikeness right false (n + left.nameCount) hsides.2
      have harguments := hlikeness.joined " , " (by decide) (by decide) hleft hright
      simp only [isInfix, BinaryOp.isFunction, beq_self_eq_true, Bool.not_true,
        Bool.false_eq_true, if_false, body]
      exact .call (by decide) harguments.isBalanced
    | _ => exact .group (isBalanced_body hunmarked.2 rfl n)

/-- A column expression that is not tested for null may be the argument of a function. -/
theorem Column.isArgument_sql {base : Base} {functions : List Func}
    (hc : (Column.mk base functions none).Meets .identifiers) (n : Nat) :
    Text.IsArgument ((Column.mk base functions none).sql n) := by
  rw [Column.sql, Column.around]
  exact (Base.isArgument_body hc n).foldl_applied functions

/-- The test for null is not seen by a demand that asks for names only. -/
theorem Column.Meets.untested {base : Base} {functions : List Func} {nullTest : Option NullTest}
    (hc : (Column.mk base functions nullTest).Meets .identifiers) :
    (Column.mk base functions none).Meets .identifiers := by
  rw [Column.Meets] at hc ⊢
  exact hc

/-- An operand holds together exactly if it is not tested for null. -/
theorem Operand.isUnit_sql_iff {side : Operand} (hside : side.Meets .identifiers) (n : Nat) :
    Text.IsUnit (side.sql n) ↔ side.isTested = false := by
  rcases side with ⟨base, functions, nullTest⟩ | v | q
  · rw [Operand.Meets] at hside
    -- the test stands behind the text of the same expression without it, which is balanced
    have hargument := (Column.isArgument_sql hside.untested n).isUnit
    cases nullTest with
    | none => simpa [isTested, sql] using hargument
    | some test =>
      have htested := Text.not_isUnit_tested hargument.isBalanced test
      simpa [isTested, sql, Column.sql, Column.around, NullTest.applied] using htested
  · simpa [isTested, sql] using Text.IsUnit.literal v
  · rw [Operand.Meets] at hside
    have htokens := Query.related_tokens Demand.likeness_unmarkedNames q false n
      (hside.entailed Demand.identifiers_entails_unmarkedNames)
    have htext := Statement.related_text Demand.likeness_unmarkedNames.toCongruence htokens
    simpa [isTested, sql, Statement.nested] using Text.IsUnit.group htext.isBalanced

theorem Operand.meets_of_mem_rangeOperands {d : Demand} {side : Operand} (hside : side.Meets d)
    {n : Nat} {part : Nat × Operand} (h : part ∈ side.rangeOperands n) : part.2.Meets d := by
  unfold rangeOperands bounds? at h
  split at h
  · rename_i low high heq
    split at heq
    · cases heq
      simp only [Operand.Meets, Column.Meets, Base.Meets] at hside
      simp only [List.mem_cons, List.not_mem_nil, or_false] at h
      rcases h with rfl | rfl
      · exact hside.2.1
      · exact hside.2.2
    · cases heq
  · obtain rfl := List.mem_singleton.mp h
    exact hside

theorem Base.meets_of_mem_infixOperands {d : Demand} {b : Base} (hb : b.Meets d) {n : Nat}
    {part : Nat × Operand} (h : part ∈ b.infixOperands n) : part.2.Meets d := by
  cases b with
  | named name owner => cases h
  | binary op left right =>
    rw [Base.Meets] at hb
    simp only [infixOperands] at h
    split at h
    · cases h
    · rcases List.mem_cons.mp h with rfl | h
      · exact hb.1
      · split at h
        · exact Operand.meets_of_mem_rangeOperands hb.2 h
        · obtain rfl := List.mem_singleton.mp h
          exact hb.2

/-- Names that are identifiers make the operands of a tree hold together, all but those tested. -/
theorem Demand.identifiers_entails_operands : identifiers.Entails (operands fun n side =>
    Text.IsUnit (side.sql n) ↔ side.isTested = false) where
  query _ _ := trivial
  entry _ _ := trivial
  column _ hc _ _ hpart :=
    Operand.isUnit_sql_iff (Base.meets_of_mem_infixOperands (Column.meets_iff.mp hc).2 hpart) _
  literal _ _ := trivial

/-- Of the operands that infix operators stand between in the statement of a query or a column, at
any depth, those hold together that are not tested for null, and no others. -/
theorem isUnit_operand_iff_of_compile_eq_ok {q : Query} {c : Column}
    (hq : q.Meets .identifiers) (hc : c.Meets .identifiers) :
    (∀ sql, q.compile = .ok sql → sql = Statement.text (q.prepared.tokens 0) ++ ";" ∧
      q.prepared.Meets (.operands fun n side =>
        Text.IsUnit (side.sql n) ↔ side.isTested = false)) ∧
    ∀ sql, c.compile = .ok sql → sql = c.projected.sql 0 ++ ";" ∧
      c.projected.Meets (.operands fun n side =>
        Text.IsUnit (side.sql n) ↔ side.isTested = false) := by
  have hentails := Demand.identifiers_entails_operands
  constructor
  · intro sql hsql
    exact ⟨(Query.write_eq_ok_iff.mp hsql).2,
      (Query.meets_prepared Demand.stable_identifiers hq).entailed hentails⟩
  · intro sql hsql
    exact ⟨(Column.compile_eq_ok_iff.mp hsql).2,
      (Column.meets_projected Demand.stable_identifiers c hc).entailed hentails⟩

theorem Column.meets_identifiers_named {table name : String}
    (htable : Text.isIdentifier table = true) (hname : Text.isIdentifier name = true)
    (nullTest : Option NullTest) :
    (Column.mk (.named name (some (Query.ofTable table).reference)) [] nullTest).Meets
      .identifiers := by
  refine Column.meets_iff.mpr ⟨fun _ _ hbase => ?_, trivial⟩
  cases hbase
  refine ⟨.inl hname, fun r hr other hother => ?_⟩
  cases hr
  cases hother
  exact .identifier htable

/-- A sum holds together in a comparison, and a column that is tested for null does not. -/
theorem isUnit_operand_iff_compared :
    let t : Query := .ofTable "t"
    let sum : Column := (t.column "a").combine .add (.literal (.int 1))
    let tested : Column := { t.column "b" with nullTest := some .isNull }
    let cond : Column := sum.combine .eq (.column tested)
    let filtered : Query := t.push (.filter cond)
    cond.Meets .identifiers ∧ cond.compile = .ok "((t.a + 1) = t.b IS NULL);" ∧
      filtered.Meets .identifiers ∧
      filtered.compile = .ok "SELECT * FROM t WHERE ((t.a + 1) = t.b IS NULL);" ∧
      filtered.prepared.Meets (.operands fun n side =>
        Text.IsUnit (side.sql n) ↔ side.isTested = false) ∧
      Text.IsUnit "(t.a + 1)" ∧ ¬ Text.IsUnit "t.b IS NULL" := by
  intro t sum tested cond filtered
  have htable : t.Meets .identifiers := by
    refine Query.meets_iff.mpr ⟨fun name hname => ?_, trivial, List.forall_mem_nil _⟩
    cases hname
    exact .identifier (by decide)
  have hsum : sum.Meets .identifiers := Column.meets_ofBinary_iff.mpr
    ⟨nofun, Column.meets_identifiers_named (by decide) (by decide) none, trivial⟩
  have htested : tested.Meets .identifiers :=
    Column.meets_identifiers_named (by decide) (by decide) (some .isNull)
  have hcond : cond.Meets .identifiers := by
    refine Column.meets_ofBinary_iff.mpr ⟨nofun, ?_, ?_⟩
    · rwa [Operand.Meets]
    · rwa [Operand.Meets]
  have hfiltered : filtered.Meets .identifiers := by
    obtain ⟨hquery, hsource, _⟩ := Query.meets_iff.mp htable
    exact Query.meets_iff.mpr ⟨hquery, hsource, List.forall_mem_singleton.mpr ⟨trivial, hcond⟩⟩
  have hexpression : cond.compile = .ok "((t.a + 1) = t.b IS NULL);" := by decide +kernel
  have hstatement : filtered.compile =
      .ok "SELECT * FROM t WHERE ((t.a + 1) = t.b IS NULL);" := by decide +kernel
  have hcompiled := isUnit_operand_iff_of_compile_eq_ok hfiltered hcond
  have hoperands := (hcompiled.2 _ hexpression).2
  have hsides := (Column.meets_iff.mp hoperands).1 0
  have hleft : Text.IsUnit ((Operand.column sum).sql 0) ↔ _ := hsides (0, .column sum)
    List.mem_cons_self
  have hright : Text.IsUnit ((Operand.column tested).sql 0) ↔ _ := hsides (0, .column tested)
    (List.mem_cons_of_mem _ List.mem_cons_self)
  have hleftText : (Operand.column sum).sql 0 = "(t.a + 1)" := by decide +kernel
  have hrightText : (Operand.column tested).sql 0 = "t.b IS NULL" := by decide +kernel
  rw [hleftText] at hleft
  rw [hrightText] at hright
  exact ⟨hcond, hexpression, hfiltered, hstatement, (hcompiled.1 _ hstatement).2,
    hleft.mpr rfl, fun hunit => Bool.noConfusion (hright.mp hunit)⟩

/-- The test for null of a compared column may be read as a test of the comparison. -/
theorem not_forall_isUnit_operand :
    let t : Query := .ofTable "t"
    let tested : Column := { t.column "b" with nullTest := some .isNull }
    let cond : Column := (t.column "a").combine .eq (.column tested)
    (t.column "b").withNullTest .isNull = .ok tested ∧
      cond.compile = .ok "(t.a = t.b IS NULL);" ∧
      (t.filter cond).bind Query.compile = .ok "SELECT * FROM t WHERE (t.a = t.b IS NULL);" ∧
      ¬ ∀ (c : Column) (sql : String), c.Meets .identifiers → c.compile = .ok sql →
        c.projected.Meets (.operands fun n side => Text.IsUnit (side.sql n)) := by
  intro t tested cond
  have hcompared : (t.column "a").Meets .identifiers :=
    Column.meets_identifiers_named (by decide) (by decide) none
  have htested : (Operand.column tested).Meets .identifiers :=
    Column.meets_identifiers_named (by decide) (by decide) (some .isNull)
  have hcond : cond.Meets .identifiers :=
    Column.meets_ofBinary_iff.mpr ⟨nofun, hcompared, htested⟩
  have hexpression : cond.compile = .ok "(t.a = t.b IS NULL);" := by decide +kernel
  refine ⟨rfl, hexpression, by decide +kernel, fun hall => ?_⟩
  have hsides := (Column.meets_iff.mp (hall cond _ hcond hexpression)).1 0
  have hright := hsides (0, .column tested) (List.mem_cons_of_mem _ List.mem_cons_self)
  exact Bool.noConfusion ((Operand.isUnit_sql_iff htested 0).mp hright)

end SqlTree
