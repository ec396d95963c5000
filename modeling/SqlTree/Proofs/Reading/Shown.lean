import SqlTree.Proofs.Builder.Wrapping
import SqlTree.Proofs.Reading.Opening

/-!
# What the text of an expression shows

An owner is written by its qualifier, concatenation is written as addition, and the bounds of a
range test are written without the test for null of their conjunction. Main statements: expressions
over plain names, integers and strings have the same text as what is left of them after these three
are forgotten, and equal names in the text are names of the same column.
-/

namespace SqlTree

/-- The name of a column and of its owner, if it has one, are plain identifiers. -/
structure PlainName (name : String) (owner : Option Reference) : Prop where
  name : Text.isPlainIdentifier name = true
  owner : ∀ r, owner = some r →
    ∃ qualifier, r.qualifier = some qualifier ∧ Text.isPlainIdentifier qualifier = true

/-- Whether the literal is an integer or a string. -/
def Literal.isBasic : Literal → Bool
  | .int _ | .string _ => true
  | _ => false

/-- Expressions are made of plain names, integers and strings, and there are no queries in them. -/
def Demand.basic : Demand where
  query _ := False
  entry _ := False
  column c := ∀ name owner, c.base = .named name owner → PlainName name owner
  literal v := v.isBasic = true

/-- There are no queries in what is basic. -/
theorem Query.not_meets_basic (q : Query) : ¬ q.Meets .basic := fun h => (meets_iff.mp h).1

/-- Functions and tests make no difference to what is basic. -/
theorem Column.Meets.of_base_eq {c d : Column} (hc : c.Meets .basic) (h : d.base = c.base) :
    d.Meets .basic := by
  obtain ⟨hcolumn, hbase⟩ := Column.meets_iff.mp hc
  rw [Column.meets_iff, h]
  refine ⟨?_, hbase⟩
  intro name owner hname
  exact hcolumn name owner (h.symm.trans hname)

/-- The reference by its qualifier only. -/
def Reference.merged (r : Reference) : Reference := ⟨r.qualifier, none⟩

/-- The operator by its symbol: concatenation is taken for addition. -/
def BinaryOp.merged : BinaryOp → BinaryOp
  | .concat => .add
  | op => op

mutual

/-- The expression up to operators with one symbol and owners with one qualifier. -/
def Column.merged : Column → Column
  | ⟨base, functions, nullTest⟩ => ⟨base.merged, functions, nullTest⟩

/-- The base up to operators with one symbol and owners with one qualifier. -/
def Base.merged : Base → Base
  | .named name owner => .named name (owner.map Reference.merged)
  | .binary op left right => .binary op.merged left.merged right.merged

/-- The operand up to operators with one symbol and owners with one qualifier. -/
def Operand.merged : Operand → Operand
  | .column c => .column c.merged
  | .literal v => .literal v
  | .query q => .query q

end

/-- Whether the expression is taken for a pair of bounds on the right side of a range test: a
conjunction to which no function is applied. -/
def Column.isBounds (c : Column) : Bool := c.base.isConjunction && c.functions.isEmpty

/-- The right side of a range test; a pair of bounds is not tested for null. -/
def Operand.asBounds : Operand → Operand
  | .column c => .column (if c.isBounds then c.untested else c)
  | .literal v => .literal v
  | .query q => .query q

mutual

/-- The expression without tests for null on the bounds of range tests. -/
def Column.untestedBounds : Column → Column
  | ⟨base, functions, nullTest⟩ => ⟨base.untestedBounds, functions, nullTest⟩

/-- The base without tests for null on the bounds of range tests. -/
def Base.untestedBounds : Base → Base
  | .named name owner => .named name owner
  | .binary op left right =>
    .binary op left.untestedBounds
      (if op = .between then right.untestedBounds.asBounds else right.untestedBounds)

/-- The operand without tests for null on the bounds of range tests. -/
def Operand.untestedBounds : Operand → Operand
  | .column c => .column c.untestedBounds
  | .literal v => .literal v
  | .query q => .query q

end

/-- What the text shows of an expression. -/
def Column.shown (c : Column) : Column := c.untestedBounds.merged

/-- What the text shows of a base. -/
def Base.shown (b : Base) : Base := b.untestedBounds.merged

/-- What the text shows of an operand. -/
def Operand.shown (side : Operand) : Operand := side.untestedBounds.merged

theorem BinaryOp.isFunction_merged (op : BinaryOp) : op.merged.isFunction = op.isFunction := by
  cases op <;> rfl

/-- The symbol of an operator is read as the operator, up to concatenation. -/
theorem BinaryOp.ofToken?_symbol (op : BinaryOp) : ofToken? op.symbol = some op.merged := by
  cases op <;> decide +kernel

/-- Operators have one symbol only if they are merged. -/
theorem BinaryOp.merged_eq_of_symbol_eq {op op' : BinaryOp} (h : op.symbol = op'.symbol) :
    op.merged = op'.merged := by
  have hread := congrArg ofToken? h
  rw [ofToken?_symbol, ofToken?_symbol] at hread
  exact Option.some.inj hread

theorem Column.shown_mk (base : Base) (functions : List Func) (nullTest : Option NullTest) :
    Column.shown ⟨base, functions, nullTest⟩ = ⟨base.shown, functions, nullTest⟩ := by
  simp only [Column.shown, Column.untestedBounds, Column.merged, Base.shown]

theorem Base.isInfix_shown (b : Base) : b.shown.isInfix = b.isInfix := by
  cases b <;> simp only [shown, untestedBounds, merged, isInfix, BinaryOp.isFunction_merged]

theorem Base.isConjunction_shown (b : Base) : b.shown.isConjunction = b.isConjunction := by
  cases b with
  | named name owner => simp only [shown, untestedBounds, merged, isConjunction]
  | binary op left right =>
    simp only [shown, untestedBounds, merged, isConjunction]
    cases op <;> rfl

theorem Base.isConjunction_merged (b : Base) : b.merged.isConjunction = b.isConjunction := by
  cases b with
  | named name owner => simp only [merged, isConjunction]
  | binary op left right =>
    simp only [merged, isConjunction]
    cases op <;> rfl

/-- Bounds are told by the operator alone. -/
theorem Operand.merged_asBounds (side : Operand) : side.asBounds.merged = side.merged.asBounds := by
  cases side with
  | column c =>
    obtain ⟨base, functions, nullTest⟩ := c
    cases hbounds : base.isConjunction && functions.isEmpty <;>
      simp [asBounds, merged, Column.isBounds, Column.untested, Column.merged,
        Base.isConjunction_merged, hbounds]
  | literal v => rfl
  | query q => rfl

theorem Base.shown_named (name : String) (owner : Option Reference) :
    (named name owner).shown = .named name (owner.map Reference.merged) := by
  simp only [shown, untestedBounds, merged]

theorem Base.shown_binary (op : BinaryOp) (left right : Operand) :
    (binary op left right).shown = .binary op.merged left.shown
      (if op = .between then right.shown.asBounds else right.shown) := by
  simp only [shown, untestedBounds, merged, Operand.shown, apply_ite Operand.merged,
    Operand.merged_asBounds]

theorem Operand.shown_column (c : Column) : (column c).shown = .column c.shown := by
  simp only [shown, untestedBounds, merged, Column.shown]

theorem Operand.shown_literal (v : Literal) : (literal v).shown = .literal v := rfl

/-- A pair of bounds is written without its test in any case. -/
theorem Operand.rangeSql_asBounds (side : Operand) (n : Nat) :
    side.asBounds.rangeSql n = side.rangeSql n := by
  cases side with
  | column c =>
    obtain ⟨base, functions, nullTest⟩ := c
    cases hbounds : base.isConjunction && functions.isEmpty <;>
      simp [asBounds, Column.isBounds, Column.untested, rangeSql, Column.rangeSql, hbounds]
  | literal v => rfl
  | query q => rfl

namespace PlainName

variable {name : String} {owner : Option Reference}

/-- A plain name stands alone, or behind the qualifier of its owner. -/
theorem sql_eq (h : PlainName name owner) :
    (owner = none ∧ Base.nameSql name owner = name) ∨
      ∃ r qualifier, owner = some r ∧ r.qualifier = some qualifier ∧
        Text.isPlainIdentifier qualifier = true ∧
        Base.nameSql name owner = qualifier ++ "." ++ name := by
  have hstar : name ≠ starName := by
    rintro rfl
    exact absurd h.name (by decide)
  cases owner with
  | none => exact .inl ⟨rfl, by simp [Base.nameSql, hstar]⟩
  | some r =>
    obtain ⟨qualifier, hqualifier, hplain⟩ := h.owner r rfl
    refine .inr ⟨r, qualifier, rfl, hqualifier, hplain, ?_⟩
    have hsql : r.sql? = some qualifier := by
      unfold Reference.qualifier at hqualifier
      unfold Reference.sql?
      cases halias : r.aliasName with
      | none => simpa [halias] using hqualifier
      | some aliasName =>
        obtain rfl : aliasName = qualifier := by simpa [halias] using hqualifier
        simp [hplain]
    simp [Base.nameSql, hstar, hsql]

/-- The text of a plain name has the characters of identifiers and at most a point. -/
theorem isPlainPart_or_eq (h : PlainName name owner) :
    ∀ c ∈ (Base.nameSql name owner).toList, Text.isPlainPart c = true ∨ c = '.' := by
  have hname := Text.isPlainPart_of_isPlainIdentifier h.name
  rcases h.sql_eq with ⟨_, hsql⟩ | ⟨r, qualifier, _, _, hplain, hsql⟩
  · rw [hsql]
    exact fun c hc => .inl (hname c hc)
  · have hqualifier := Text.isPlainPart_of_isPlainIdentifier hplain
    rw [hsql, String.toList_append, String.toList_append, List.forall_mem_append,
      List.forall_mem_append]
    exact ⟨⟨fun c hc => .inl (hqualifier c hc), by simp⟩, fun c hc => .inl (hname c hc)⟩

theorem isWord_sql (h : PlainName name owner) : Text.IsWord (Base.nameSql name owner) := by
  intro c hc
  rcases h.isPlainPart_or_eq c hc with hpart | rfl
  · exact Text.endsWord_eq_false_of_isPlainPart hpart
  · rfl

theorem unmarked_sql (h : PlainName name owner) : Text.Unmarked (Base.nameSql name owner) := by
  intro c hc
  rcases h.isPlainPart_or_eq c hc with hpart | rfl
  · exact Text.isMark_eq_false (p := Text.isPlainPart) (by decide) hpart
  · rfl

theorem opening?_sql (h : PlainName name owner) :
    Text.opening? (Base.nameSql name owner).toList = some .name := by
  rcases h.sql_eq with ⟨_, hsql⟩ | ⟨r, qualifier, _, _, hplain, hsql⟩
  · rw [hsql]
    exact Text.opening?_of_isPlainIdentifier h.name
  · rw [hsql, String.append_assoc, String.toList_append]
    exact Text.opening?_append (Text.opening?_of_isPlainIdentifier hplain) _

/-- The text of a name is read up to the point as the qualifier of its owner. -/
theorem eq_of_sql_eq {name' : String} {owner' : Option Reference} (h : PlainName name owner)
    (h' : PlainName name' owner') (heq : Base.nameSql name owner = Base.nameSql name' owner') :
    name = name' ∧ owner.map Reference.merged = owner'.map Reference.merged := by
  have hpoint {name qualifier : String} (hname : Text.isPlainIdentifier name = true)
      (rest : String) : name ≠ qualifier ++ "." ++ rest := by
    rintro rfl
    exact absurd (Text.isPlainPart_of_isPlainIdentifier hname '.' (by simp)) (by decide)
  rcases h.sql_eq with ⟨rfl, hsql⟩ | ⟨r, qualifier, rfl, hqualifier, hplain, hsql⟩ <;>
    rcases h'.sql_eq with ⟨rfl, hsql'⟩ | ⟨r', qualifier', rfl, hqualifier', hplain', hsql'⟩
  · rw [hsql, hsql'] at heq
    exact ⟨heq, rfl⟩
  · rw [hsql, hsql'] at heq
    exact absurd heq (hpoint h.name name')
  · rw [hsql, hsql'] at heq
    exact absurd heq.symm (hpoint h'.name name)
  · rw [hsql, hsql', ← String.toList_inj] at heq
    have hread := Text.append_inj_of_class (x := '.' :: name.toList) (y := '.' :: name'.toList)
      (Text.isPlainPart_of_isPlainIdentifier hplain) (Text.isPlainPart_of_isPlainIdentifier hplain')
      (by simp; decide) (by simp; decide) (by simpa using heq)
    obtain rfl : qualifier = qualifier' := String.toList_inj.mp hread.1
    have hname : name = name' := String.toList_inj.mp (List.cons.inj hread.2).2
    exact ⟨hname, by simp [Reference.merged, hqualifier, hqualifier']⟩

/-- Owners are written by their qualifiers. -/
theorem merged (h : PlainName name owner) : PlainName name (owner.map Reference.merged) where
  name := h.name
  owner r hr := by
    obtain ⟨r, rfl, rfl⟩ := Option.map_eq_some_iff.mp hr
    exact h.owner r rfl

theorem sql_merged (h : PlainName name owner) :
    Base.nameSql name (owner.map Reference.merged) = Base.nameSql name owner := by
  rcases h.sql_eq with ⟨rfl, _⟩ | ⟨r, qualifier, rfl, hqualifier, _, hsql⟩
  · rfl
  · rcases h.merged.sql_eq with ⟨hnone, _⟩ | ⟨r', qualifier', hr, hqualifier', _, hsql'⟩
    · cases hnone
    · obtain rfl : r.merged = r' := Option.some.inj hr
      obtain rfl : qualifier = qualifier' :=
        Option.some.inj (hqualifier.symm.trans hqualifier')
      exact hsql'.trans hsql.symm

end PlainName

mutual

/-- What the text does not show is not seen in it. -/
theorem Column.sql_shown : ∀ (c : Column) (n m : Nat), c.Meets .basic → c.shown.sql n = c.sql m
  | ⟨base, functions, nullTest⟩, n, m, hc => by
    simp only [Column.Meets] at hc
    rw [Column.shown_mk, Column.sql, Column.sql, Column.around, Column.around,
      Base.isInfix_shown, Base.body_shown base n m hc.1 hc.2]

theorem Column.rangeSql_shown :
    ∀ (c : Column) (n m : Nat), c.Meets .basic → c.shown.rangeSql n = c.rangeSql m
  | ⟨base, functions, nullTest⟩, n, m, hc => by
    simp only [Column.Meets] at hc
    rw [Column.shown_mk, Column.rangeSql, Column.rangeSql, Column.around, Column.around,
      Base.isConjunction_shown, Base.isInfix_shown, Base.body_shown base n m hc.1 hc.2]

theorem Base.body_shown :
    ∀ (b : Base) (n m : Nat), (∀ name owner, b = .named name owner → PlainName name owner) →
      b.Meets .basic → b.shown.body n = b.body m
  | .named name owner, n, m, hname, _ => by
    rw [Base.shown_named, Base.body, Base.body, (hname name owner rfl).sql_merged]
  | .binary op left right, n, m, _, hb => by
    simp only [Base.Meets] at hb
    have hleft := Operand.sql_shown left n m hb.1
    have hright (n : Nat) := Operand.sql_shown right n (m + left.nameCount) hb.2
    have hrange (n : Nat) := Operand.rangeSql_shown right n (m + left.nameCount) hb.2
    rw [Base.shown_binary]
    cases op with
    | between =>
      simp only [BinaryOp.merged, Base.body, if_true, Operand.rangeSql_asBounds, hleft, hrange]
    | _ =>
      simp only [BinaryOp.merged, BinaryOp.symbol, Base.body, reduceCtorEq, if_false, hleft, hright]

theorem Operand.sql_shown :
    ∀ (side : Operand) (n m : Nat), side.Meets .basic → side.shown.sql n = side.sql m
  | .column c, n, m, hside => by
    simp only [Operand.Meets] at hside
    rw [Operand.shown_column, Operand.sql, Operand.sql, Column.sql_shown c n m hside]
  | .literal v, n, m, _ => by rw [Operand.shown_literal, Operand.sql, Operand.sql]
  | .query q, _, _, hside => by
    simp only [Operand.Meets] at hside
    exact absurd hside q.not_meets_basic

theorem Operand.rangeSql_shown :
    ∀ (side : Operand) (n m : Nat), side.Meets .basic → side.shown.rangeSql n = side.rangeSql m
  | .column c, n, m, hside => by
    simp only [Operand.Meets] at hside
    rw [Operand.shown_column, Operand.rangeSql, Operand.rangeSql, Column.rangeSql_shown c n m hside]
  | .literal v, n, m, _ => by rw [Operand.shown_literal, Operand.rangeSql, Operand.rangeSql]
  | .query q, _, _, hside => by
    simp only [Operand.Meets] at hside
    exact absurd hside q.not_meets_basic

end

end SqlTree
