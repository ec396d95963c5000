import SqlTree.Proofs.Reading.Argument
import Mathlib.Data.List.Induction

/-!
# Expressions in their texts

Functions are called by name, operators stand in parentheses or in those of a function, and a test
for null follows what it tests. So the text of an expression can be read in one way only. Main
statements: the front of a text determines the operand that is written there and where it ends, and
two expressions have the same text exactly if they differ in nothing that is shown.
-/

namespace SqlTree

/-- The front of a text determines that this operand is written there, up to what is not shown, and
where it ends. -/
def Operand.Readable (side : Operand) : Prop :=
  ∀ (other : Operand) (n m : Nat) (u v : List Char), other.Meets .basic →
    Text.Ends u → Text.Ends v → (side.sql n).toList ++ u = (other.sql m).toList ++ v →
      side.shown = other.shown ∧ u = v

/-- The same of what stands between parentheses, up to the closing one. -/
def Argument.Readable (x : Argument) : Prop :=
  ∀ (y : Argument) (n m : Nat) (u v : List Char), y.Meets .basic →
    (x.sql n).toList ++ ')' :: u = (y.sql m).toList ++ ')' :: v →
      x.toOperand.shown = y.toOperand.shown ∧ u = v

/-- The same of an expression without its test. -/
def Column.Readable (c : Column) : Prop :=
  ∀ (other : Column) (n m : Nat) (u v : List Char), other.Meets .basic →
    Text.Stops u → Text.Stops v →
      (c.untested.sql n).toList ++ u = (other.untested.sql m).toList ++ v →
        c.untested.shown = other.untested.shown ∧ u = v

/-- The operands of an operator are readable. -/
def Base.OperandsReadable : Base → Prop
  | .named _ _ => True
  | .binary _ left right => left.Readable ∧ right.Readable ∧ right.bounds.Readable

namespace NullTest

/-- What a test for null adds to a text. -/
def suffix : Option NullTest → List Char
  | some test => ' ' :: test.text.toList
  | none => []

theorem toList_applied (text : String) (test : Option NullTest) :
    (applied text test).toList = text.toList ++ suffix test := by
  cases test <;> simp [applied, suffix]

theorem stops_suffix (test : Option NullTest) {u : List Char} (hu : Text.Stops u) :
    Text.Stops (suffix test ++ u) := by
  cases test with
  | none => exact hu
  | some test => exact Text.stops_blank _

theorem not_ends_suffix (test : NullTest) (u : List Char) :
    ¬ Text.Ends (suffix (some test) ++ u) := fun h =>
  h.untested (by cases test <;> simp [suffix, text])

/-- A test is seen behind an expression if there is one. -/
theorem eq_of_suffix_append_eq {test test' : Option NullTest} {u v : List Char}
    (hu : Text.Ends u) (hv : Text.Ends v) (h : suffix test ++ u = suffix test' ++ v) :
    test = test' ∧ u = v := by
  cases test with
  | none =>
    cases test' with
    | none => exact ⟨rfl, h⟩
    | some test' =>
      obtain rfl : u = suffix (some test') ++ v := h
      exact absurd hu (not_ends_suffix test' v)
  | some test =>
    cases test' with
    | none =>
      obtain rfl : v = suffix (some test) ++ u := h.symm
      exact absurd hv (not_ends_suffix test u)
    | some test' => cases test <;> cases test' <;> simp_all [suffix, text]

end NullTest

/-- An operator may follow an operand. -/
theorem BinaryOp.ends_symbol (op : BinaryOp) (rest : List Char) :
    Text.Ends (' ' :: (op.symbol.toList ++ ' ' :: rest)) := by
  refine ⟨Text.stops_blank _, ?_⟩
  cases op <;> simp [symbol]

theorem BinaryOp.isWord_symbol (op : BinaryOp) : Text.IsWord op.symbol := by
  cases op <;> decide

/-- The second operand of an operator as it is written. -/
def BinaryOp.argument (op : BinaryOp) (right : Operand) : Argument :=
  if op = .between then right.bounds else .operand right

/-- An operator other than a call stands between its operands. -/
theorem Base.toList_body_append {op : BinaryOp} (h : op ≠ .mod) (left right : Operand) (n : Nat)
    (rest : List Char) :
    ((binary op left right).body n).toList ++ rest = (left.sql n).toList ++
      ' ' :: (op.symbol.toList ++
        ' ' :: (((op.argument right).sql (n + left.nameCount)).toList ++ rest)) := by
  cases op with
  | mod => exact absurd rfl h
  | between => simp [body, BinaryOp.argument, Operand.sql_bounds]
  | _ => simp [body, BinaryOp.argument, Argument.sql]

/-- What stands between its operands is no call. -/
theorem Base.ne_mod_of_isInfix {op : BinaryOp} {left right : Operand}
    (h : (binary op left right).isInfix = true) : op ≠ .mod := by
  rintro rfl
  cases h

theorem BinaryOp.meets_argument {right : Operand} (h : right.Meets .basic) (op : BinaryOp) :
    (op.argument right).Meets .basic := by
  unfold argument
  split_ifs
  · exact Operand.meets_bounds h
  · exact h

/-- What is shown of an operator and its operands. -/
theorem Base.shown_binary_eq (op : BinaryOp) (left right : Operand) :
    (binary op left right).shown =
      .binary op.merged left.shown (op.argument right).toOperand.shown := by
  rw [shown_binary, BinaryOp.argument]
  split_ifs
  · rw [Operand.toOperand_bounds, Operand.shown_asBounds]
  · rfl

namespace Argument

/-- A readable operand is readable between parentheses: behind the left side of an operator there
is no closing one. -/
theorem readable_operand {side : Operand} (h : side.Readable) : (operand side).Readable := by
  intro y n m u v hy heq
  cases y with
  | operand other =>
    obtain ⟨hshown, hrest⟩ := h other n m (')' :: u) (')' :: v) hy (Text.ends_close u)
      (Text.ends_close v) heq
    exact ⟨hshown, (List.cons.inj hrest).2⟩
  | operator base =>
    cases base with
    | named name owner => cases hy.1
    | binary op left right =>
      rw [sql, sql, Base.toList_body_append (Base.ne_mod_of_isInfix hy.1)] at heq
      rw [Meets, Base.Meets] at hy
      obtain ⟨-, hrest⟩ := h left n m _ _ hy.2.1 (Text.ends_close u) (op.ends_symbol _) heq
      cases hrest

/-- An operator is readable between parentheses if its operands are readable. -/
theorem readable_operator {base : Base} (hop : base.isInfix = true) (h : base.OperandsReadable) :
    (operator base).Readable := by
  intro y n m u v hy heq
  cases base with
  | named name owner => cases hop
  | binary op left right =>
    obtain ⟨hleft, hright, hbounds⟩ := h
    rw [sql, Base.toList_body_append (Base.ne_mod_of_isInfix hop)] at heq
    cases y with
    | operand other =>
      obtain ⟨-, hrest⟩ := hleft other n m _ _ hy (op.ends_symbol _) (Text.ends_close v) heq
      cases hrest
    | operator base =>
      cases base with
      | named name owner => cases hy.1
      | binary op' left' right' =>
        rw [sql, Base.toList_body_append (Base.ne_mod_of_isInfix hy.1)] at heq
        rw [Meets, Base.Meets] at hy
        obtain ⟨hleftShown, hrest⟩ := hleft left' n m _ _ hy.2.1 (op.ends_symbol _)
          (op'.ends_symbol _) heq
        obtain ⟨hsymbol, hrest⟩ := op.isWord_symbol.append_inj op'.isWord_symbol
          (Text.endsWord_blank _) (Text.endsWord_blank _) (List.cons.inj hrest).2
        have hmerged := BinaryOp.merged_eq_of_symbol_eq hsymbol
        have hargument : (op.argument right).Readable := by
          unfold BinaryOp.argument
          split_ifs
          · exact hbounds
          · exact readable_operand hright
        obtain ⟨hrightShown, hrest⟩ := hargument (op'.argument right') _ _ u v
          (BinaryOp.meets_argument hy.2.2 op') (List.cons.inj hrest).2
        refine ⟨?_, hrest⟩
        rw [toOperand, toOperand, Operand.shown_column, Operand.shown_column, Column.shown_mk,
          Column.shown_mk, Base.shown_binary_eq, Base.shown_binary_eq, hmerged, hleftShown,
          hrightShown]

end Argument

/-- The remainder call is written with its operands behind its name. -/
theorem Base.toList_body_mod_append (left right : Operand) (n : Nat) (rest : List Char) :
    ((binary .mod left right).body n).toList ++ rest = BinaryOp.mod.symbol.toList ++
      '(' :: ((left.sql n).toList ++ ' ' :: ',' :: ' ' ::
        ((right.sql (n + left.nameCount)).toList ++ ')' :: rest)) := by
  simp [body, Text.parenthesized]

theorem Func.name_ne_mod (f : Func) : f.name ≠ BinaryOp.mod.symbol := by
  cases f with
  | aggregate f => cases f <;> decide
  | unary f => cases f <;> decide

theorem Aggregate.ofToken?_name (f : Aggregate) : ofToken? f.name = some f := by
  cases f <;> decide +kernel

theorem Unary.ofToken?_name (f : Unary) : ofToken? f.name = some f := by
  cases f <;> decide +kernel

theorem Unary.aggregate_name_ne (f : Unary) (g : Aggregate) : g.name ≠ f.name := by
  intro h
  have hread := congrArg Aggregate.ofToken? h
  have hnone : Aggregate.ofToken? f.name = none := by cases f <;> decide +kernel
  rw [Aggregate.ofToken?_name, hnone] at hread
  cases hread

/-- The name of a function is read as the function. -/
theorem Func.name_injective {f g : Func} (h : f.name = g.name) : f = g := by
  cases f with
  | aggregate f =>
    cases g with
    | aggregate g =>
      have hread := congrArg Aggregate.ofToken? h
      rw [name, name, Aggregate.ofToken?_name, Aggregate.ofToken?_name] at hread
      rw [Option.some.inj hread]
    | unary g => exact absurd h (g.aggregate_name_ne f)
  | unary f =>
    cases g with
    | aggregate g => exact absurd h.symm (f.aggregate_name_ne g)
    | unary g =>
      have hread := congrArg Unary.ofToken? h
      rw [name, name, Unary.ofToken?_name, Unary.ofToken?_name] at hread
      rw [Option.some.inj hread]

namespace Column

theorem toList_sql_applyFunc_append {c : Column} (h : c.Meets .basic) (f : Func) (n : Nat)
    (rest : List Char) :
    ((c.applyFunc f).untested.sql n).toList ++ rest =
      f.name.toList ++ '(' :: ((c.argument.sql n).toList ++ ')' :: rest) := by
  rw [sql_untested_applyFunc, Func.applied, ungrouped_sql_untested h]
  simp [Text.parenthesized]

/-- A function is not written like the remainder call. -/
theorem sql_applyFunc_append_ne {c : Column} (h : c.Meets .basic) (f : Func) {left right : Operand}
    {nullTest : Option NullTest} {n m : Nat} {u v : List Char} :
    ((c.applyFunc f).untested.sql n).toList ++ u ≠
      (Column.sql m (untested ⟨.binary .mod left right, [], nullTest⟩)).toList ++ v := by
  intro heq
  rw [toList_sql_applyFunc_append h, untested, sql_ofBase_of_not_isInfix rfl,
    Base.toList_body_mod_append] at heq
  have hword := f.isWord_name.append_inj (BinaryOp.isWord_symbol .mod) (Text.endsWord_open _)
    (Text.endsWord_open _) heq
  exact f.name_ne_mod hword.1

/-- A test is shown as it is. -/
theorem shown_eq (c : Column) : c.shown = { c.untested.shown with nullTest := c.nullTest } := by
  cases c
  rw [untested, shown_mk, shown_mk]

theorem shown_untested_applyFunc (c : Column) (f : Func) :
    (c.applyFunc f).untested.shown = c.untested.shown.applyFunc f := by
  cases c
  rw [applyFunc, untested, untested, shown_mk, shown_mk, applyFunc]

/-- Expressions with the same text begin alike. -/
theorem opening_eq_of_append_eq {c other : Column} (hc : c.Meets .basic)
    (hother : other.Meets .basic) {n m : Nat} {u v : List Char}
    (heq : (c.untested.sql n).toList ++ u = (other.untested.sql m).toList ++ v) :
    c.opening = other.opening :=
  Text.opening_eq_of_append_eq (opening?_sql_untested hc n) (opening?_sql_untested hother m) heq

section Base

variable {nullTest : Option NullTest}

theorem readable_named {name : String} {owner : Option Reference}
    (hc : Column.Meets .basic ⟨.named name owner, [], nullTest⟩) :
    Column.Readable ⟨.named name owner, [], nullTest⟩ := by
  intro other n m u v hother hu hv heq
  obtain ⟨hnone, name', owner', hbase⟩ := of_opening_eq_name
    (opening_eq_of_append_eq hc hother heq).symm
  obtain ⟨base, functions, nullTest'⟩ := other
  subst hnone hbase
  rw [Column.Meets] at hc hother
  have hname := hc.1 name owner rfl
  have hname' := hother.1 name' owner' rfl
  rw [untested, untested, sql_ofBase_of_not_isInfix rfl, sql_ofBase_of_not_isInfix rfl,
    Base.body, Base.body] at heq
  obtain ⟨hsql, hrest⟩ := hname.isWord_sql.append_inj hname'.isWord_sql hu.endsWord hv.endsWord heq
  obtain ⟨rfl, howner⟩ := hname.eq_of_sql_eq hname' hsql
  refine ⟨?_, hrest⟩
  rw [untested, untested, shown_mk, shown_mk, Base.shown_named, Base.shown_named, howner]

theorem readable_mod {left right : Operand}
    (hc : Column.Meets .basic ⟨.binary .mod left right, [], nullTest⟩) (hleft : left.Readable)
    (hright : right.Readable) : Column.Readable ⟨.binary .mod left right, [], nullTest⟩ := by
  intro other n m u v hother hu hv heq
  rcases of_opening_eq_call (opening_eq_of_append_eq hc hother heq).symm with
    ⟨hnone, left', right', hbase⟩ | ⟨d, f, rfl⟩
  · obtain ⟨base, functions, nullTest'⟩ := other
    subst hnone hbase
    rw [Column.Meets, Base.Meets] at hother
    obtain ⟨-, hother⟩ := hother
    rw [untested, untested, sql_ofBase_of_not_isInfix rfl, sql_ofBase_of_not_isInfix rfl,
      Base.toList_body_mod_append, Base.toList_body_mod_append] at heq
    have hargs := (List.cons.inj (List.append_cancel_left heq)).2
    obtain ⟨hleftShown, hrest⟩ := hleft left' n m _ _ hother.1 (Text.ends_comma _)
      (Text.ends_comma _) hargs
    simp only [List.cons.injEq, true_and] at hrest
    obtain ⟨hrightShown, hrest⟩ := hright right' _ _ _ _ hother.2 (Text.ends_close _)
      (Text.ends_close _) hrest
    refine ⟨?_, (List.cons.inj hrest).2⟩
    rw [untested, untested, shown_mk, shown_mk, Base.shown_binary, Base.shown_binary, hleftShown,
      if_neg (by decide), if_neg (by decide), hrightShown]
  · have hd : d.Meets .basic := hother.of_base_eq rfl
    exact absurd heq.symm (sql_applyFunc_append_ne hd f)

theorem readable_infix {base : Base} (hop : base.isInfix = true)
    (hc : Column.Meets .basic ⟨base, [], nullTest⟩) (h : base.OperandsReadable) :
    Column.Readable ⟨base, [], nullTest⟩ := by
  intro other n m u v hother hu hv heq
  have hopening := opening_eq_of_append_eq hc hother heq
  have hgroup : Column.opening ⟨base, [], nullTest⟩ = .group := Base.opening_eq_group_iff.mpr hop
  obtain ⟨hnone, hop'⟩ := of_opening_eq_group (hopening.symm.trans hgroup)
  obtain ⟨base', functions, nullTest'⟩ := other
  subst hnone
  rw [Column.Meets] at hother
  rw [untested, untested, sql_ofBase_of_isInfix hop, sql_ofBase_of_isInfix hop'] at heq
  have hbody : (base.body n).toList ++ ')' :: u = (base'.body m).toList ++ ')' :: v := by
    simpa [Text.parenthesized] using heq
  obtain ⟨hshown, hrest⟩ := Argument.readable_operator hop h (.operator base') n m u v
    ⟨hop', hother.2⟩ hbody
  rw [Argument.toOperand, Argument.toOperand, Operand.shown_column, Operand.shown_column] at hshown
  exact ⟨Operand.column.inj hshown, hrest⟩

/-- An expression without functions is readable if its operands are. -/
theorem readable_ofBase {base : Base} (hc : Column.Meets .basic ⟨base, [], nullTest⟩)
    (h : base.OperandsReadable) : Column.Readable ⟨base, [], nullTest⟩ := by
  cases base with
  | named name owner => exact readable_named hc
  | binary op left right =>
    by_cases hop : op = .mod
    · subst hop
      exact readable_mod hc h.1 h.2.1
    · exact readable_infix (by simp [Base.isInfix, BinaryOp.isFunction, hop]) hc h

end Base

/-- A test may follow a readable expression. -/
theorem Readable.operand {c : Column} (hc : c.Meets .basic) (h : c.Readable) :
    (Operand.column c).Readable := by
  intro other n m u v hother hu hv heq
  have hc' : (Operand.column c).Meets .basic := by rwa [Operand.Meets]
  have hopening := Operand.opening_eq_of_append_eq hc' hother heq
  cases other with
  | column d =>
    rw [Operand.Meets] at hother
    rw [Operand.sql, Operand.sql, c.sql_eq_applied, d.sql_eq_applied, NullTest.toList_applied,
      NullTest.toList_applied, List.append_assoc, List.append_assoc] at heq
    obtain ⟨hshown, hrest⟩ := h d n m _ _ hother (NullTest.stops_suffix _ hu.stops)
      (NullTest.stops_suffix _ hv.stops) heq
    obtain ⟨htest, hrest⟩ := NullTest.eq_of_suffix_append_eq hu hv hrest
    refine ⟨?_, hrest⟩
    rw [Operand.shown_column, Operand.shown_column, c.shown_eq, d.shown_eq, hshown, htest]
  | literal v => exact absurd hopening (Operand.opening_column_ne c v)
  | query q =>
    rw [Operand.Meets] at hother
    exact absurd hother q.not_meets_basic

/-- A function may be put around a readable expression. -/
theorem Readable.applyFunc {c : Column} (hc : c.Meets .basic) (h : c.Readable)
    (hoperands : c.base.OperandsReadable) (f : Func) : (c.applyFunc f).Readable := by
  intro other n m u v hother hu hv heq
  have hargument : c.argument.Readable := by
    unfold argument
    split_ifs with hgroup
    · rw [Bool.and_eq_true] at hgroup
      exact Argument.readable_operator hgroup.2 hoperands
    · exact Argument.readable_operand (Readable.operand (hc.of_base_eq rfl) h)
  have happlied : (c.applyFunc f).Meets .basic := hc.of_base_eq rfl
  have hopening := (opening_eq_of_append_eq happlied hother heq).symm
  rw [opening_applyFunc] at hopening
  rcases of_opening_eq_call hopening with ⟨hnone, left, right, hbase⟩ | ⟨d, g, rfl⟩
  · obtain ⟨base, functions, nullTest⟩ := other
    subst hnone hbase
    exact absurd heq (sql_applyFunc_append_ne hc f)
  · have hd : d.Meets .basic := hother.of_base_eq rfl
    rw [toList_sql_applyFunc_append hc, toList_sql_applyFunc_append hd] at heq
    obtain ⟨hname, hrest⟩ := f.isWord_name.append_inj g.isWord_name (Text.endsWord_open _)
      (Text.endsWord_open _) heq
    obtain rfl := Func.name_injective hname
    obtain ⟨hshown, hrest⟩ := hargument d.argument n m u v (meets_argument hd)
      (List.cons.inj hrest).2
    rw [toOperand_argument, toOperand_argument, Operand.shown_column,
      Operand.shown_column] at hshown
    refine ⟨?_, hrest⟩
    rw [shown_untested_applyFunc, shown_untested_applyFunc, Operand.column.inj hshown]

/-- Any functions may be put around an expression. -/
theorem readable_of_operands {c : Column} (hc : c.Meets .basic)
    (h : c.base.OperandsReadable) : c.Readable := by
  obtain ⟨base, functions, nullTest⟩ := c
  induction functions using List.reverseRecOn with
  | nil => exact readable_ofBase hc h
  | append_singleton functions f ih =>
    -- the last function is the outermost one
    have hinner : Column.Meets .basic ⟨base, functions, nullTest⟩ := hc.of_base_eq rfl
    exact (ih hinner h).applyFunc hinner h f

end Column

/-- Numbers and strings are readable. -/
theorem Literal.readable {v : Literal} (hv : v.isBasic = true) : (Operand.literal v).Readable := by
  intro other n m x y hother hx hy heq
  have hv' : (Operand.literal v).Meets .basic := by rwa [Operand.Meets]
  have hopening := Operand.opening_eq_of_append_eq hv' hother heq
  cases other with
  | column c => exact absurd hopening.symm (Operand.opening_column_ne c v)
  | literal w =>
    rw [Operand.Meets] at hother
    rw [Operand.sql, Operand.sql] at heq
    cases v with
    | int i =>
      cases w with
      | int j =>
        rw [Literal.text, Literal.text] at heq
        obtain ⟨hdigits, hrest⟩ := (Text.isWord_toString_int i).append_inj
          (Text.isWord_toString_int j) hx.stops.endsWord hy.stops.endsWord heq
        rw [Text.toString_int_injective hdigits]
        exact ⟨rfl, hrest⟩
      | string t => cases hopening
      | _ => cases hother
    | string s =>
      cases w with
      | int j => cases hopening
      | string t =>
        rw [Literal.text, Literal.text] at heq
        obtain ⟨rfl, hrest⟩ := Text.Quoted.string_append_inj hx.stops.head?_ne hy.stops.head?_ne heq
        exact ⟨rfl, hrest⟩
      | _ => cases hother
    | _ => cases hv
  | query q =>
    rw [Operand.Meets] at hother
    exact absurd hother q.not_meets_basic

mutual

-- The induction is on the one tree that is known to be written; the other one is arbitrary.

theorem Column.readable : ∀ c : Column, c.Meets .basic → c.Readable
  | ⟨base, functions, nullTest⟩, hc => by
    have hc' := hc
    simp only [Column.Meets] at hc'
    exact Column.readable_of_operands hc (Base.operandsReadable base hc'.2)

theorem Base.operandsReadable : ∀ b : Base, b.Meets .basic → b.OperandsReadable
  | .named _ _, _ => trivial
  | .binary op left right, hb => by
    simp only [Base.Meets] at hb
    exact ⟨Operand.readable left hb.1, Operand.readable right hb.2,
      Operand.bounds_readable right hb.2⟩

/-- Operands are readable at any depth. -/
theorem Operand.readable : ∀ side : Operand, side.Meets .basic → side.Readable
  | .column c, hside => by
    simp only [Operand.Meets] at hside
    exact (Column.readable c hside).operand hside
  | .literal v, hside => by
    simp only [Operand.Meets] at hside
    exact Literal.readable hside
  | .query q, hside => by
    simp only [Operand.Meets] at hside
    exact absurd hside q.not_meets_basic

/-- The right sides of range tests are readable as well. -/
theorem Operand.bounds_readable : ∀ side : Operand, side.Meets .basic → side.bounds.Readable
  | .column ⟨base, functions, nullTest⟩, hside => by
    simp only [Operand.Meets] at hside
    have hoperands := Base.operandsReadable base (Column.meets_iff.mp hside).2
    rw [Operand.bounds]
    split_ifs with hbounds
    · rw [Column.isBounds, Bool.and_eq_true] at hbounds
      exact Argument.readable_operator (Base.isInfix_of_isConjunction hbounds.1) hoperands
    · exact Argument.readable_operand
        ((Column.readable_of_operands hside hoperands).operand hside)
  | .literal v, hside => by
    simp only [Operand.Meets] at hside
    exact Argument.readable_operand (Literal.readable hside)
  | .query q, hside => by
    simp only [Operand.Meets] at hside
    exact absurd hside q.not_meets_basic

end

namespace Column

variable {c other : Column}

/-- Expressions have the same text exactly if the same is shown of them. -/
theorem sql_eq_iff_shown_eq (hc : c.Meets .basic) (hother : other.Meets .basic) (n m : Nat) :
    c.sql n = other.sql m ↔ c.shown = other.shown := by
  have hoperand : (Operand.column c).Meets .basic := by rwa [Operand.Meets]
  have hoperand' : (Operand.column other).Meets .basic := by rwa [Operand.Meets]
  constructor
  · intro heq
    have htext : ((Operand.column c).sql n).toList ++ [] =
        ((Operand.column other).sql m).toList ++ [] := by
      rw [Operand.sql, Operand.sql, heq]
    have hshown := ((Operand.column c).readable hoperand (.column other) n m [] [] hoperand'
      Text.ends_nil Text.ends_nil htext).1
    rw [Operand.shown_column, Operand.shown_column] at hshown
    exact Operand.column.inj hshown
  · intro heq
    rw [← sql_shown c 0 n hc, ← sql_shown other 0 m hother, heq]

end Column

end SqlTree
