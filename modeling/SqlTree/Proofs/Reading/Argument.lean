import SqlTree.Proofs.Reading.Shown
import SqlTree.Proofs.Writing.Revised

/-!
# What a function is applied to

A function takes the place of the parentheses that enclose its argument, if there are any. Main
statements: over plain names, integers and strings only the parentheses around an operator enclose
an expression, so the text of a function shows its argument, and the first character of a text shows
what kind of expression it is.
-/

namespace SqlTree

namespace Text

/-- The search for the end of a group goes on behind the text as if the text were not there. -/
def Passed (text : String) : Prop :=
  ∀ (depth : Nat) (rest : List Char),
    closesLast depth false (text.toList ++ rest) = closesLast depth false rest

namespace Passed

variable {a b : String}

theorem of_unmarked (h : Unmarked a) : Passed a := fun depth rest =>
  closesLast_append (fun c hc => .inr (h c hc)) depth rest

theorem string (text : String) : Passed (Quoted.string text) := by
  intro depth rest
  rw [Quoted.toList_string, closesLast_encode]

theorem identifier {name : String} (h : Unmarked name) : Passed (Quoted.identifier name) := by
  intro depth rest
  rw [Quoted.toList_identifier]
  refine closesLast_append (fun c hc => ?_) depth rest
  exact (Quoted.eq_or_mem_of_mem_encode hc).imp_right (h c)

theorem append (ha : Passed a) (hb : Passed b) : Passed (a ++ b) := by
  intro depth rest
  rw [String.toList_append, List.append_assoc, ha, hb]

theorem parenthesized (h : Passed a) : Passed (Text.parenthesized a) := by
  intro depth rest
  have htext : (Text.parenthesized a).toList ++ rest = '(' :: (a.toList ++ ')' :: rest) := by
    simp [Text.parenthesized]
  have hinner := h (depth + 1) (')' :: rest)
  rw [htext]
  simpa [closesLast] using hinner

/-- What is put in parentheses is enclosed by them. -/
theorem ungrouped_parenthesized (h : Passed a) : ungrouped (Text.parenthesized a) = a := by
  refine Text.ungrouped_parenthesized ?_
  have hclose := h 0 [')']
  simpa [isEnclosed, Text.parenthesized, closesLast] using hclose

/-- Writing makes texts that are passed of such texts. -/
theorem congruence : Congruence fun s t => s = t ∧ Passed s where
  unmarked h := ⟨rfl, of_unmarked h⟩
  joined separator hseparator _ := by
    rintro ⟨rfl, ha⟩ ⟨rfl, hb⟩
    exact ⟨rfl, (ha.append (of_unmarked hseparator)).append hb⟩
  parenthesized := by
    rintro a _ ⟨rfl, ha⟩
    exact ⟨rfl, ha.parenthesized⟩
  grouped := by
    rintro a _ ⟨rfl, ha⟩
    refine ⟨rfl, ?_⟩
    unfold grouped
    split
    · exact ha
    · exact ha.parenthesized
  regrouped := by
    rintro a _ ⟨rfl, ha⟩
    refine ⟨rfl, ?_⟩
    rw [ha.ungrouped_parenthesized]
    exact ha.parenthesized

end Passed

end Text

/-- Plain names, integers and strings are passed. -/
theorem likeness_passed : Likeness id .basic fun s t => s = t ∧ Text.Passed s where
  toCongruence := Text.Passed.congruence
  ofLiteral v hv := by
    refine ⟨rfl, ?_⟩
    cases v with
    | int n => exact .of_unmarked (Text.unmarked_toString_int n)
    | string s => exact .string s
    | _ => cases hv
  ofColumn c name owner hc hbase := by
    have hname := (hc name owner hbase).unmarked_sql
    exact Text.Passed.congruence.applicable ⟨rfl, .of_unmarked hname⟩ hname.head?_ne
  ofTable _ _ hq _ := hq.elim
  ofQualifier _ _ hq _ := hq.elim
  ofAlias _ _ _ hentry _ _ := hentry.elim
  ofDerivedName n := ⟨rfl, .identifier (Text.unmarked_derivedName n)⟩

theorem Base.passed_body {b : Base} (h : b.Meets .basic) (hop : b.isInfix = true) (n : Nat) :
    Text.Passed (b.body n) :=
  (related_body_of_isInfix likeness_passed hop false n h).2

/-- What stands between two parentheses. -/
inductive Argument where
  /-- An operator between its operands, without parentheses of its own. -/
  | operator (base : Base)
  | operand (side : Operand)

namespace Argument

/-- The text of an argument. -/
def sql (n : Nat) : Argument → String
  | .operator base => base.body n
  | .operand side => side.sql n

/-- Whether the parts of an argument are as demanded. -/
def Meets (d : Demand) : Argument → Prop
  | .operator base => base.isInfix = true ∧ base.Meets d
  | .operand side => side.Meets d

/-- The argument as an operand. -/
def toOperand : Argument → Operand
  | .operator base => .column ⟨base, [], none⟩
  | .operand side => side

end Argument

/-- What stands in the parentheses of a function around the expression: an operator without
parentheses of its own, or else the expression as it stands without its test. -/
def Column.argument (c : Column) : Argument :=
  if c.functions.isEmpty && c.base.isInfix then .operator c.base else .operand (.column c.untested)

/-- What stands on the right side of a range test: a pair of bounds without parentheses and without
its test, or else the operand as it stands. -/
def Operand.bounds : Operand → Argument
  | .column c => if c.isBounds then .operator c.base else .operand (.column c)
  | .literal v => .operand (.literal v)
  | .query q => .operand (.query q)

/-- How the text of a base begins. -/
def Base.opening : Base → Text.Opening
  | .named _ _ => .name
  | .binary .mod _ _ => .call
  | .binary _ _ _ => .group

/-- How the text of an expression begins. -/
def Column.opening (c : Column) : Text.Opening :=
  if c.functions.isEmpty then c.base.opening else .call

/-- How the text of an operand begins. -/
def Operand.opening : Operand → Text.Opening
  | .column c => c.opening
  | .literal (.string _) => .string
  | .literal _ => .number
  | .query _ => .group

theorem Base.opening_eq_group_iff {b : Base} : b.opening = .group ↔ b.isInfix = true := by
  cases b with
  | named name owner => simp [opening, isInfix]
  | binary op left right => cases op <;> simp [opening, isInfix, BinaryOp.isFunction]

theorem Base.isInfix_of_isConjunction {b : Base} (h : b.isConjunction = true) :
    b.isInfix = true := by
  cases b with
  | named name owner => cases h
  | binary op left right =>
    obtain rfl : op = .and := by simpa [isConjunction] using h
    rfl

theorem Func.isWord_name (f : Func) : Text.IsWord f.name := by
  cases f with
  | aggregate f => cases f <;> decide
  | unary f => cases f <;> decide

theorem Func.opening?_name (f : Func) : Text.opening? f.name.toList = some .call := by
  cases f with
  | aggregate f => cases f <;> decide
  | unary f => cases f <;> decide

namespace Column

/-- Without functions an operator is written in parentheses. -/
theorem sql_ofBase_of_isInfix {base : Base} (h : base.isInfix = true) (n : Nat) :
    Column.sql n ⟨base, [], none⟩ = Text.parenthesized (base.body n) := by
  simp only [Column.sql, around, NullTest.applied, List.foldl_nil, h, if_true]

/-- Without functions a name or a call is written as it stands. -/
theorem sql_ofBase_of_not_isInfix {base : Base} (h : base.isInfix = false) (n : Nat) :
    Column.sql n ⟨base, [], none⟩ = base.body n := by
  simp only [Column.sql, around, NullTest.applied, List.foldl_nil, h, Bool.false_eq_true, if_false]

/-- An expression is a base without functions or an expression with one more function around it. -/
theorem exists_applyFunc (c : Column) :
    c.functions = [] ∨ ∃ (d : Column) (f : Func), c = d.applyFunc f := by
  obtain ⟨base, functions, nullTest⟩ := c
  rcases List.eq_nil_or_concat' functions with rfl | ⟨others, f, rfl⟩
  · exact .inl rfl
  · exact .inr ⟨⟨base, others, nullTest⟩, f, rfl⟩

theorem opening_applyFunc (c : Column) (f : Func) : (c.applyFunc f).opening = .call := by
  simp [opening, applyFunc]

theorem opening_of_functions_eq_nil {c : Column} (h : c.functions = []) :
    c.opening = c.base.opening := by
  simp [opening, h]

/-- Only a column by name begins with a name. -/
theorem of_opening_eq_name {c : Column} (h : c.opening = .name) :
    c.functions = [] ∧ ∃ name owner, c.base = .named name owner := by
  unfold opening at h
  split_ifs at h with hnone
  refine ⟨List.isEmpty_iff.mp hnone, ?_⟩
  cases hbase : c.base with
  | named name owner => exact ⟨name, owner, rfl⟩
  | binary op left right => cases op <;> simp [hbase, Base.opening] at h

/-- Only an operator without functions stands in parentheses. -/
theorem of_opening_eq_group {c : Column} (h : c.opening = .group) :
    c.functions = [] ∧ c.base.isInfix = true := by
  unfold opening at h
  split_ifs at h with hnone
  exact ⟨List.isEmpty_iff.mp hnone, Base.opening_eq_group_iff.mp h⟩

/-- Only the remainder call and functions begin like a call. -/
theorem of_opening_eq_call {c : Column} (h : c.opening = .call) :
    (c.functions = [] ∧ ∃ left right, c.base = .binary .mod left right) ∨
      ∃ (d : Column) (f : Func), c = d.applyFunc f := by
  refine c.exists_applyFunc.imp_left fun hnone => ⟨hnone, ?_⟩
  rw [opening_of_functions_eq_nil hnone] at h
  cases hbase : c.base with
  | named name owner => simp [hbase, Base.opening] at h
  | binary op left right =>
    rw [hbase] at h
    cases op with
    | mod => exact ⟨left, right, rfl⟩
    | _ => cases h

/-- The first character of a text tells what kind of expression it is. -/
theorem opening?_sql_untested {c : Column} (h : c.Meets .basic) (n : Nat) :
    Text.opening? (c.untested.sql n).toList = some c.opening := by
  rcases c.exists_applyFunc with hnone | ⟨d, f, rfl⟩
  · obtain ⟨base, functions, nullTest⟩ := c
    subst hnone
    simp only [Column.Meets] at h
    rw [opening_of_functions_eq_nil rfl, untested]
    cases hop : base.isInfix with
    | true =>
      rw [sql_ofBase_of_isInfix hop, Base.opening_eq_group_iff.mpr hop, Text.parenthesized,
        String.append_assoc, String.toList_append]
      exact Text.opening?_append (by decide) _
    | false =>
      rw [sql_ofBase_of_not_isInfix hop]
      cases base with
      | named name owner =>
        rw [Base.body]
        exact (h.1 name owner rfl).opening?_sql
      | binary op left right =>
        obtain rfl : op = .mod := by simpa [Base.isInfix, BinaryOp.isFunction] using hop
        have hword : Text.opening? BinaryOp.mod.symbol.toList = some .call := by decide
        rw [Base.body, String.toList_append]
        exact Text.opening?_append hword _
  · rw [sql_untested_applyFunc, opening_applyFunc, Func.applied, String.toList_append]
    exact Text.opening?_append f.opening?_name _

/-- The parentheses that enclose an expression are those around an operator. -/
theorem ungrouped_sql_untested {c : Column} (h : c.Meets .basic) (n : Nat) :
    Text.ungrouped (c.untested.sql n) = c.argument.sql n := by
  unfold argument
  by_cases hgroup : (c.functions.isEmpty && c.base.isInfix) = true
  · obtain ⟨base, functions, nullTest⟩ := c
    simp only [Column.Meets] at h
    rw [if_pos hgroup, Argument.sql]
    rw [Bool.and_eq_true, List.isEmpty_iff] at hgroup
    obtain ⟨rfl, hop⟩ := hgroup
    rw [untested, sql_ofBase_of_isInfix hop, (base.passed_body h.2 hop n).ungrouped_parenthesized]
  · rw [if_neg hgroup, Argument.sql, Operand.sql]
    refine Text.ungrouped_of_head? fun hhead => hgroup ?_
    have hopening := opening?_sql_untested h n
    rw [Text.opening?, hhead] at hopening
    obtain ⟨hnone, hop⟩ := of_opening_eq_group (Option.some.inj hopening).symm
    rw [hnone, hop, List.isEmpty_nil, Bool.and_self]

theorem meets_argument {c : Column} (h : c.Meets .basic) : c.argument.Meets .basic := by
  unfold argument
  split_ifs with hgroup
  · rw [Bool.and_eq_true] at hgroup
    exact ⟨hgroup.2, (Column.meets_iff.mp h).2⟩
  · rw [Argument.Meets, Operand.Meets]
    exact h.of_base_eq rfl

theorem toOperand_argument (c : Column) : c.argument.toOperand = .column c.untested := by
  obtain ⟨base, functions, nullTest⟩ := c
  unfold argument
  split_ifs with hgroup
  · rw [Bool.and_eq_true, List.isEmpty_iff] at hgroup
    obtain ⟨rfl, -⟩ := hgroup
    rfl
  · rfl

end Column

namespace Operand

/-- The right side of a range test is written as its bounds. -/
theorem sql_bounds (side : Operand) (n : Nat) : side.bounds.sql n = side.rangeSql n := by
  cases side with
  | column c =>
    obtain ⟨base, functions, nullTest⟩ := c
    cases hbounds : base.isConjunction && functions.isEmpty <;>
      simp [bounds, Column.isBounds, Argument.sql, rangeSql, Operand.sql, Column.rangeSql,
        Column.sql, hbounds]
  | literal v => rfl
  | query q => rfl

theorem meets_bounds {side : Operand} (h : side.Meets .basic) : side.bounds.Meets .basic := by
  cases side with
  | column c =>
    rw [bounds]
    split_ifs with hbounds
    · rw [Operand.Meets, Column.meets_iff] at h
      refine ⟨?_, h.2⟩
      rw [Column.isBounds, Bool.and_eq_true] at hbounds
      exact Base.isInfix_of_isConjunction hbounds.1
    · exact h
  | literal v => exact h
  | query q => exact h

theorem toOperand_bounds (side : Operand) : side.bounds.toOperand = side.asBounds := by
  cases side with
  | column c =>
    obtain ⟨base, functions, nullTest⟩ := c
    rw [bounds, asBounds]
    split_ifs with hbounds
    · rw [Column.isBounds, Bool.and_eq_true, List.isEmpty_iff] at hbounds
      obtain ⟨-, rfl⟩ := hbounds
      rfl
    · rfl
  | literal v => rfl
  | query q => rfl

/-- Bounds are told by the operator and the functions alone. -/
theorem shown_asBounds (side : Operand) : side.asBounds.shown = side.shown.asBounds := by
  cases side with
  | column c =>
    obtain ⟨base, functions, nullTest⟩ := c
    cases hbounds : base.isConjunction && functions.isEmpty <;>
      simp [asBounds, Column.isBounds, Column.untested, shown_column, Column.shown_mk,
        Base.isConjunction_shown, hbounds]
  | literal v => rfl
  | query q => rfl

end Operand

/-- The first character of an operand tells what kind of operand it is. -/
theorem Operand.opening?_sql {side : Operand} (h : side.Meets .basic) (n : Nat) :
    Text.opening? (side.sql n).toList = some side.opening := by
  cases side with
  | column c =>
    rw [Operand.Meets] at h
    rw [Operand.sql, c.sql_eq_applied]
    have hopening := Column.opening?_sql_untested h n
    cases c.nullTest with
    | none => exact hopening
    | some test =>
      rw [NullTest.applied, String.append_assoc, String.toList_append]
      exact Text.opening?_append hopening _
  | literal v =>
    rw [Operand.Meets] at h
    cases v with
    | int n =>
      rw [Operand.sql, Literal.text]
      exact Text.opening?_toString_int n
    | string s =>
      rw [Operand.sql, Literal.text, Text.Quoted.toList_string]
      rfl
    | _ => cases h
  | query q =>
    rw [Operand.Meets] at h
    exact absurd h q.not_meets_basic

/-- Operands with the same text begin alike. -/
theorem Operand.opening_eq_of_append_eq {side other : Operand} (h : side.Meets .basic)
    (hother : other.Meets .basic) {n m : Nat} {u v : List Char}
    (heq : (side.sql n).toList ++ u = (other.sql m).toList ++ v) : side.opening = other.opening :=
  Text.opening_eq_of_append_eq (opening?_sql h n) (opening?_sql hother m) heq

/-- An expression does not begin like a literal. -/
theorem Operand.opening_column_ne (c : Column) (v : Literal) :
    (column c).opening ≠ (literal v).opening := by
  have hbase (b : Base) : b.opening ≠ .string ∧ b.opening ≠ .number := by
    cases b with
    | named name owner => simp [Base.opening]
    | binary op left right => cases op <;> simp [Base.opening]
  have hcolumn : c.opening ≠ .string ∧ c.opening ≠ .number := by
    unfold Column.opening
    split_ifs
    · exact hbase c.base
    · simp
  cases v with
  | string s => exact hcolumn.1
  | _ => exact hcolumn.2

end SqlTree
