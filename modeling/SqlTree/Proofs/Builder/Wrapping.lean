import SqlTree.Proofs.Builder.Call
import SqlTree.Proofs.Writing.Projection

/-!
# Functions and tests for null around an expression

A program puts functions and a test for null around an expression, one call after another. The
functions are kept in the order of the calls and the test is kept apart. Main statements: the text
of the result has the functions in the order of the calls and the test behind all of them, so it
shows the order of the calls exactly if no function is called on an expression that is tested.
-/

namespace SqlTree

/-- A call that puts something around an expression. -/
inductive Wrap where
  | function (f : Func)
  | nullTest (test : NullTest)

namespace Wrap

/-- The function that is called, if one is. -/
def function? : Wrap → Option Func
  | .function f => some f
  | .nullTest _ => none

/-- The test that is called, if one is. -/
def test? : Wrap → Option NullTest
  | .function _ => none
  | .nullTest test => some test

/-- The text with what the call puts around it: a function takes the place of parentheses that
enclose the text, a test follows the text. -/
def around (text : String) : Wrap → String
  | .function f => f.applied text
  | .nullTest test => text ++ " " ++ test.text

/-- Whether no function is called on a tested expression; `tested` tells whether the one at hand
is. -/
def testsLast (tested : Bool) : List Wrap → Bool
  | [] => true
  | .function _ :: rest => !tested && testsLast tested rest
  | .nullTest _ :: rest => testsLast true rest

end Wrap

namespace Column

/-- The expression with one more function around it, if the function may be applied. -/
def withFunc (c : Column) : Func → Except Error Column
  | .aggregate f => c.withAggregate f
  | .unary f => c.withUnary f

/-- The expression after one call. -/
def wrap (c : Column) : Wrap → Except Error Column
  | .function f => c.withFunc f
  | .nullTest test => c.withNullTest test

/-- The expression after calls in a row, or the error of the first one that fails. -/
def wrapAll (c : Column) (calls : List Wrap) : Except Error Column := calls.foldlM wrap c

/-- The expression without its test for null. -/
def untested (c : Column) : Column := { c with nullTest := none }

variable {c c' : Column}

theorem eq_applyFunc_of_withFunc_eq_ok {f : Func} (h : c.withFunc f = .ok c') :
    c' = c.applyFunc f := by
  cases f with
  | aggregate f => exact (withAggregate_eq_ok_iff.mp h).2
  | unary f => exact (withUnary_eq_ok_iff.mp h).2

theorem wrapAll_cons_eq_ok_iff {call : Wrap} {calls : List Wrap} :
    c.wrapAll (call :: calls) = .ok c' ↔
      ∃ next, c.wrap call = .ok next ∧ next.wrapAll calls = .ok c' := by
  unfold wrapAll
  rw [List.foldlM_cons]
  cases c.wrap call <;> simp [bind, Except.bind]

/-- A test for null follows the rest of the text. -/
theorem sql_eq_applied (c : Column) (n : Nat) :
    c.sql n = NullTest.applied (c.untested.sql n) c.nullTest := by
  obtain ⟨base, functions, nullTest⟩ := c
  simp only [untested, Column.sql, Column.around, NullTest.applied]

/-- A function is written around everything but the test. -/
theorem sql_untested_applyFunc (c : Column) (f : Func) (n : Nat) :
    (c.applyFunc f).untested.sql n = f.applied (c.untested.sql n) := by
  obtain ⟨base, functions, nullTest⟩ := c
  simp only [applyFunc, untested, Column.sql, Column.around, NullTest.applied, List.foldl_append,
    List.foldl_cons, List.foldl_nil]

/-- What calls in a row make: the functions are appended in the order of the calls, and the
expression is tested as it was or by the test that is called. -/
theorem eq_of_wrapAll_eq_ok {calls : List Wrap} (h : c.wrapAll calls = .ok c') :
    c' = ⟨c.base, c.functions ++ calls.filterMap Wrap.function?,
      c.nullTest <|> calls.findSome? Wrap.test?⟩ := by
  induction calls generalizing c with
  | nil =>
    obtain rfl : c = c' := Except.ok.inj h
    obtain ⟨base, functions, nullTest⟩ := c
    cases nullTest <;> simp
  | cons call rest ih =>
    obtain ⟨next, hcall, hrest⟩ := wrapAll_cons_eq_ok_iff.mp h
    rw [ih hrest]
    cases call with
    | function f =>
      rw [eq_applyFunc_of_withFunc_eq_ok hcall]
      simp [applyFunc, Wrap.function?, Wrap.test?, List.findSome?_cons]
    | nullTest test =>
      obtain ⟨hnone, rfl⟩ := withNullTest_eq_ok_iff.mp hcall
      simp [hnone, Wrap.function?, Wrap.test?, List.filterMap_cons, List.findSome?_cons]

/-- The functions are written in the order of the calls, the first one innermost, and the test
follows them all. -/
theorem sql_of_wrapAll_eq_ok {calls : List Wrap} (h : c.wrapAll calls = .ok c') (n : Nat) :
    c'.sql n = NullTest.applied
      ((calls.filterMap Wrap.function?).foldl Func.applied (c.untested.sql n))
      (c.nullTest <|> calls.findSome? Wrap.test?) := by
  rw [eq_of_wrapAll_eq_ok h]
  simp only [untested, Column.sql, Column.around, List.foldl_append, NullTest.applied]

end Column

/-- A text with a function around it ends with a parenthesis. -/
theorem Func.getLast?_applied (text : String) (f : Func) :
    (f.applied text).toList.getLast? = some ')' := by
  have htext : (f.applied text).toList =
      (f.name ++ "(" ++ Text.ungrouped text).toList ++ [')'] := by
    simp [Func.applied, Text.parenthesized]
  rw [htext, List.getLast?_concat]

/-- A text with a test behind it ends with a letter. -/
theorem NullTest.getLast?_applied (text : String) (test : NullTest) :
    (NullTest.applied text (some test)).toList.getLast? = some 'L' := by
  cases test <;> simp [NullTest.applied, NullTest.text]

namespace Wrap

/-- After functions only, at least one, a text ends with a parenthesis. -/
theorem getLast?_foldl_around {calls : List Wrap} (h : ∀ call ∈ calls, call.test? = none)
    (hne : calls ≠ []) (text : String) :
    (calls.foldl around text).toList.getLast? = some ')' := by
  rw [← List.dropLast_append_getLast hne, List.foldl_append]
  cases hlast : calls.getLast hne with
  | function f => exact f.getLast?_applied _
  | nullTest test =>
    have htest := h _ (List.getLast_mem hne)
    rw [hlast] at htest
    cases htest

end Wrap

namespace Column

variable {c c' : Column}

/-- A tested expression is not tested again. -/
theorem test?_eq_none_of_wrapAll_eq_ok {calls : List Wrap} (h : c.wrapAll calls = .ok c')
    (htested : c.nullTest.isSome = true) : ∀ call ∈ calls, call.test? = none := by
  induction calls generalizing c with
  | nil => exact List.forall_mem_nil _
  | cons call rest ih =>
    obtain ⟨next, hcall, hrest⟩ := wrapAll_cons_eq_ok_iff.mp h
    cases call with
    | function f =>
      have hnext : next.nullTest.isSome = true := by
        rw [eq_applyFunc_of_withFunc_eq_ok hcall]
        exact htested
      exact List.forall_mem_cons.mpr ⟨rfl, ih hrest hnext⟩
    | nullTest test =>
      rw [(withNullTest_eq_ok_iff.mp hcall).1] at htested
      cases htested

/-- The text shows the order of the calls exactly if no function is called on a tested
expression. -/
theorem sql_eq_foldl_around_iff {calls : List Wrap} (h : c.wrapAll calls = .ok c') (n : Nat) :
    c'.sql n = calls.foldl Wrap.around (c.sql n) ↔
      Wrap.testsLast c.nullTest.isSome calls = true := by
  induction calls generalizing c with
  | nil =>
    cases h
    simp [Wrap.testsLast]
  | cons call rest ih =>
    obtain ⟨next, hcall, hrest⟩ := wrapAll_cons_eq_ok_iff.mp h
    cases call with
    | function f =>
      cases htest : c.nullTest with
      | none =>
        have hnext := eq_applyFunc_of_withFunc_eq_ok hcall
        have htext : next.sql n = f.applied (c.sql n) := by
          have hnone : next.nullTest = none := by rw [hnext, ← htest]; rfl
          rw [sql_eq_applied, sql_eq_applied c, hnone, htest, hnext]
          exact sql_untested_applyFunc c f n
        have hkept : next.nullTest = c.nullTest := by rw [hnext]; rfl
        rw [List.foldl_cons, Wrap.around, ← htext, ih hrest, hkept, htest]
        simp [Wrap.testsLast]
      | some test =>
        -- the test ends the text, but the last call is a function
        have hfunctions := test?_eq_none_of_wrapAll_eq_ok h (by rw [htest]; rfl)
        have hlast := Wrap.getLast?_foldl_around hfunctions (List.cons_ne_nil _ _) (c.sql n)
        have htested : (c.nullTest <|> (Wrap.function f :: rest).findSome? Wrap.test?) =
            some test := by
          rw [htest]
          rfl
        constructor
        · intro heq
          rw [← heq, sql_of_wrapAll_eq_ok h, htested, NullTest.getLast?_applied] at hlast
          cases hlast
        · intro hcalls
          cases hcalls
    | nullTest test =>
      obtain ⟨hnone, rfl⟩ := withNullTest_eq_ok_iff.mp hcall
      have htext : ({ c with nullTest := some test } : Column).sql n =
          c.sql n ++ " " ++ test.text := by
        rw [sql_eq_applied, sql_eq_applied c, hnone]
        rfl
      rw [List.foldl_cons, Wrap.around, ← htext, ih hrest]
      rfl

/-- A column expression is compiled to its text if it can be written. -/
theorem compile_eq_map_sql (c : Column) :
    c.compile = c.base.check.map fun _ => c.sql 0 ++ ";" := by
  have hcheck : c.check = c.base.check := by
    cases c
    simp only [Column.check]
  rw [← hcheck, ← c.check_projected, ← c.sql_projected, compile]
  cases c.projected.check <;> rfl

theorem compile_eq_ok_iff_sql {c : Column} {body : String} :
    c.compile = .ok (body ++ ";") ↔ c.base.check = .ok () ∧ c.sql 0 = body := by
  rw [compile_eq_map_sql]
  cases c.base.check <;> simp [Except.map, String.append_left_inj]

/-- Calls that succeed append their functions to those of the expression, in the order of the calls.
In the text the first one is innermost, and the test for null follows all functions whenever it was
called. So the text of each call is around the text before it exactly if no function is called on
a tested expression. -/
theorem compile_of_wrapAll_eq_ok {calls : List Wrap} (h : c.wrapAll calls = .ok c') :
    c' = ⟨c.base, c.functions ++ calls.filterMap Wrap.function?,
      c.nullTest <|> calls.findSome? Wrap.test?⟩ ∧
    (∀ e, c'.compile = .error e ↔ c.compile = .error e) ∧
    (∀ body, c.untested.compile = .ok (body ++ ";") →
      c'.compile = .ok (NullTest.applied ((calls.filterMap Wrap.function?).foldl Func.applied body)
        (c.nullTest <|> calls.findSome? Wrap.test?) ++ ";")) ∧
    ∀ body, c.compile = .ok (body ++ ";") →
      (c'.compile = .ok (calls.foldl Wrap.around body ++ ";") ↔
        Wrap.testsLast c.nullTest.isSome calls = true) := by
  have heq := eq_of_wrapAll_eq_ok h
  have hbase : c'.base = c.base := by rw [heq]
  refine ⟨heq, fun e => ?_, fun body hbody => ?_, fun body hbody => ?_⟩
  · rw [compile_eq_map_sql, compile_eq_map_sql c, hbase]
    cases c.base.check <;> simp [Except.map]
  · obtain ⟨hcheck, rfl⟩ := compile_eq_ok_iff_sql.mp hbody
    rw [compile_eq_ok_iff_sql, hbase]
    exact ⟨hcheck, sql_of_wrapAll_eq_ok h 0⟩
  · obtain ⟨hcheck, rfl⟩ := compile_eq_ok_iff_sql.mp hbody
    rw [compile_eq_ok_iff_sql, hbase, sql_eq_foldl_around_iff h]
    exact ⟨And.right, fun hcalls => ⟨hcheck, hcalls⟩⟩

/-- A sum that is rounded, tested and negated: the test is written behind the negation. -/
theorem compile_wrapAll_negated :
    let sum : Column := (ofName "a").combine .add (.literal (.int 1))
    let calls : List Wrap :=
      [.function (.unary .round), .nullTest .isNotNull, .function (.unary .not)]
    let negated : Column := ⟨sum.base, [.unary .round, .unary .not], some .isNotNull⟩
    sum.wrapAll calls = .ok negated ∧ sum.untested.compile = .ok ("(a + 1)" ++ ";") ∧
      negated.compile = .ok "NOT(ROUND(a + 1)) IS NOT NULL;" ∧
      negated.compile ≠ .ok (calls.foldl Wrap.around "(a + 1)" ++ ";") := by
  intro sum calls negated
  have hcalls : sum.wrapAll calls = .ok negated := rfl
  have hsql : sum.untested.compile = .ok ("(a + 1)" ++ ";") := by decide +kernel
  obtain ⟨_, _, htext, horder⟩ := compile_of_wrapAll_eq_ok hcalls
  have hnegated := htext "(a + 1)" hsql
  have hshown := mt (horder "(a + 1)" hsql).mp (by decide)
  have hwritten : NullTest.applied ((calls.filterMap Wrap.function?).foldl Func.applied "(a + 1)")
      (some .isNotNull) ++ ";" = "NOT(ROUND(a + 1)) IS NOT NULL;" := by decide +kernel
  exact ⟨hcalls, hsql, hnegated.trans (congrArg Except.ok hwritten), hshown⟩

/-- A column that is negated after a test for null is tested after its negation, and the two orders
of the calls make the same expression. -/
theorem not_forall_compile_wrapAll :
    (∃ negated : Column,
      (ofName "x").wrapAll [.nullTest .isNull, .function (.unary .not)] = .ok negated ∧
        (ofName "x").wrapAll [.function (.unary .not), .nullTest .isNull] = .ok negated ∧
        negated.compile = .ok "NOT(x) IS NULL;") ∧
    ¬ ∀ (c c' : Column) (calls : List Wrap) (body : String), c.wrapAll calls = .ok c' →
      c.compile = .ok (body ++ ";") → c'.compile = .ok (calls.foldl Wrap.around body ++ ";") := by
  let calls : List Wrap := [.nullTest .isNull, .function (.unary .not)]
  let negated : Column := ⟨.named "x" none, [.unary .not], some .isNull⟩
  have hcalls : (ofName "x").wrapAll calls = .ok negated := rfl
  have hsql : negated.compile = .ok "NOT(x) IS NULL;" := by decide +kernel
  have hordered : calls.foldl Wrap.around "x" ++ ";" = "NOT(x IS NULL);" := by decide +kernel
  refine ⟨⟨negated, hcalls, rfl, hsql⟩, fun hall => ?_⟩
  have hshown := hall (ofName "x") negated calls "x" hcalls (by decide +kernel)
  rw [hsql, hordered] at hshown
  exact absurd (Except.ok.inj hshown) (by decide)

end Column

end SqlTree
