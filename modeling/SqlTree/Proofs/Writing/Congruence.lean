import SqlTree.Query.Sql
import Mathlib.Data.List.Forall2

/-!
# Relations between texts that writing keeps

A statement is put together by a few steps: words without marks, texts joined by such words, and
texts in parentheses, which are added or taken away after a look at the text. Main statements: a
relation that these steps keep is kept by functions, tests, clauses and whole statements.
-/

namespace SqlTree

namespace Text

/-- The marks of the language: quotes, parentheses and the semicolon. -/
def marks : List Char := ['\'', '"', '(', ')', ';']

/-- Whether the character is a mark. -/
def isMark (c : Char) : Bool := marks.contains c

/-- A class of characters that has no mark in it. -/
theorem isMark_eq_false {p : Char → Bool} (hp : marks.any p = false) {c : Char}
    (hc : p c = true) : isMark c = false := by
  by_contra hne
  have hmem : c ∈ marks := by simpa [isMark] using hne
  rw [List.any_eq_false] at hp
  exact hp c hmem hc

theorem ne_of_isMark {c mark : Char} (hc : isMark c = false) (hmark : isMark mark = true) :
    c ≠ mark := by
  rintro rfl
  rw [hc] at hmark
  cases hmark

/-- The text is free of marks. -/
def Unmarked (text : String) : Prop := ∀ c ∈ text.toList, isMark c = false

instance (text : String) : Decidable (Unmarked text) :=
  List.decidableBAll (fun c => isMark c = false) text.toList

theorem Unmarked.append {a b : String} (ha : Unmarked a) (hb : Unmarked b) :
    Unmarked (a ++ b) := by
  unfold Unmarked
  rw [String.toList_append, List.forall_mem_append]
  exact ⟨ha, hb⟩

/-- The decimal digits of a number are no marks. -/
theorem unmarked_toString (n : Nat) : Unmarked (toString n) := by
  intro c hc
  have hdigits : c ∈ Nat.toDigits 10 n := by simpa using hc
  have hdigit := Nat.isDigit_of_mem_toDigits (by decide) (by decide) hdigits
  exact isMark_eq_false (p := Char.isDigit) (by decide) hdigit

theorem Unmarked.head?_ne {word : String} (h : Unmarked word) : word.toList.head? ≠ some '(' :=
  fun hhead => ne_of_isMark (h '(' (List.mem_of_mem_head? hhead)) (by decide) rfl

/-- A text that starts with a word does not start with a parenthesis. -/
theorem head?_append_ne {word : String} (hword : Unmarked word) (hne : word ≠ "")
    (text : String) : (word ++ text).toList.head? ≠ some '(' := by
  rw [String.toList_append, List.head?_append_of_ne_nil _ (mt String.toList_eq_nil_iff.mp hne)]
  exact hword.head?_ne

/-- Only a text that starts with a parenthesis is enclosed. -/
theorem isEnclosed_eq_false_of_head? {text : String} (h : text.toList.head? ≠ some '(') :
    isEnclosed text = false := by
  unfold isEnclosed
  split
  · rename_i hlist
    rw [hlist] at h
    exact absurd rfl h
  · rfl

/-- Only a text that starts with a parenthesis is stripped of a pair. -/
theorem ungrouped_of_head? {text : String} (h : text.toList.head? ≠ some '(') :
    ungrouped text = text := by
  simp [ungrouped, isEnclosed_eq_false_of_head? h]

/-- A text that starts with a word is not stripped. -/
theorem ungrouped_append {word : String} (hword : Unmarked word) (hne : word ≠ "")
    (text : String) : ungrouped (word ++ text) = word ++ text :=
  ungrouped_of_head? (head?_append_ne hword hne text)

/-- A relation between texts that is kept by the steps in which a statement is put together. -/
structure Congruence (R : String → String → Prop) : Prop where
  unmarked : ∀ {text : String}, Unmarked text → R text text
  joined : ∀ {a a' b b' : String} (separator : String), Unmarked separator → separator ≠ "" →
    R a a' → R b b' → R (a ++ separator ++ b) (a' ++ separator ++ b')
  parenthesized : ∀ {a a' : String}, R a a' → R (parenthesized a) (parenthesized a')
  grouped : ∀ {a a' : String}, R a a' → R (grouped a) (grouped a')
  regrouped : ∀ {a a' : String}, R a a' →
    R (Text.parenthesized (ungrouped (Text.parenthesized a)))
      (Text.parenthesized (ungrouped (Text.parenthesized a')))

/-- Two texts that are related as they stand and as arguments of a function. -/
structure Applicable (R : String → String → Prop) (a a' : String) : Prop where
  related : R a a'
  stripped : R (parenthesized (ungrouped a)) (parenthesized (ungrouped a'))

end Text

theorem Func.unmarked_name (f : Func) : Text.Unmarked f.name := by
  cases f with
  | aggregate f => cases f <;> decide
  | unary f => cases f <;> decide

theorem Func.name_ne_empty (f : Func) : f.name ≠ "" := by
  cases f with
  | aggregate f => cases f <;> decide
  | unary f => cases f <;> decide

theorem BinaryOp.unmarked_symbol (op : BinaryOp) : Text.Unmarked op.symbol := by
  cases op <;> decide

theorem NullTest.unmarked_text (test : NullTest) : Text.Unmarked test.text := by
  cases test <;> decide

theorem SetOp.unmarked_name (op : SetOp) : Text.Unmarked op.name := by
  cases op <;> decide

namespace Text.Congruence

variable {R : String → String → Prop} (hR : Congruence R) {a a' b b' : String}
include hR

/-- Texts behind a word. -/
theorem prepended (word : String) (hword : Unmarked word) (hne : word ≠ "") (h : R a a') :
    R (word ++ a) (word ++ a') := by
  have hempty : R "" "" := hR.unmarked (by decide)
  simpa using hR.joined word hword hne hempty h

/-- Two texts with a word between them. -/
theorem infixed {word : String} (hword : Unmarked word) (ha : R a a') (hb : R b b') :
    R (a ++ " " ++ word ++ " " ++ b) (a' ++ " " ++ word ++ " " ++ b') :=
  hR.joined " " (by decide) (by decide)
    (hR.joined " " (by decide) (by decide) ha (hR.unmarked hword)) hb

/-- A function call takes an argument of its own. -/
theorem applicable_call (word : String) (hword : Unmarked word) (hne : word ≠ "") (h : R a a') :
    Applicable R (word ++ Text.parenthesized a) (word ++ Text.parenthesized a') := by
  have hcall := hR.prepended word hword hne (hR.parenthesized h)
  refine ⟨hcall, ?_⟩
  rw [ungrouped_append hword hne, ungrouped_append hword hne]
  exact hR.parenthesized hcall

theorem applicable_parenthesized (h : R a a') :
    Applicable R (Text.parenthesized a) (Text.parenthesized a') :=
  ⟨hR.parenthesized h, hR.regrouped h⟩

theorem applied (f : Func) (h : Applicable R a a') :
    Applicable R (f.applied a) (f.applied a') := by
  have hcall := hR.prepended f.name f.unmarked_name f.name_ne_empty h.stripped
  refine ⟨hcall, ?_⟩
  unfold Func.applied
  rw [ungrouped_append f.unmarked_name f.name_ne_empty,
    ungrouped_append f.unmarked_name f.name_ne_empty]
  exact hR.parenthesized hcall

/-- Functions may be applied again and again, as the result of one is an argument of the next. -/
theorem foldl_applied (functions : List Func) (h : Applicable R a a') :
    Applicable R (functions.foldl Func.applied a) (functions.foldl Func.applied a') := by
  induction functions generalizing a a' with
  | nil => exact h
  | cons f rest ih => exact ih (hR.applied f h)

theorem nullTest_applied (nullTest : Option NullTest) (h : R a a') :
    R (NullTest.applied a nullTest) (NullTest.applied a' nullTest) := by
  cases nullTest with
  | none => exact h
  | some test => exact hR.joined " " (by decide) (by decide) h (hR.unmarked test.unmarked_text)

/-- What stands around a base that is an argument of its own. -/
theorem around {base base' : Base} (functions : List Func) (nullTest : Option NullTest)
    (hbase : base.isInfix = base'.isInfix) (h : R a a')
    (hcall : base.isInfix = false → Applicable R a a') :
    R (Column.around base functions nullTest a) (Column.around base' functions nullTest a') := by
  unfold Column.around
  refine hR.nullTest_applied nullTest (hR.foldl_applied functions ?_).related
  rw [← hbase]
  cases hinfix : base.isInfix with
  | true => exact hR.applicable_parenthesized h
  | false => exact hcall hinfix

end Text.Congruence

/-- Lists of tokens that are related one by one. -/
abbrev Statement.Related (R : String → String → Prop) : List String → List String → Prop :=
  List.Forall₂ R

/-- Two pieces contribute related tokens to the same clause. -/
structure Piece.Related (R : String → String → Prop) (piece piece' : Piece) : Prop where
  clause : piece.clause = piece'.clause
  tokens : Statement.Related R piece.tokens piece'.tokens

/-- What the pieces project: everything, if nothing in particular. -/
def Piece.items (pieces : List Piece) : List (List String) :=
  if (Piece.select .projection pieces).isEmpty then [[starName]]
  else Piece.select .projection pieces

/-- The pieces make related clauses; whether a projection to all columns is among them or not makes
no difference. -/
structure Piece.Alike (R : String → String → Prop) (pieces pieces' : List Piece) : Prop where
  items : List.Forall₂ (Statement.Related R) (Piece.items pieces) (Piece.items pieces')
  select : ∀ clause : Clause, clause ≠ .projection →
    List.Forall₂ (Statement.Related R) (Piece.select clause pieces) (Piece.select clause pieces')

/-- The piece of a projection to all columns. -/
def Piece.star : Piece := ⟨.projection, [starName]⟩

theorem isEmpty_eq_of_forall₂ {α β : Type} {r : α → β → Prop} {l : List α} {l' : List β}
    (h : List.Forall₂ r l l') : l.isEmpty = l'.isEmpty := by
  cases h <;> rfl

namespace Piece

variable {R : String → String → Prop} {pieces pieces' : List Piece}

theorem select_append (clause : Clause) (pieces pieces' : List Piece) :
    select clause (pieces ++ pieces') = select clause pieces ++ select clause pieces' :=
  List.filterMap_append

theorem mem_select_iff {clause : Clause} {tokens : List String} :
    tokens ∈ select clause pieces ↔
      ∃ piece ∈ pieces, piece.clause = clause ∧ piece.tokens = tokens := by
  simp only [select, List.mem_filterMap, Option.ite_none_right_eq_some, Option.some.injEq]

/-- Related pieces contribute the same to each clause. -/
theorem forall₂_select (h : List.Forall₂ (Piece.Related R) pieces pieces') (clause : Clause) :
    List.Forall₂ (Statement.Related R) (select clause pieces) (select clause pieces') := by
  induction h with
  | nil => exact .nil
  | @cons piece piece' rest rest' hpiece _ ih =>
    unfold select at ih ⊢
    rw [List.filterMap_cons, List.filterMap_cons, hpiece.clause]
    split_ifs with hclause
    · exact .cons hpiece.tokens ih
    · exact ih

theorem alike_of_related (hR : Text.Congruence R)
    (h : List.Forall₂ (Piece.Related R) pieces pieces') : Alike R pieces pieces' := by
  have hitems := forall₂_select h .projection
  refine ⟨?_, fun clause _ => forall₂_select h clause⟩
  unfold items
  rw [isEmpty_eq_of_forall₂ hitems]
  split
  · exact .cons (.cons (hR.unmarked (by decide)) .nil) .nil
  · exact hitems

/-- A projection to all columns is what is written for no projection, wherever it stands. -/
theorem alike_insert_star (hR : Text.Congruence R) {before after : List Piece}
    (h : List.Forall₂ (Piece.Related R) pieces (before ++ after))
    (hnone : select .projection (before ++ after) = []) :
    Alike R pieces (before ++ star :: after) := by
  have hselect (clause : Clause) : select clause (before ++ star :: after) =
      select clause before ++ (select clause [star] ++ select clause after) := by
    rw [select_append, ← List.singleton_append, select_append]
  have hitems := forall₂_select h .projection
  rw [hnone, List.forall₂_nil_right_iff] at hitems
  rw [select_append, List.append_eq_nil_iff] at hnone
  refine ⟨?_, fun clause hclause => ?_⟩
  · have hstar : items (before ++ star :: after) = [[starName]] := by
      rw [items, hselect, hnone.1, hnone.2]
      rfl
    have hall : items pieces = [[starName]] := by simp [items, hitems]
    rw [hstar, hall]
    exact .cons (.cons (hR.unmarked (by decide)) .nil) .nil
  · have hstar : select clause [star] = [] := by
      simp [select, star, hclause.symm]
    rw [hselect, hstar, List.nil_append, ← select_append]
    exact forall₂_select h clause

end Piece

namespace Statement

variable {R : String → String → Prop} (hR : Text.Congruence R)
include hR

/-- Words stand for themselves. -/
theorem related_words {words : List String} (h : ∀ word ∈ words, Text.Unmarked word) :
    Related R words words :=
  List.forall₂_same.mpr fun word hword => hR.unmarked (h word hword)

/-- Texts with a separator between them. -/
theorem related_intercalate (separator : String) (hseparator : Text.Unmarked separator)
    (hne : separator ≠ "") {tokens tokens' : List String} (h : Related R tokens tokens') :
    R (separator.intercalate tokens) (separator.intercalate tokens') := by
  have hempty : R "" "" := hR.unmarked (by decide)
  induction h with
  | nil => exact hempty
  | cons ha hrest ih =>
    cases hrest with
    | nil => simpa using ha
    | cons hb hrest =>
      rw [String.intercalate_cons_cons, String.intercalate_cons_cons]
      exact hR.joined separator hseparator hne ha ih

theorem related_text {tokens tokens' : List String} (h : Related R tokens tokens') :
    R (text tokens) (text tokens') :=
  related_intercalate hR " " (by decide) (by decide) h

theorem related_nested {tokens tokens' : List String} (h : Related R tokens tokens') :
    R (nested tokens) (nested tokens') :=
  hR.parenthesized (related_text hR h)

theorem related_named {name : String}
    (h : R (Text.Quoted.identifier name) (Text.Quoted.identifier name)) :
    Related R (named name) (named name) :=
  .cons (hR.unmarked (by decide)) (.cons h .nil)

theorem related_separated {separator : String} (hseparator : Text.Unmarked separator)
    {groups groups' : List (List String)} (h : List.Forall₂ (Related R) groups groups') :
    Related R (separated separator groups) (separated separator groups') := by
  unfold separated
  induction h with
  | nil => exact .nil
  | cons ha hrest ih =>
    cases hrest with
    | nil => simpa using ha
    | cons hb hrest =>
      rw [List.intercalate_cons_cons, List.intercalate_cons_cons]
      exact List.rel_append (List.rel_append ha (.cons (hR.unmarked hseparator) .nil)) ih

theorem related_conditions {keyword : String} (hkeyword : Text.Unmarked keyword)
    {parts parts' : List (List String)} (h : List.Forall₂ (Related R) parts parts') :
    Related R (conditions keyword parts) (conditions keyword parts') := by
  unfold conditions
  rw [isEmpty_eq_of_forall₂ h]
  split
  · exact .nil
  · exact .cons (hR.unmarked hkeyword) (related_separated hR (by decide) h)

theorem related_list {keyword : String} (hkeyword : Text.Unmarked keyword)
    {parts parts' : List (List String)} (h : List.Forall₂ (Related R) parts parts') :
    Related R (list keyword parts) (list keyword parts') := by
  unfold list
  rw [isEmpty_eq_of_forall₂ h]
  split
  · exact .nil
  · exact .cons (hR.unmarked hkeyword) (related_separated hR (by decide) h)

/-- The clauses up to the filters of groups are related if the source and the pieces are. -/
theorem related_select (distinct : Bool) {source source' : List String}
    {pieces pieces' : List Piece} (hsource : Related R source source')
    (h : Piece.Alike R pieces pieces') :
    Related R (select distinct source pieces) (select distinct source' pieces') := by
  have hdistinct : Related R (if distinct then ["DISTINCT"] else [])
      (if distinct then ["DISTINCT"] else []) := by
    cases distinct
    · exact .nil
    · exact related_words hR (by decide)
  have hconditions := List.rel_append (h.select .existence (by decide))
    (h.select .filter (by decide))
  exact List.rel_append (List.rel_append (List.rel_append (List.rel_append (List.rel_append
    (List.rel_append (List.rel_append (List.rel_append (related_words hR (by decide)) hdistinct)
      (related_separated hR (by decide) h.items)) (related_words hR (by decide))) hsource)
      (List.rel_flatten (h.select .join (by decide))))
      (related_conditions hR (by decide) hconditions))
      (related_list hR (by decide) (h.select .grouping (by decide))))
      (related_conditions hR (by decide) (h.select .having (by decide)))

/-- The clauses that order and limit are related if the pieces are. -/
theorem related_trailing (reversed : Bool) (limit : Option Nat) {pieces pieces' : List Piece}
    (h : Piece.Alike R pieces pieces') :
    Related R (trailing reversed limit pieces) (trailing reversed limit pieces') := by
  have horders := h.select .ordering (by decide)
  have hdirection : Related R
      (if (Piece.select .ordering pieces).isEmpty then [] else [if reversed then "DESC" else "ASC"])
      (if (Piece.select .ordering pieces').isEmpty then []
        else [if reversed then "DESC" else "ASC"]) := by
    rw [isEmpty_eq_of_forall₂ horders]
    split
    · exact .nil
    · cases reversed <;> exact related_words hR (by decide)
  refine List.rel_append
    (List.rel_append (related_list hR (by decide) horders) hdirection) ?_
  cases limit with
  | none => exact .nil
  | some n =>
    refine related_words hR ?_
    rw [List.forall_mem_cons, List.forall_mem_singleton]
    exact ⟨by decide, Text.unmarked_toString n⟩

end Statement

end SqlTree
