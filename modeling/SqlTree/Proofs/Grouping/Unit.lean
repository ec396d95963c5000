import SqlTree.Proofs.Lexical.Statement
import SqlTree.Proofs.Reading.Opening

/-!
# Texts that hold together

An operand of an operator holds together, whatever stands next to it, if it is a single name or
literal, a function call, or a group in parentheses. Main statements: such a text is balanced and
has no blank outside quotes and parentheses, and a balanced text with a test for null behind it has
one.
-/

namespace SqlTree.Text

/-- Whether an identifier can start with the character. -/
def isIdentifierStart (c : Char) : Bool := c.isAlpha || c == '_'

/-- Whether an identifier can go on with the character. -/
def isIdentifierPart (c : Char) : Bool := isIdentifierStart c || c.isDigit

/-- Whether the name is an identifier: letters, digits and underscores, and no digit at first. -/
def isIdentifier (name : String) : Bool :=
  name.toList.head?.any isIdentifierStart && name.toList.all isIdentifierPart

/-- Identifiers with points between them, such as a table behind its schema. -/
inductive IsPath : String → Prop where
  | identifier {name : String} (hname : isIdentifier name = true) : IsPath name
  | member {path name : String} (hpath : IsPath path) (hname : isIdentifier name = true) :
      IsPath (path ++ "." ++ name)

/-- A single name: a path, a name that is qualified by a quoted alias, or the star. -/
inductive IsName : String → Prop where
  | star : IsName starName
  | path {text : String} (h : IsPath text) : IsName text
  | aliased (aliasName : String) {name : String} (hname : isIdentifier name = true) :
      IsName (Quoted.identifier aliasName ++ "." ++ name)

/-- The text is scanned to its end, and its parentheses outside quotes are balanced. -/
def IsBalanced (text : String) : Prop :=
  ∃ lexemes : List Lexeme, Lexed lexemes text.toList ∧ Lexeme.Balanced lexemes

/-- A text that holds together: a name, a literal, a function call or a group. -/
inductive IsUnit : String → Prop where
  | name {text : String} (h : IsName text) : IsUnit text
  | literal (v : Literal) : IsUnit v.text
  | call {function arguments : String} (hfunction : isIdentifier function = true)
      (harguments : IsBalanced arguments) : IsUnit (function ++ parenthesized arguments)
  | group {body : String} (hbody : IsBalanced body) : IsUnit (parenthesized body)

theorem isIdentifierPart_of_isIdentifier {name : String} (h : isIdentifier name = true) :
    ∀ c ∈ name.toList, isIdentifierPart c = true :=
  List.all_eq_true.mp (Bool.and_eq_true_iff.mp h).2

theorem unmarked_of_isIdentifier {name : String} (h : isIdentifier name = true) :
    Unmarked name := fun c hc =>
  isMark_eq_false (p := isIdentifierPart) (by decide) (isIdentifierPart_of_isIdentifier h c hc)

theorem isWord_of_isIdentifier {name : String} (h : isIdentifier name = true) : IsWord name :=
  fun c hc =>
    endsWord_eq_false (p := isIdentifierPart) (by decide) (isIdentifierPart_of_isIdentifier h c hc)

/-- A plain identifier is one with lower-case letters only. -/
theorem isIdentifier_of_isPlainIdentifier {name : String}
    (h : isPlainIdentifier name = true) : isIdentifier name = true := by
  have hstart {c : Char} (hc : isPlainStart c = true) : isIdentifierStart c = true := by
    rcases Bool.or_eq_true_iff.mp hc with hc | hc
    · have halpha : c.isAlpha = true := Bool.or_eq_true_iff.mpr (Or.inr hc)
      simp [isIdentifierStart, halpha]
    · simp [isIdentifierStart, hc]
  have hpart {c : Char} (hc : isPlainPart c = true) : isIdentifierPart c = true := by
    rcases Bool.or_eq_true_iff.mp hc with hc | hc
    · simp [isIdentifierPart, hstart hc]
    · simp [isIdentifierPart, hc]
  have hhead : name.toList.head?.any isIdentifierStart = true := by
    unfold isPlainIdentifier at h
    cases hlist : name.toList with
    | nil =>
      rw [hlist] at h
      cases h
    | cons c rest =>
      rw [hlist, Bool.and_eq_true] at h
      exact hstart h.1
  refine Bool.and_eq_true_iff.mpr ⟨hhead, List.all_eq_true.mpr fun c hc => ?_⟩
  exact hpart (isPlainPart_of_isPlainIdentifier h c hc)

theorem IsPath.unmarked {path : String} (h : IsPath path) : Unmarked path := by
  induction h with
  | identifier hname => exact unmarked_of_isIdentifier hname
  | member _ hname ih =>
    exact (ih.append (b := ".") (by decide)).append (unmarked_of_isIdentifier hname)

theorem IsPath.isWord {path : String} (h : IsPath path) : IsWord path := by
  induction h with
  | identifier hname => exact isWord_of_isIdentifier hname
  | member _ hname ih =>
    exact (ih.append (b := ".") (by decide)).append (isWord_of_isIdentifier hname)

theorem isWord_floatText (x : Decimal.Binary64) : IsWord (Literal.floatText x) := by
  unfold Literal.floatText
  split
  · refine IsWord.append ?_ (forall_mem_positional ?_ (by decide) _)
    · split <;> decide
    · exact fun _ => endsWord_eq_false (by decide)
  · decide

namespace Lexeme

/-- Whether a blank stands outside quotes and outside parentheses, if the first lexeme stands at the
given depth. -/
def blankAt (depth : Nat) : List Lexeme → Bool
  | [] => false
  | .plain '(' :: rest => blankAt (depth + 1) rest
  | .plain ')' :: rest => blankAt (depth - 1) rest
  | lexeme :: rest => (lexeme == .plain ' ' && depth == 0) || blankAt depth rest

/-- A blank stands in the first text or in the second one, which starts where the first ends. -/
theorem blankAt_append {k m : Nat} {a : List Lexeme} (h : depthAfter? k a = some m)
    (b : List Lexeme) : blankAt k (a ++ b) = (blankAt k a || blankAt m b) := by
  fun_induction depthAfter? k a with
  | case1 =>
    obtain rfl := Option.some.inj h
    rfl
  | case2 depth rest ih => simpa [blankAt] using ih h
  | case3 => cases h
  | case4 rest depth ih => simpa [blankAt] using ih h
  | case5 depth lexeme rest hopen hclose ih => simp [blankAt, ih h, Bool.or_assoc]

/-- What stands in parentheses stands outside of none, as long as they are not closed. -/
theorem blankAt_succ {k m : Nat} {a : List Lexeme} (h : depthAfter? k a = some m) :
    blankAt (k + 1) a = false := by
  fun_induction depthAfter? k a with
  | case1 => rfl
  | case2 depth rest ih => simpa [blankAt] using ih h
  | case3 => cases h
  | case4 rest depth ih => simpa [blankAt] using ih h
  | case5 depth lexeme rest hopen hclose ih => simp [blankAt, ih h]

/-- The lexemes are balanced and have no blank outside parentheses. -/
structure Solid (lexemes : List Lexeme) : Prop where
  balanced : Balanced lexemes
  blankAt_eq : blankAt 0 lexemes = false

namespace Solid

variable {a b : List Lexeme}

theorem append (ha : Solid a) (hb : Solid b) : Solid (a ++ b) where
  balanced := ha.balanced.append hb.balanced
  blankAt_eq := by
    rw [blankAt_append (ha.balanced.depthAfter?_eq 0), ha.blankAt_eq, hb.blankAt_eq, Bool.or_false]

theorem quoted (delimiter : Char) (text : List Char) : Solid [.quoted delimiter text] where
  balanced := .quoted delimiter text
  blankAt_eq := by simp [blankAt]

/-- A word has no blanks at all. -/
theorem word {text : String} (hunmarked : Unmarked text) (hword : IsWord text) :
    Solid (text.toList.map Lexeme.plain) where
  balanced := Balanced.closure.plains hunmarked
  blankAt_eq := by
    unfold IsWord at hword
    generalize text.toList = word at hword
    induction word with
    | nil => rfl
    | cons c rest ih =>
      rw [List.forall_mem_cons] at hword
      obtain ⟨hc, hrest⟩ := hword
      simp only [endsWord, Bool.or_eq_false_iff, beq_eq_false_iff_ne] at hc
      simp [blankAt, hc, ih hrest]

theorem parenthesized (ha : Balanced a) : Solid (.plain '(' :: (a ++ [.plain ')'])) where
  balanced := ha.parenthesized
  blankAt_eq := by
    have hdepth := ha.depthAfter?_eq
    rw [blankAt, blankAt_append (hdepth 1), blankAt_succ (hdepth 0)]
    rfl

end Solid

end Lexeme

/-- The text is balanced and has no blank outside quotes and parentheses. -/
def IsSolid (text : String) : Prop :=
  ∃ lexemes : List Lexeme, Lexed lexemes text.toList ∧ Lexeme.Solid lexemes

theorem Alike.isBalanced {s t : String} (h : Alike id Lexeme.Balanced s t) : IsBalanced s := by
  obtain ⟨lexemes, hs, _, hbalanced⟩ := h
  exact ⟨lexemes, hs, hbalanced⟩

namespace IsSolid

theorem isBalanced {text : String} (h : IsSolid text) : IsBalanced text := by
  obtain ⟨lexemes, htext, hsolid⟩ := h
  exact ⟨lexemes, htext, hsolid.balanced⟩

theorem word {text : String} (hunmarked : Unmarked text) (hword : IsWord text) : IsSolid text :=
  ⟨_, .unmarked hunmarked, .word hunmarked hword⟩

theorem string (text : String) : IsSolid (Quoted.string text) :=
  ⟨_, Lexed.string text, .quoted _ _⟩

theorem parenthesized {body : String} (hbody : IsBalanced body) :
    IsSolid (Text.parenthesized body) := by
  obtain ⟨lexemes, htext, hbalanced⟩ := hbody
  exact ⟨_, htext.parenthesized, .parenthesized hbalanced⟩

/-- A call is a word and a group behind it. -/
theorem call {function arguments : String} (hfunction : isIdentifier function = true)
    (harguments : IsBalanced arguments) :
    IsSolid (function ++ Text.parenthesized arguments) := by
  obtain ⟨lexemes, htext, hsolid⟩ := parenthesized harguments
  have hunmarked := unmarked_of_isIdentifier hfunction
  refine ⟨_, ?_, (Lexeme.Solid.word hunmarked (isWord_of_isIdentifier hfunction)).append hsolid⟩
  rw [String.toList_append]
  exact .plains (fun c hc => isQuote_of_isMark (hunmarked c hc)) htext

theorem name {text : String} (h : IsName text) : IsSolid text := by
  cases h with
  | star => exact word (by decide) (by decide)
  | path h => exact word h.unmarked h.isWord
  | aliased aliasName hname =>
    have hunmarked := unmarked_of_isIdentifier hname
    have hpoint : Unmarked "." := by decide
    exact ⟨_, (Lexed.identifier aliasName).joined hpoint (by decide) (.unmarked hunmarked),
      (Lexeme.Solid.quoted _ _).append ((Lexeme.Solid.word hpoint (by decide)).append
        (.word hunmarked (isWord_of_isIdentifier hname)))⟩

/-- The items of a tuple stand in its parentheses; other literals are words or strings. -/
theorem literal (v : Literal) : IsSolid v.text := by
  have hstring := Alike.string (f := id) Lexeme.Balanced.closure
  have hbalanced := (Literal.related_text Alike.congruence_balanced hstring v
    fun _ _ => rfl).isBalanced
  cases v with
  | null => exact word (by decide +kernel) (by decide +kernel)
  | bool value => cases value <;> exact word (by decide +kernel) (by decide +kernel)
  | int n =>
    simp only [Literal.text]
    exact word (unmarked_toString_int n) (isWord_toString_int n)
  | float x =>
    simp only [Literal.text]
    exact word (unmarked_floatText x) (isWord_floatText x)
  | string s =>
    simp only [Literal.text]
    exact string s
  | date d =>
    simp only [Literal.text]
    exact string d.text
  | timestamp t =>
    simp only [Literal.text]
    exact string t.text
  | tuple items =>
    have hitems := Statement.related_intercalate Alike.congruence_balanced "," (by decide)
      (by decide) (Literal.related_texts Alike.congruence_balanced hstring items fun _ _ => rfl)
    simp only [Literal.text]
    exact parenthesized hitems.isBalanced

end IsSolid

/-- A text that holds together has no blank outside quotes and parentheses. -/
theorem IsUnit.isSolid {text : String} (h : IsUnit text) : IsSolid text := by
  cases h with
  | name h => exact .name h
  | literal v => exact .literal v
  | call hfunction harguments => exact .call hfunction harguments
  | group hbody => exact .parenthesized hbody

/-- A test for null is set off by a blank, so that it can be taken for that of a neighbour. -/
theorem not_isUnit_tested {text : String} (htext : IsBalanced text) (test : NullTest) :
    ¬ IsUnit (text ++ " " ++ test.text) := by
  intro hunit
  obtain ⟨lexemes, hlexed, hbalanced⟩ := htext
  obtain ⟨others, hothers, hsolid⟩ := hunit.isSolid
  have hblank : Unmarked " " := by decide
  have hjoined := hlexed.joined hblank (by decide) (.unmarked test.unmarked_text)
  -- The text has its lexemes only once, so those without a blank are these.
  obtain rfl := Option.some.inj (hothers.lexemes?_eq.symm.trans hjoined.lexemes?_eq)
  have hnone := hsolid.blankAt_eq
  rw [Lexeme.blankAt_append (hbalanced.depthAfter?_eq 0), Bool.or_eq_false_iff] at hnone
  exact absurd hnone.2 (by simp [Lexeme.blankAt])

theorem IsUnit.isBalanced {text : String} (h : IsUnit text) : IsBalanced text :=
  h.isSolid.isBalanced

theorem IsName.head?_ne {text : String} (h : IsName text) : text.toList.head? ≠ some '(' := by
  cases h with
  | star => decide
  | path h => exact h.unmarked.head?_ne
  | aliased aliasName hname => simp [Quoted.identifier, Quoted.encode]

/-- A text that holds together and is balanced also without the parentheses that enclose it, which
a function around it takes away. -/
structure IsArgument (text : String) : Prop where
  isUnit : IsUnit text
  ungrouped : IsBalanced (ungrouped text)

namespace IsArgument

theorem name {text : String} (h : IsName text) : IsArgument text where
  isUnit := .name h
  ungrouped := by
    rw [ungrouped_of_head? h.head?_ne]
    exact (IsUnit.name h).isBalanced

theorem call {function arguments : String} (hfunction : isIdentifier function = true)
    (harguments : IsBalanced arguments) :
    IsArgument (function ++ parenthesized arguments) where
  isUnit := .call hfunction harguments
  ungrouped := by
    have hne : function ≠ "" := by
      rintro rfl
      cases hfunction
    rw [ungrouped_append (unmarked_of_isIdentifier hfunction) hne]
    exact (IsUnit.call hfunction harguments).isBalanced

theorem group {body : String} (hbody : IsBalanced body) : IsArgument (parenthesized body) where
  isUnit := .group hbody
  ungrouped := by
    by_cases henclosed : isEnclosed (parenthesized body) = true
    · rw [ungrouped_parenthesized henclosed]
      exact hbody
    · rw [Text.ungrouped, if_neg henclosed]
      exact (IsUnit.group hbody).isBalanced

end IsArgument

end SqlTree.Text

namespace SqlTree

theorem Func.isIdentifier_name (f : Func) : Text.isIdentifier f.name = true := by
  cases f with
  | aggregate f => cases f <;> decide
  | unary f => cases f <;> decide

/-- Functions make calls of arguments, which are arguments again. -/
theorem Text.IsArgument.foldl_applied {text : String} (h : Text.IsArgument text)
    (functions : List Func) : Text.IsArgument (functions.foldl Func.applied text) := by
  induction functions generalizing text with
  | nil => exact h
  | cons f rest ih => exact ih (.call f.isIdentifier_name h.ungrouped)

end SqlTree
