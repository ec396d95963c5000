import SqlTree.Proofs.Lexical.Lexeme
import SqlTree.Proofs.Writing.Congruence

/-!
# Parentheses outside quotes

Parentheses group a statement only where they stand outside quotes. The test for an enclosing pair
looks at characters and knows of single quotes alone. Main statements: balanced texts can be joined
and put in parentheses, and the test sees the parentheses outside quotes if there are no marks in
identifiers.
-/

namespace SqlTree.Text

namespace Lexeme

/-- How deep the last lexeme stands when the first one stands at the given depth. There is no depth
below zero. -/
def depthAfter? (depth : Nat) : List Lexeme → Option Nat
  | [] => some depth
  | .plain '(' :: rest => depthAfter? (depth + 1) rest
  | .plain ')' :: rest =>
    match depth with
    | 0 => none
    | depth + 1 => depthAfter? depth rest
  | _ :: rest => depthAfter? depth rest

theorem depthAfter?_append (depth : Nat) (a b : List Lexeme) :
    depthAfter? depth (a ++ b) = (depthAfter? depth a).bind fun inner => depthAfter? inner b := by
  fun_induction depthAfter? depth a with
  | case1 => rfl
  | case2 depth rest ih => simpa [depthAfter?] using ih
  | case3 rest => simp [depthAfter?]
  | case4 rest depth ih => simpa [depthAfter?] using ih
  | case5 depth lexeme rest hopen hclose ih => simpa [depthAfter?] using ih

/-- The lexemes leave every depth as it was, and no statement ends within them. -/
structure Balanced (lexemes : List Lexeme) : Prop where
  depthAfter?_eq : ∀ depth : Nat, depthAfter? depth lexemes = some depth
  semicolon_notMem : .plain ';' ∉ lexemes

namespace Balanced

variable {a b : List Lexeme}

theorem nil : Balanced [] := ⟨fun _ => rfl, List.not_mem_nil⟩

theorem append (ha : Balanced a) (hb : Balanced b) : Balanced (a ++ b) where
  depthAfter?_eq depth := by
    rw [depthAfter?_append, ha.depthAfter?_eq, Option.bind_some, hb.depthAfter?_eq]
  semicolon_notMem h := by
    rcases List.mem_append.mp h with h | h
    · exact ha.semicolon_notMem h
    · exact hb.semicolon_notMem h

/-- A parenthesis that is opened and closed again leaves the depth as it was. -/
theorem parenthesized (ha : Balanced a) : Balanced (.plain '(' :: (a ++ [.plain ')'])) where
  depthAfter?_eq depth := by
    rw [depthAfter?, depthAfter?_append, ha.depthAfter?_eq]
    rfl
  semicolon_notMem h := by
    simp only [List.mem_cons, List.mem_append, List.not_mem_nil, or_false] at h
    rcases h with h | h | h
    · cases h
    · exact ha.semicolon_notMem h
    · cases h

theorem plain {c : Char} (hc : isMark c = false) : Balanced [.plain c] where
  depthAfter?_eq depth := by
    have hopen : c ≠ '(' := ne_of_isMark hc (by decide)
    have hclose : c ≠ ')' := ne_of_isMark hc (by decide)
    simp [depthAfter?, hopen, hclose]
  semicolon_notMem h := by
    have hend : c ≠ ';' := ne_of_isMark hc (by decide)
    exact hend (by simpa using h : ';' = c).symm

/-- Whatever stands between quotes. -/
theorem quoted (delimiter : Char) (text : List Char) : Balanced [.quoted delimiter text] where
  depthAfter?_eq depth := by simp [depthAfter?]
  semicolon_notMem := by simp

end Balanced

/-- Whether the outermost group closes with the last lexeme. -/
def closesLast (depth : Nat) : List Lexeme → Bool
  | [] => false
  | .quoted _ _ :: rest => closesLast depth rest
  | .plain c :: rest =>
    if c = '(' then closesLast (depth + 1) rest
    else if c = ')' then
      match depth with
      | 0 => rest.isEmpty
      | depth + 1 => closesLast depth rest
    else closesLast depth rest

/-- Whether one pair of parentheses encloses all lexemes. -/
def isEnclosed : List Lexeme → Bool
  | .plain '(' :: rest => closesLast 0 rest
  | _ => false

/-- There are no marks in identifiers. -/
def Tame (lexemes : List Lexeme) : Prop :=
  ∀ name, .quoted '"' name ∈ lexemes → ∀ c ∈ name, isMark c = false

end Lexeme

/-- A string is passed over: its quotes come in pairs, and what is between them is not looked at. -/
theorem closesLast_encode (depth : Nat) (text rest : List Char) :
    closesLast depth false (Quoted.encode '\'' text ++ rest) = closesLast depth false rest := by
  have hbody (text : List Char) :
      closesLast depth true (Quoted.double '\'' text ++ '\'' :: rest) =
        closesLast depth false rest := by
    induction text with
    | nil => simp [closesLast]
    | cons c text ih =>
      by_cases hc : c = '\''
      · subst hc
        simpa [Quoted.double_cons_self, closesLast] using ih
      · simpa [Quoted.double_cons_of_ne hc, closesLast, hc] using ih
  simpa [Quoted.encode, closesLast] using hbody text

/-- Characters that are no marks are passed over, as is the quote of identifiers. -/
theorem closesLast_append {word : List Char} (hword : ∀ c ∈ word, c = '"' ∨ isMark c = false)
    (depth : Nat) (rest : List Char) :
    closesLast depth false (word ++ rest) = closesLast depth false rest := by
  induction word with
  | nil => rfl
  | cons c word ih =>
    rw [List.forall_mem_cons] at hword
    obtain ⟨hc, hword⟩ := hword
    rcases hc with rfl | hc
    · simp [closesLast, ih hword]
    · have hquote : c ≠ '\'' := ne_of_isMark hc (by decide)
      have hopen : c ≠ '(' := ne_of_isMark hc (by decide)
      have hclose : c ≠ ')' := ne_of_isMark hc (by decide)
      simp [closesLast, hquote, hopen, hclose, ih hword]

/-- Only the delimiter is added to a quoted text. -/
theorem Quoted.eq_or_mem_of_mem_encode {delimiter c : Char} {text : List Char}
    (h : c ∈ encode delimiter text) : c = delimiter ∨ c ∈ text := by
  have hdouble (text : List Char) (h : c ∈ double delimiter text) : c = delimiter ∨ c ∈ text := by
    induction text with
    | nil => cases h
    | cons d rest ih =>
      by_cases hd : d = delimiter
      · subst hd
        simp only [double_cons_self, List.mem_cons] at h ⊢
        rcases h with h | h | h
        · exact .inl h
        · exact .inl h
        · exact (ih h).imp_right .inr
      · simp only [double_cons_of_ne hd, List.mem_cons] at h ⊢
        rcases h with h | h
        · exact .inr (.inl h)
        · exact (ih h).imp_right .inr
  simp only [encode, List.mem_cons, List.mem_append, List.not_mem_nil, or_false] at h
  rcases h with h | h | h
  · exact .inl h
  · exact hdouble text h
  · exact .inl h

theorem Lexed.isEmpty_eq {lexemes : List Lexeme} {text : List Char} (h : Lexed lexemes text) :
    text.isEmpty = lexemes.isEmpty := by
  cases h <;> rfl

/-- The test for characters agrees with the test for lexemes. -/
theorem Lexed.closesLast_eq {lexemes : List Lexeme} {text : List Char} (h : Lexed lexemes text)
    (htame : Lexeme.Tame lexemes) (depth : Nat) :
    closesLast depth false text = Lexeme.closesLast depth lexemes := by
  induction h generalizing depth with
  | nil => rfl
  | @plain c lexemes rest hc hrest ih =>
    have hquote : c ≠ '\'' := by
      rintro rfl
      cases hc
    have ih := ih fun name hname => htame name (List.mem_cons_of_mem _ hname)
    simp only [closesLast, Lexeme.closesLast, hquote, if_false, ih, hrest.isEmpty_eq]
    rfl
  | @quoted delimiter text lexemes rest hdelimiter hrest h ih =>
    have ih := ih fun name hname => htame name (List.mem_cons_of_mem _ hname)
    rw [Lexeme.closesLast, ← ih]
    have hquote : delimiter = '\'' ∨ delimiter = '"' := by simpa [isQuote] using hdelimiter
    rcases hquote with rfl | rfl
    · exact closesLast_encode depth text rest
    · refine closesLast_append (fun c hc => ?_) depth rest
      exact (Quoted.eq_or_mem_of_mem_encode hc).imp_right (htame text List.mem_cons_self c)

/-- Whether a pair of parentheses encloses a text is seen by its lexemes. -/
theorem Lexed.isEnclosed_eq {lexemes : List Lexeme} {s : String} (h : Lexed lexemes s.toList)
    (htame : Lexeme.Tame lexemes) : Text.isEnclosed s = Lexeme.isEnclosed lexemes := by
  unfold Text.isEnclosed
  generalize s.toList = text at h
  cases h with
  | nil => rfl
  | @plain c lexemes rest hc hrest =>
    by_cases hopen : c = '('
    · subst hopen
      exact hrest.closesLast_eq (fun name hname => htame name (List.mem_cons_of_mem _ hname)) 0
    · simp [Lexeme.isEnclosed, hopen]
  | @quoted delimiter text lexemes rest hdelimiter hrest h =>
    have hopen : delimiter ≠ '(' := by
      rintro rfl
      cases hdelimiter
    simp [Lexeme.isEnclosed, Quoted.encode, hopen]

end SqlTree.Text
