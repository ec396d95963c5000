import SqlTree.Proofs.Lexical.Enclosed

/-!
# Texts that are alike but for their strings

Two texts are alike if they are scanned as the same lexemes except that the strings of one are
replaced in the other. Main statement: likeness is kept by writing if an enclosing pair of
parentheses is seen in both texts or in neither.
-/

namespace SqlTree.Text

/-- The lexeme with its text replaced if it is a string. -/
def Lexeme.mapString (f : String → String) : Lexeme → Lexeme
  | .quoted '\'' text => .quoted '\'' (f (String.ofList text)).toList
  | lexeme => lexeme

@[simp] theorem Lexeme.mapString_plain (f : String → String) (c : Char) :
    (Lexeme.plain c).mapString f = .plain c := rfl

@[simp] theorem Lexeme.mapString_identifier (f : String → String) (name : List Char) :
    (Lexeme.quoted '"' name).mapString f = .quoted '"' name := rfl

@[simp] theorem Lexeme.mapString_id (lexeme : Lexeme) : lexeme.mapString id = lexeme := by
  unfold mapString
  split
  · simp
  · rfl

/-- A property of lexemes that is kept by putting texts together: it holds of characters that are no
marks, of strings and of identifiers without marks. -/
structure Lexeme.Closure (p : List Lexeme → Prop) : Prop where
  nil : p []
  plain : ∀ {c : Char}, isMark c = false → p [.plain c]
  string : ∀ text : List Char, p [.quoted '\'' text]
  identifier : ∀ name : List Char, (∀ c ∈ name, isMark c = false) → p [.quoted '"' name]
  append : ∀ {a b : List Lexeme}, p a → p b → p (a ++ b)
  parenthesized : ∀ {a : List Lexeme}, p a → p (.plain '(' :: (a ++ [.plain ')']))

/-- It holds of characters in a row that are no marks. -/
theorem Lexeme.Closure.plains {p : List Lexeme → Prop} (hp : Closure p) {word : List Char}
    (hword : ∀ c ∈ word, isMark c = false) : p (word.map Lexeme.plain) := by
  induction word with
  | nil => exact hp.nil
  | cons c rest ih =>
    rw [List.forall_mem_cons] at hword
    exact hp.append (hp.plain hword.1) (ih hword.2)

/-- The texts have the same lexemes, with the property, but for the strings that are replaced. -/
def Alike (f : String → String) (p : List Lexeme → Prop) (s t : String) : Prop :=
  ∃ lexemes : List Lexeme, Lexed lexemes s.toList ∧
    Lexed (lexemes.map (Lexeme.mapString f)) t.toList ∧ p lexemes

theorem isQuote_of_isMark {c : Char} (hc : isMark c = false) : isQuote c = false := by
  have hstring : c ≠ '\'' := ne_of_isMark hc (by decide)
  have hidentifier : c ≠ '"' := ne_of_isMark hc (by decide)
  simp [isQuote, hstring, hidentifier]

namespace Lexed

variable {a b : List Lexeme} {s t : String}

theorem unmarked {word : String} (hword : Unmarked word) :
    Lexed (word.toList.map Lexeme.plain) word.toList := by
  have h := plains (fun c hc => isQuote_of_isMark (hword c hc)) .nil
  rwa [List.append_nil, List.append_nil] at h

/-- Two texts with a word between them. -/
theorem joined {separator : String} (hseparator : Unmarked separator) (hne : separator ≠ "")
    (ha : Lexed a s.toList) (hb : Lexed b t.toList) :
    Lexed (a ++ (separator.toList.map Lexeme.plain ++ b)) (s ++ separator ++ t).toList := by
  have hbehind := plains (fun c hc => isQuote_of_isMark (hseparator c hc)) hb
  rw [String.toList_append, String.toList_append, List.append_assoc]
  refine ha.append hbehind fun c hc => isQuote_of_isMark (hseparator c ?_)
  rw [List.head?_append_of_ne_nil _ (mt String.toList_eq_nil_iff.mp hne)] at hc
  exact List.mem_of_mem_head? hc

theorem parenthesized (ha : Lexed a s.toList) :
    Lexed (.plain '(' :: (a ++ [.plain ')'])) (Text.parenthesized s).toList := by
  have hclose : Lexed [.plain ')'] [')'] := .plain (by decide) .nil
  have hopen : Lexed (.plain '(' :: (a ++ [.plain ')'])) ('(' :: (s.toList ++ [')'])) := by
    refine .plain (by decide) (ha.append hclose fun c hc => ?_)
    obtain rfl : ')' = c := by simpa using hc
    decide
  simpa [Text.parenthesized] using hopen

end Lexed

/-- A pair that encloses a text is what was put around it. -/
theorem ungrouped_parenthesized {s : String} (h : isEnclosed (parenthesized s) = true) :
    ungrouped (parenthesized s) = s := by
  rw [ungrouped, if_pos h]
  simp [parenthesized]

namespace Alike

variable {f : String → String} {p : List Lexeme → Prop} (hp : Lexeme.Closure p) {s t : String}
include hp

theorem unmarked {word : String} (hword : Unmarked word) : Alike f p word word := by
  refine ⟨word.toList.map Lexeme.plain, .unmarked hword, ?_, hp.plains hword⟩
  simpa [Function.comp_def] using Lexed.unmarked hword

theorem parenthesized (h : Alike f p s t) :
    Alike f p (Text.parenthesized s) (Text.parenthesized t) := by
  obtain ⟨lexemes, hs, ht, hlexemes⟩ := h
  exact ⟨_, hs.parenthesized, by simpa using ht.parenthesized, hp.parenthesized hlexemes⟩

/-- Texts that are alike may be written one for the other if they are seen to be enclosed alike. -/
theorem congruence (henclosed : ∀ {s t : String}, Alike f p s t → isEnclosed s = isEnclosed t) :
    Congruence (Alike f p) where
  unmarked := unmarked hp
  joined separator hseparator hne := by
    rintro ⟨a, hs, hs', ha⟩ ⟨b, ht, ht', hb⟩
    refine ⟨_, hs.joined hseparator hne ht, ?_, hp.append ha (hp.append (hp.plains hseparator) hb)⟩
    simpa [Function.comp_def] using hs'.joined hseparator hne ht'
  parenthesized := parenthesized hp
  grouped h := by
    unfold Text.grouped
    rw [henclosed h]
    split
    · exact h
    · exact parenthesized hp h
  regrouped := by
    intro a a' h
    have hgroup := parenthesized hp h
    have hseen := henclosed hgroup
    by_cases ha : isEnclosed (Text.parenthesized a) = true
    · rw [ungrouped_parenthesized ha, ungrouped_parenthesized (hseen ▸ ha)]
      exact hgroup
    · rw [ungrouped, if_neg ha, ungrouped, if_neg (hseen ▸ ha)]
      exact parenthesized hp hgroup

end Alike

namespace Lexeme

theorem Balanced.closure : Closure Balanced where
  nil := .nil
  plain := .plain
  string := .quoted '\''
  identifier name _ := .quoted '"' name
  append := .append
  parenthesized := .parenthesized

theorem Tame.closure : Closure Tame where
  nil _ h := (List.not_mem_nil h).elim
  plain _ := by simp [Tame]
  string _ := by simp [Tame]
  identifier name hname other h := by
    obtain rfl : other = name := by simpa using h
    exact hname
  append ha hb name h := by
    rcases List.mem_append.mp h with h | h
    · exact ha name h
    · exact hb name h
  parenthesized ha name h := by
    refine ha name ?_
    simpa using h

theorem Tame.mapString {lexemes : List Lexeme} (h : Tame lexemes) (f : String → String) :
    Tame (lexemes.map (Lexeme.mapString f)) := by
  intro name hname
  obtain ⟨lexeme, hlexeme, he⟩ := List.mem_map.mp hname
  unfold Lexeme.mapString at he
  split at he
  · cases he
  · subst he
    exact h name hlexeme

theorem exists_mapString_quoted (f : String → String) (delimiter : Char) (text : List Char) :
    ∃ text', (Lexeme.quoted delimiter text).mapString f = .quoted delimiter text' := by
  unfold Lexeme.mapString
  split
  · rename_i he
    cases he
    exact ⟨_, rfl⟩
  · exact ⟨text, rfl⟩

/-- Which string stands in quotes is not seen from outside. -/
theorem closesLast_mapString (f : String → String) (lexemes : List Lexeme) (depth : Nat) :
    closesLast depth (lexemes.map (Lexeme.mapString f)) = closesLast depth lexemes := by
  induction lexemes generalizing depth with
  | nil => rfl
  | cons lexeme rest ih =>
    cases lexeme with
    | plain c => cases depth <;> simp [closesLast, ih]
    | quoted delimiter text =>
      obtain ⟨text', hmap⟩ := exists_mapString_quoted f delimiter text
      rw [List.map_cons, hmap, closesLast, closesLast, ih]

theorem isEnclosed_mapString (f : String → String) (lexemes : List Lexeme) :
    isEnclosed (lexemes.map (Lexeme.mapString f)) = isEnclosed lexemes := by
  cases lexemes with
  | nil => rfl
  | cons lexeme rest =>
    cases lexeme with
    | plain c =>
      by_cases hopen : c = '('
      · subst hopen
        exact closesLast_mapString f rest 0
      · simp [isEnclosed, hopen]
    | quoted delimiter text =>
      obtain ⟨text', hmap⟩ := exists_mapString_quoted f delimiter text
      rw [List.map_cons, hmap]
      rfl

end Lexeme

namespace Alike

variable {f : String → String} {p : List Lexeme → Prop} {s t : String}

/-- Texts are the same if no string is replaced. -/
theorem eq_of_id (h : Alike id p s t) : s = t := by
  obtain ⟨lexemes, hs, ht, _⟩ := h
  have hmap : lexemes.map (Lexeme.mapString id) = lexemes :=
    List.map_id'' Lexeme.mapString_id lexemes
  rw [hmap] at ht
  rw [← hs.text_eq, ht.text_eq]

/-- Statements of balanced texts are balanced, whatever is taken to enclose them. -/
theorem congruence_balanced : Congruence (Alike id Lexeme.Balanced) :=
  congruence Lexeme.Balanced.closure fun h => by rw [h.eq_of_id]

/-- Strings are not seen by the test for an enclosing pair. -/
theorem isEnclosed_eq (h : Alike f Lexeme.Tame s t) : isEnclosed s = isEnclosed t := by
  obtain ⟨lexemes, hs, ht, htame⟩ := h
  rw [hs.isEnclosed_eq htame, ht.isEnclosed_eq (htame.mapString f), Lexeme.isEnclosed_mapString]

theorem congruence_tame : Congruence (Alike f Lexeme.Tame) :=
  congruence Lexeme.Tame.closure isEnclosed_eq

end Alike

end SqlTree.Text
