import SqlTree.Proofs.Reading.Argument

/-!
# What the test for an enclosing pair takes for a string

The test knows the quotes of strings and no others, so that an apostrophe or a parenthesis in a
quoted name counts as if it stood outside. Main statement: a pair around a text is seen exactly if
the strings of the text, read like that, are closed and its parentheses are paired.
-/

namespace SqlTree.Text

/-- Read with the apostrophe as the only quote, the text has its strings closed and its parentheses
paired outside of them. -/
inductive IsPaired : List Char → Prop where
  | nil : IsPaired []
  | plain {c : Char} {rest : List Char} (hquote : c ≠ '\'') (hopen : c ≠ '(') (hclose : c ≠ ')')
      (hrest : IsPaired rest) : IsPaired (c :: rest)
  | string {text rest : List Char} (htext : '\'' ∉ text) (hrest : IsPaired rest) :
      IsPaired ('\'' :: (text ++ '\'' :: rest))
  | group {body rest : List Char} (hbody : IsPaired body) (hrest : IsPaired rest) :
      IsPaired ('(' :: (body ++ ')' :: rest))

/-- The text goes on to the end of an open string, if one is open, then closes the groups that are
open inside the outermost one, and closes that one with its last character. -/
inductive Closes : Nat → Bool → List Char → Prop where
  | last {body : List Char} (hbody : IsPaired body) : Closes 0 false (body ++ [')'])
  | group {depth : Nat} {body rest : List Char} (hbody : IsPaired body)
      (hrest : Closes depth false rest) : Closes (depth + 1) false (body ++ ')' :: rest)
  | string {depth : Nat} {text rest : List Char} (htext : '\'' ∉ text)
      (hrest : Closes depth false rest) : Closes depth true (text ++ '\'' :: rest)

namespace IsPaired

theorem append {a b : List Char} (ha : IsPaired a) (hb : IsPaired b) : IsPaired (a ++ b) := by
  induction ha with
  | nil => exact hb
  | plain hquote hopen hclose _ ih => exact .plain hquote hopen hclose ih
  | string htext _ ih => simpa using string htext ih
  | group hbody _ _ ih => simpa using group hbody ih

/-- The search for the end of a group goes on behind a paired text. -/
theorem closesLast_append {body : List Char} (h : IsPaired body) (depth : Nat)
    (rest : List Char) : closesLast depth false (body ++ rest) = closesLast depth false rest := by
  induction h generalizing depth rest with
  | nil => rfl
  | plain hquote hopen hclose _ ih => simpa [closesLast, hquote, hopen, hclose] using ih depth rest
  | @string text behind htext _ ih =>
    have hstring : closesLast depth true (text ++ '\'' :: (behind ++ rest)) =
        closesLast depth false (behind ++ rest) := by
      induction text with
      | nil => simp [closesLast]
      | cons c text ihtext =>
        rw [List.mem_cons, not_or] at htext
        simpa [closesLast, Ne.symm htext.1] using ihtext htext.2
    simpa [closesLast, ih depth rest] using hstring
  | @group body behind _ _ ihbody ih =>
    have hgroup := ihbody (depth + 1) (')' :: (behind ++ rest))
    simpa [closesLast, ih depth rest] using hgroup

end IsPaired

namespace Closes

variable {depth : Nat} {text : List Char}

/-- A paired text in front is passed over. -/
theorem prepend {a : List Char} (ha : IsPaired a) (h : Closes depth false text) :
    Closes depth false (a ++ text) := by
  cases h with
  | last hbody => simpa using last (ha.append hbody)
  | group hbody hrest => simpa using group (ha.append hbody) hrest

/-- A group that is opened in front is closed again. -/
theorem opened (h : Closes (depth + 1) false text) : Closes depth false ('(' :: text) := by
  cases h with
  | group hbody hrest => simpa using hrest.prepend (.group hbody .nil)

/-- A string that is opened in front is closed again. -/
theorem unquoted (h : Closes depth true text) : Closes depth false ('\'' :: text) := by
  cases h with
  | string htext hrest => simpa using hrest.prepend (.string htext .nil)

theorem getLast?_eq {quoted : Bool} (h : Closes depth quoted text) : text.getLast? = some ')' := by
  induction h with
  | last _ => simp
  | group _ _ ih => simp [List.getLast?_cons, ih]
  | string _ _ ih => simp [List.getLast?_cons, ih]

/-- What is found to close with its last character is made like that. -/
theorem of_closesLast {quoted : Bool} (h : closesLast depth quoted text = true) :
    Closes depth quoted text := by
  fun_induction closesLast depth quoted text with
  | case1 => cases h
  | case2 depth quoted rest ih =>
    cases quoted with
    | false => exact (ih h).unquoted
    | true =>
      have hempty : Closes depth true ([] ++ '\'' :: rest) := .string List.not_mem_nil (ih h)
      exact hempty
  | case3 depth c rest hquote ih =>
    cases ih h with
    | @string _ text behind htext hrest =>
      have htext : '\'' ∉ c :: text := by simpa [Ne.symm hquote] using htext
      exact string htext hrest
  | case4 depth quoted rest hquoted hquote ih =>
    obtain rfl : quoted = false := by simpa using hquoted
    exact (ih h).opened
  | case5 quoted rest hquoted hquote hopen =>
    obtain rfl : quoted = false := by simpa using hquoted
    obtain rfl : rest = [] := by simpa using h
    exact last .nil
  | case6 quoted rest hquoted depth hquote hopen ih =>
    obtain rfl : quoted = false := by simpa using hquoted
    exact group .nil (ih h)
  | case7 depth quoted c rest hquote hquoted hopen hclose ih =>
    obtain rfl : quoted = false := by simpa using hquoted
    exact (ih h).prepend (.plain hquote hopen hclose .nil)

end Closes

/-- A pair around a text is found to close with its last character exactly if the text is paired. -/
theorem closesLast_append_iff {body : List Char} :
    closesLast 0 false (body ++ [')']) = true ↔ IsPaired body := by
  constructor
  · intro h
    have hcloses := Closes.of_closesLast h
    generalize htext : body ++ [')'] = text at hcloses
    cases hcloses with
    | last hbody => exact List.append_cancel_right htext ▸ hbody
  · intro h
    rw [h.closesLast_append]
    simp [closesLast]

instance (body : List Char) : Decidable (IsPaired body) :=
  decidable_of_iff _ closesLast_append_iff

/-- The pair around a text encloses it exactly if the text is paired. -/
theorem isEnclosed_parenthesized_iff {body : String} :
    isEnclosed (parenthesized body) = true ↔ IsPaired body.toList := by
  rw [← closesLast_append_iff]
  simp [isEnclosed, parenthesized]

/-- Only a text that ends with a parenthesis is enclosed. -/
theorem getLast?_of_isEnclosed {text : String} (h : isEnclosed text = true) :
    text.toList.getLast? = some ')' := by
  unfold isEnclosed at h
  split at h
  · rename_i rest htext
    rw [htext, List.getLast?_cons, (Closes.of_closesLast h).getLast?_eq]
    rfl
  · cases h

/-- The quote of identifiers is a character like others. -/
theorem closesLast_quote (depth : Nat) (quoted : Bool) (rest : List Char) :
    closesLast depth quoted ('"' :: rest) = closesLast depth quoted rest := by
  cases quoted <;> simp [closesLast]

/-- A doubled quote of identifiers is passed over like a single one. -/
theorem closesLast_double (depth : Nat) (quoted : Bool) (name rest : List Char) :
    closesLast depth quoted (Quoted.double '"' name ++ rest) =
      closesLast depth quoted (name ++ rest) := by
  induction name generalizing depth quoted with
  | nil => rfl
  | cons c name ih =>
    by_cases hc : c = '"'
    · subst hc
      rw [Quoted.double_cons_self, List.cons_append, List.cons_append, List.cons_append,
        closesLast_quote, closesLast_quote, closesLast_quote, ih]
    · have hempty : (Quoted.double '"' name ++ rest).isEmpty = (name ++ rest).isEmpty := by
        cases name with
        | nil => rfl
        | cons d name =>
          unfold Quoted.double
          split <;> rfl
      rw [Quoted.double_cons_of_ne hc, List.cons_append, List.cons_append]
      cases depth <;> simp only [closesLast, ih, hempty]

namespace Passed

variable {text : String}

theorem isPaired (h : Passed text) : IsPaired text.toList := by
  rw [← closesLast_append_iff, h]
  simp [closesLast]

/-- A quoted identifier is passed if its name is. -/
theorem identifier_of_isPaired (h : IsPaired text.toList) : Passed (Quoted.identifier text) := by
  intro depth rest
  have hname := (closesLast_double depth false text.toList ('"' :: rest)).trans
    (h.closesLast_append depth ('"' :: rest))
  simpa [Quoted.identifier, Quoted.encode, closesLast] using hname

end Passed

end SqlTree.Text
