import SqlTree.Proofs.Reading.Opening

/-!
# Literals in their texts

A literal is written where nothing, a comma or a closing parenthesis follows it. Its first character
tells what kind of literal it is, and from then on its end is known: that of a keyword or a number
by what follows it, that of a string by a quote that is not doubled, and that of a tuple by the ends
of its items. Main statement: nulls, truth values, integers, strings and tuples of them, to any
depth, have different texts if they are different.
-/

namespace SqlTree

namespace Text

/-- What follows a literal: nothing, a comma or a closing parenthesis. -/
def FollowsLiteral (rest : List Char) : Prop := ∀ c, rest.head? = some c → c = ',' ∨ c = ')'

theorem followsLiteral_nil : FollowsLiteral [] := nofun

theorem FollowsLiteral.head?_ne {rest : List Char} (h : FollowsLiteral rest) :
    rest.head? ≠ some '\'' := by
  intro hhead
  simpa using h '\'' hhead

end Text

namespace Literal

mutual

/-- Whether the literal is made of nulls, truth values, integers and strings, in tuples of any
length and depth. -/
def isPlain : Literal → Bool
  | .null | .bool _ | .int _ | .string _ => true
  | .float _ | .date _ | .timestamp _ => false
  | .tuple items => arePlain items

/-- Whether all items of a tuple are so. -/
def arePlain : List Literal → Bool
  | [] => true
  | item :: rest => item.isPlain && arePlain rest

end

/-- What follows the first items of a tuple: the other ones behind commas, and behind its
parenthesis what follows the tuple. -/
def itemsBehind (after : List Char) : List Literal → List Char
  | [] => ')' :: after
  | item :: rest => ',' :: (item.text.toList ++ itemsBehind after rest)

theorem followsLiteral_itemsBehind (after : List Char) (items : List Literal) :
    Text.FollowsLiteral (itemsBehind after items) := by
  intro c hc
  cases items with
  | nil => exact .inr (Option.some.inj hc).symm
  | cons item rest => exact .inl (Option.some.inj hc).symm

/-- The first item of a tuple and what follows it. -/
theorem toList_intercalate_append (item : Literal) (rest : List Literal) (after : List Char) :
    (",".intercalate (texts (item :: rest))).toList ++ ')' :: after =
      item.text.toList ++ itemsBehind after rest := by
  induction rest generalizing item with
  | nil => simp [texts, itemsBehind]
  | cons next rest ih =>
    have htail := ih next
    simp only [texts, String.intercalate_cons_cons, itemsBehind] at htail ⊢
    simp [← htail]

/-- The parentheses of a tuple around its items. -/
theorem toList_tuple_append (items : List Literal) (after : List Char) :
    (tuple items).text.toList ++ after =
      '(' :: ((",".intercalate (texts items)).toList ++ ')' :: after) := by
  simp [text]

/-- How the text of the literal begins. -/
def opening : Literal → Text.Opening
  | .null | .bool _ => .call
  | .int _ | .float _ => .number
  | .string _ | .date _ | .timestamp _ => .string
  | .tuple _ => .group

theorem opening?_text {v : Literal} (h : v.isPlain = true) :
    Text.opening? v.text.toList = some v.opening := by
  cases v with
  | null => decide +kernel
  | bool value => cases value <;> decide +kernel
  | int n =>
    rw [text]
    exact Text.opening?_toString_int n
  | string s =>
    rw [text, Text.Quoted.toList_string]
    rfl
  | tuple items =>
    have htext := toList_tuple_append items []
    rw [List.append_nil] at htext
    rw [htext]
    rfl
  | _ => simp [isPlain] at h

/-- Literals with the same text begin alike. -/
theorem opening_eq_of_append_eq {v w : Literal} (hv : v.isPlain = true) (hw : w.isPlain = true)
    {x y : List Char} (h : v.text.toList ++ x = w.text.toList ++ y) : v.opening = w.opening :=
  Text.opening_eq_of_append_eq (opening?_text hv) (opening?_text hw) h

/-- Whether the literal is a keyword or a number. -/
def isWord : Literal → Bool
  | .null | .bool _ | .int _ => true
  | _ => false

/-- Whether the character may stand in a keyword or a number, which a comma or a parenthesis ends. -/
def isWordPart (c : Char) : Bool := c != ',' && c != ')'

theorem isWordPart_of_isDigit {c : Char} (h : c.isDigit = true) : isWordPart c = true := by
  unfold isWordPart
  rw [Bool.and_eq_true, bne_iff_ne, bne_iff_ne]
  constructor <;> rintro rfl <;> cases h

theorem forall_isWordPart_text {v : Literal} (h : v.isWord = true) :
    ∀ c ∈ v.text.toList, isWordPart c = true := by
  cases v with
  | null =>
    rw [← List.all_eq_true]
    decide +kernel
  | bool value =>
    rw [← List.all_eq_true]
    cases value <;> decide +kernel
  | int n =>
    rw [text]
    cases n with
    | ofNat n =>
      intro c hc
      exact isWordPart_of_isDigit (Text.isDigit_of_mem_toString n c hc)
    | negSucc n =>
      have hsign : (toString (Int.negSucc n)).toList = '-' :: (toString (n + 1)).toList := by
        have htext : toString (Int.negSucc n) = "-" ++ toString (n + 1) := rfl
        rw [htext, String.toList_append]
        rfl
      rw [hsign, List.forall_mem_cons]
      refine ⟨by decide, ?_⟩
      intro c hc
      exact isWordPart_of_isDigit (Text.isDigit_of_mem_toString (n + 1) c hc)
  | _ => cases h

theorem isPlain_of_isWord {v : Literal} (h : v.isWord = true) : v.isPlain = true := by
  cases v with
  | null => rfl
  | bool value => rfl
  | int n => rfl
  | _ => cases h

/-- The first character tells a keyword or a number from other literals. -/
theorem isWord_iff {v : Literal} (h : v.isPlain = true) :
    v.isWord = true ↔ v.opening = .call ∨ v.opening = .number := by
  cases v <;> simp_all [isWord, opening, isPlain]

/-- A keyword or a number is read from its text. -/
theorem eq_of_text_eq_of_isWord {v w : Literal} (hv : v.isWord = true) (hw : w.isWord = true)
    (h : v.text = w.text) : v = w := by
  have hopening : v.opening = w.opening :=
    opening_eq_of_append_eq (isPlain_of_isWord hv) (isPlain_of_isWord hw)
      (congrArg (fun text => text.toList ++ []) h)
  cases v with
  | null =>
    cases w with
    | null => rfl
    | bool value => cases value <;> exact absurd h (by decide +kernel)
    | int m => cases hopening
    | _ => cases hw
  | bool value =>
    cases w with
    | null => cases value <;> exact absurd h (by decide +kernel)
    | bool other =>
      cases value <;> cases other <;> first | rfl | exact absurd h (by decide +kernel)
    | int m => cases hopening
    | _ => cases hw
  | int n =>
    cases w with
    | int m =>
      simp only [text] at h
      rw [Text.toString_int_injective h]
    | null => cases hopening
    | bool value => cases hopening
    | _ => cases hw
  | _ => cases hv

/-- No literal begins with a closing parenthesis. -/
theorem text_append_ne_close {v : Literal} (h : v.isPlain = true) (x y : List Char) :
    v.text.toList ++ x ≠ ')' :: y := by
  intro heq
  have hopening : v.opening = .number := by
    have htext := Text.opening?_append (opening?_text h) x
    rw [heq] at htext
    exact (Option.some.inj htext).symm
  have hword : v.isWord = true := (isWord_iff h).mpr (.inr hopening)
  have htext := opening?_text h
  cases hlist : v.text.toList with
  | nil =>
    rw [hlist] at htext
    cases htext
  | cons c rest =>
    rw [hlist] at heq
    obtain rfl : c = ')' := (List.cons.inj heq).1
    exact absurd (forall_isWordPart_text hword ')' (hlist ▸ List.mem_cons_self)) (by decide)

/-- The front of a text determines that this literal is written there, and where it ends. -/
def Decodable (v : Literal) : Prop :=
  ∀ (w : Literal) (x y : List Char), w.isPlain = true → Text.FollowsLiteral x →
    Text.FollowsLiteral y → v.text.toList ++ x = w.text.toList ++ y → v = w ∧ x = y

/-- Where a keyword or a number ends is seen by what follows it. -/
theorem decodable_of_isWord {v : Literal} (hv : v.isWord = true) : v.Decodable := by
  intro w x y hw hx hy h
  have hopening := opening_eq_of_append_eq (isPlain_of_isWord hv) hw h
  have hword : w.isWord = true := by
    rw [isWord_iff hw, ← hopening, ← isWord_iff (isPlain_of_isWord hv)]
    exact hv
  have hends {rest : List Char} (hrest : Text.FollowsLiteral rest) :
      ∀ c, rest.head? = some c → isWordPart c = false := by
    intro c hc
    rcases hrest c hc with rfl | rfl <;> rfl
  obtain ⟨htext, hrest⟩ := Text.append_inj_of_class (forall_isWordPart_text hv)
    (forall_isWordPart_text hword) (hends hx) (hends hy) h
  exact ⟨eq_of_text_eq_of_isWord hv hword (String.toList_inj.mp htext), hrest⟩

/-- A string ends at its closing quote. -/
theorem decodable_string (s : String) : (string s).Decodable := by
  intro w x y hw hx hy h
  have hopening := opening_eq_of_append_eq (v := string s) rfl hw h
  cases w with
  | string t =>
    simp only [text] at h
    obtain ⟨rfl, hrest⟩ := Text.Quoted.string_append_inj hx.head?_ne hy.head?_ne h
    exact ⟨rfl, hrest⟩
  | date d => cases hw
  | timestamp t => cases hw
  | _ => cases hopening

/-- Behind an item of a tuple the other ones are read one by one. -/
theorem itemsBehind_inj {items others : List Literal} (hitems : ∀ item ∈ items, item.Decodable)
    (hothers : arePlain others = true) {x y : List Char}
    (h : itemsBehind x items = itemsBehind y others) : items = others ∧ x = y := by
  induction items generalizing others with
  | nil =>
    cases others with
    | nil => exact ⟨rfl, (List.cons.inj h).2⟩
    | cons other others => cases (List.cons.inj h).1
  | cons item items ih =>
    cases others with
    | nil => cases (List.cons.inj h).1
    | cons other others =>
      rw [List.forall_mem_cons] at hitems
      rw [arePlain, Bool.and_eq_true] at hothers
      obtain ⟨rfl, hrest⟩ := hitems.1 other _ _ hothers.1 (followsLiteral_itemsBehind x items)
        (followsLiteral_itemsBehind y others) (List.cons.inj h).2
      obtain ⟨rfl, hafter⟩ := ih hitems.2 hothers.2 hrest
      exact ⟨rfl, hafter⟩

/-- A tuple is read if its items are. -/
theorem decodable_tuple {items : List Literal} (hplain : arePlain items = true)
    (hitems : ∀ item ∈ items, item.Decodable) : (tuple items).Decodable := by
  intro w x y hw hx hy h
  have hopening := opening_eq_of_append_eq (v := tuple items) hplain hw h
  cases w with
  | tuple others =>
    rw [toList_tuple_append, toList_tuple_append, List.cons.injEq] at h
    replace h := h.2
    have hothers : arePlain others = true := hw
    cases items with
    | nil =>
      cases others with
      | nil => exact ⟨rfl, (List.cons.inj h).2⟩
      | cons other others =>
        rw [toList_intercalate_append] at h
        rw [arePlain, Bool.and_eq_true] at hothers
        exact absurd h.symm (text_append_ne_close hothers.1 _ x)
    | cons item items =>
      rw [toList_intercalate_append] at h
      cases others with
      | nil =>
        rw [arePlain, Bool.and_eq_true] at hplain
        exact absurd h (text_append_ne_close hplain.1 _ y)
      | cons other others =>
        rw [toList_intercalate_append] at h
        -- Both lists go on behind a comma, as if an item stood before them.
        obtain ⟨heq, hrest⟩ := itemsBehind_inj (x := x) (y := y) hitems hothers
          (congrArg (List.cons ',') h)
        exact ⟨congrArg tuple heq, hrest⟩
  | _ => cases hopening

mutual

/-- Every plain literal is read from its text. -/
theorem decodable : ∀ v : Literal, v.isPlain = true → v.Decodable
  | .null, _ | .bool _, _ | .int _, _ => decodable_of_isWord rfl
  | .string s, _ => decodable_string s
  | .tuple items, h => decodable_tuple h (decodable_items items h)

/-- Every item of a plain tuple is read from its text. -/
theorem decodable_items : ∀ items : List Literal, arePlain items = true →
    ∀ item ∈ items, item.Decodable
  | [], _ => List.forall_mem_nil _
  | item :: rest, h => by
    rw [arePlain, Bool.and_eq_true] at h
    exact List.forall_mem_cons.mpr ⟨decodable item h.1, decodable_items rest h.2⟩

end

/-- Literals are uniquely decodable: if nulls, truth values, integers, strings and tuples of them
have the same text, they are the same. -/
theorem eq_of_text_eq {v w : Literal} (hv : v.isPlain = true) (hw : w.isPlain = true)
    (h : v.text = w.text) : v = w := by
  have hfront : v.text.toList ++ [] = w.text.toList ++ [] := by rw [h]
  exact (decodable v hv w [] [] hw Text.followsLiteral_nil Text.followsLiteral_nil hfront).1

/-- A tuple with an empty one in it and a string full of marks. -/
theorem eq_of_text_eq_nested :
    let inner : Literal := .tuple [.int (-5), .null, .tuple []]
    let v : Literal := .tuple [.string "it's ('),(", inner, .bool true]
    let w : Literal := .tuple ([.string ("it's" ++ " ('),(")] ++ [inner, .bool true])
    let text := "('it''s (''),(',(-5,NULL,()),TRUE)"
    v.isPlain = true ∧ w.isPlain = true ∧ v.text = text ∧ w.text = text ∧ v = w := by
  intro inner v w text
  have hv : v.text = text := by decide +kernel
  have hw : w.text = text := by decide +kernel
  exact ⟨rfl, rfl, hv, hw, eq_of_text_eq rfl rfl (hv.trans hw.symm)⟩

end Literal

end SqlTree
