import SqlTree.Proofs.Lexical.Spelling

/-!
# How texts begin and where they end

The first character of an operand tells what it is: a name, a call, a group, a string or a number.
Names, calls, numbers and operators are words, which end at the next blank or parenthesis, and a
string ends at the first quote that is not doubled. Main statements: from equal texts equal words,
numbers and strings can be taken off the front, and so can names, up to the owner's qualifier.
-/

namespace SqlTree

namespace Text

/-- Whether a word ends before the character: before a blank or a parenthesis. -/
def endsWord (c : Char) : Bool := c == ' ' || c == '(' || c == ')'

/-- A text in which no word ends. -/
def IsWord (text : String) : Prop := ∀ c ∈ text.toList, endsWord c = false

instance (text : String) : Decidable (IsWord text) :=
  List.decidableBAll (fun c => endsWord c = false) text.toList

/-- What follows a word: nothing, or something that ends it. -/
def EndsWord (rest : List Char) : Prop := ∀ c, rest.head? = some c → endsWord c = true

/-- What follows an expression: nothing, a blank or a closing parenthesis. -/
def Stops (rest : List Char) : Prop := ∀ c, rest.head? = some c → c = ' ' ∨ c = ')'

/-- What follows an operand, which may be tested: it does not go on with a test. -/
structure Ends (rest : List Char) : Prop where
  stops : Stops rest
  untested : ¬ " IS ".toList <+: rest

/-- How the text of an operand begins. -/
inductive Opening where
  | name | call | group | string | number
  deriving DecidableEq

/-- What begins with the character. -/
def Opening.ofChar (c : Char) : Opening :=
  if c = '(' then .group
  else if c = '\'' then .string
  else if isPlainStart c then .name
  else if c.isUpper then .call
  else .number

/-- How the text begins. -/
def opening? (text : List Char) : Option Opening := text.head?.map Opening.ofChar

theorem opening?_append {text : List Char} {o : Opening} (h : opening? text = some o)
    (rest : List Char) : opening? (text ++ rest) = some o := by
  cases text with
  | nil => cases h
  | cons c text => exact h

/-- Equal texts begin alike. -/
theorem opening_eq_of_append_eq {a b x y : List Char} {o o' : Opening}
    (ha : opening? a = some o) (hb : opening? b = some o') (h : a ++ x = b ++ y) : o = o' := by
  have hopening := opening?_append ha x
  rw [h, opening?_append hb y] at hopening
  exact (Option.some.inj hopening).symm

/-- A longest prefix of characters of one class is determined by the text. -/
theorem append_inj_of_class {p : Char → Bool} {a b x y : List Char}
    (ha : ∀ c ∈ a, p c = true) (hb : ∀ c ∈ b, p c = true)
    (hx : ∀ c, x.head? = some c → p c = false) (hy : ∀ c, y.head? = some c → p c = false)
    (h : a ++ x = b ++ y) : a = b ∧ x = y := by
  have hstop {l : List Char} (hl : ∀ c, l.head? = some c → p c = false) : l.takeWhile p = [] := by
    cases l with
    | nil => rfl
    | cons c rest => simp [hl c rfl]
  have htake := congrArg (List.takeWhile p) h
  rw [List.takeWhile_append_of_pos ha, List.takeWhile_append_of_pos hb, hstop hx, hstop hy,
    List.append_nil, List.append_nil] at htake
  subst htake
  exact ⟨rfl, List.append_cancel_left h⟩

theorem IsWord.append_inj {a b : String} (ha : IsWord a) (hb : IsWord b) {x y : List Char}
    (hx : EndsWord x) (hy : EndsWord y) (h : a.toList ++ x = b.toList ++ y) : a = b ∧ x = y := by
  have hclass := append_inj_of_class (p := fun c => !endsWord c) (by simpa [IsWord] using ha)
    (by simpa [IsWord] using hb) (by simpa [EndsWord] using hx) (by simpa [EndsWord] using hy) h
  exact ⟨String.toList_inj.mp hclass.1, hclass.2⟩

theorem IsWord.append {a b : String} (ha : IsWord a) (hb : IsWord b) : IsWord (a ++ b) := by
  unfold IsWord
  rw [String.toList_append, List.forall_mem_append]
  exact ⟨ha, hb⟩

theorem Stops.endsWord {rest : List Char} (h : Stops rest) : EndsWord rest := by
  intro c hc
  rcases h c hc with rfl | rfl <;> rfl

theorem Stops.head?_ne {rest : List Char} (h : Stops rest) : rest.head? ≠ some '\'' := by
  intro hhead
  simpa using h '\'' hhead

theorem stops_nil : Stops [] := nofun

theorem stops_blank (rest : List Char) : Stops (' ' :: rest) := by simp [Stops]

theorem stops_close (rest : List Char) : Stops (')' :: rest) := by simp [Stops]

theorem ends_nil : Ends [] := ⟨stops_nil, by simp⟩

theorem ends_close (rest : List Char) : Ends (')' :: rest) := ⟨stops_close rest, by simp⟩

theorem ends_comma (rest : List Char) : Ends (' ' :: ',' :: rest) := ⟨stops_blank _, by simp⟩

theorem endsWord_blank (rest : List Char) : EndsWord (' ' :: rest) := (stops_blank rest).endsWord

theorem endsWord_open (rest : List Char) : EndsWord ('(' :: rest) := by
  rintro c ⟨⟩
  rfl

/-- A class of characters with neither blanks nor parentheses in it. -/
theorem endsWord_eq_false {p : Char → Bool} (hp : [' ', '(', ')'].any p = false) {c : Char}
    (hc : p c = true) : endsWord c = false := by
  rw [List.any_eq_false] at hp
  have hne {d : Char} (hd : d ∈ [' ', '(', ')']) : c ≠ d := by
    rintro rfl
    exact hp c hd hc
  simp [endsWord, hne]

theorem endsWord_eq_false_of_isPlainPart {c : Char} (h : isPlainPart c = true) :
    endsWord c = false :=
  endsWord_eq_false (by decide) h

theorem opening?_of_isPlainIdentifier {name : String} (h : isPlainIdentifier name = true) :
    opening? name.toList = some .name := by
  unfold isPlainIdentifier at h
  cases hlist : name.toList with
  | nil => simp [hlist] at h
  | cons c rest =>
    rw [hlist, Bool.and_eq_true] at h
    have hopen : c ≠ '(' := by
      rintro rfl
      exact absurd h.1 (by decide)
    have hquote : c ≠ '\'' := by
      rintro rfl
      exact absurd h.1 (by decide)
    simp [opening?, Opening.ofChar, hopen, hquote, h.1]

/-- Digits, of which numbers are made. -/
theorem isDigit_of_mem_toString (n : Nat) : ∀ c ∈ (toString n).toList, c.isDigit = true := by
  intro c hc
  have hdigits : c ∈ Nat.toDigits 10 n := by simpa using hc
  exact Nat.isDigit_of_mem_toDigits (by decide) (by decide) hdigits

/-- No word ends within a number. -/
theorem isWord_toString_int (n : Int) : IsWord (toString n) := by
  have hnat (n : Nat) : IsWord (toString n) := fun c hc => by
    have hpart : isPlainPart c = true := by simp [isPlainPart, isDigit_of_mem_toString n c hc]
    exact endsWord_eq_false_of_isPlainPart hpart
  cases n with
  | ofNat n => exact hnat n
  | negSucc n => exact IsWord.append (a := "-") (by decide) (hnat (n + 1))

theorem Opening.ofChar_of_isDigit {c : Char} (h : c.isDigit = true) : ofChar c = .number := by
  have hopen : c ≠ '(' := by
    rintro rfl
    cases h
  have hquote : c ≠ '\'' := by
    rintro rfl
    cases h
  have hunderscore : c ≠ '_' := by
    rintro rfl
    cases h
  have hletter : c.isLower = false ∧ c.isUpper = false := by
    delta Char.isDigit at h
    delta Char.isLower Char.isUpper
    grind
  simp [ofChar, isPlainStart, hopen, hquote, hunderscore, hletter]

/-- A number begins with a digit or with a sign. -/
theorem opening?_toString_int (n : Int) : opening? (toString n).toList = some .number := by
  cases n with
  | ofNat n =>
    change opening? (toString n).toList = some .number
    cases hlist : (toString n).toList with
    | nil =>
      simp at hlist
    | cons c rest =>
      have hdigit := isDigit_of_mem_toString n c (hlist ▸ List.mem_cons_self)
      rw [opening?, List.head?_cons, Option.map_some, Opening.ofChar_of_isDigit hdigit]
  | negSucc n =>
    have htext : toString (Int.negSucc n) = "-" ++ toString (n + 1) := rfl
    rw [htext, String.toList_append]
    rfl

theorem toString_injective {n m : Nat} (h : toString n = toString m) : n = m := by
  have hread := congrArg (fun text : String => Nat.ofDigitChars 10 text.toList 0) h
  simpa [Nat.toString_eq_ofList_toDigits] using hread

/-- A number is read from its digits and its sign. -/
theorem toString_int_injective {i j : Int} (h : toString i = toString j) : i = j := by
  have hsign (n m : Nat) : toString n ≠ "-" ++ toString m := by
    intro heq
    have hdigit := isDigit_of_mem_toString n '-' (by rw [heq]; simp)
    cases hdigit
  cases i with
  | ofNat n =>
    cases j with
    | ofNat m => exact congrArg Int.ofNat (toString_injective h)
    | negSucc m => exact absurd h (hsign n (m + 1))
  | negSucc n =>
    cases j with
    | ofNat m => exact absurd h.symm (hsign m (n + 1))
    | negSucc m =>
      have hdigits : toString (n + 1) = toString (m + 1) := (String.append_right_inj "-").mp h
      exact congrArg Int.negSucc (Nat.succ.inj (toString_injective hdigits))

/-- A string ends at its closing quote. -/
theorem Quoted.string_append_inj {s t : String} {x y : List Char} (hx : x.head? ≠ some '\'')
    (hy : y.head? ≠ some '\'')
    (h : (Quoted.string s).toList ++ x = (Quoted.string t).toList ++ y) : s = t ∧ x = y := by
  rw [Quoted.toList_string, Quoted.toList_string] at h
  obtain ⟨htext, hrest⟩ := Quoted.encode_append_inj hx hy h
  exact ⟨String.toList_inj.mp htext, hrest⟩

end Text

end SqlTree
