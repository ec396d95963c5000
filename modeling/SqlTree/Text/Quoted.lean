/-!
# Quoted text

Text between two delimiters, where a delimiter inside the text is written twice. Identifiers stand
between double quotes and strings between single quotes. Main statements: reading one quoted token
accepts exactly what writing produces, up to a delimiter that no second one follows, so the front of
a text determines the token that stands there.
-/

namespace SqlTree.Text.Quoted

/-- The text with every delimiter written twice. -/
def double (delimiter : Char) : List Char → List Char
  | [] => []
  | c :: rest =>
    if c = delimiter then delimiter :: delimiter :: double delimiter rest
    else c :: double delimiter rest

/-- The quoted token of a text. -/
def encode (delimiter : Char) (text : List Char) : List Char :=
  delimiter :: (double delimiter text ++ [delimiter])

/-- Read quoted text up to its closing delimiter: the text and what follows it. -/
def readBody? (delimiter : Char) : List Char → Option (List Char × List Char)
  | [] => none
  | [c] => if c = delimiter then some ([], []) else none
  | c :: d :: rest =>
    if c = delimiter then
      if d = delimiter then
        (readBody? delimiter rest).map fun (text, after) => (delimiter :: text, after)
      else some ([], d :: rest)
    else (readBody? delimiter (d :: rest)).map fun (text, after) => (c :: text, after)

/-- Read one quoted token: its text and what follows the token. -/
def read? (delimiter : Char) : List Char → Option (List Char × List Char)
  | [] => none
  | c :: rest => if c = delimiter then readBody? delimiter rest else none

/-- A name as a delimited identifier. -/
def identifier (name : String) : String := String.ofList (encode '"' name.toList)

/-- A string literal. -/
def string (text : String) : String := String.ofList (encode '\'' text.toList)

theorem toList_identifier (name : String) : (identifier name).toList = encode '"' name.toList :=
  String.toList_ofList

theorem toList_string (text : String) : (string text).toList = encode '\'' text.toList :=
  String.toList_ofList

@[simp] theorem double_nil (delimiter : Char) : double delimiter [] = [] := rfl

theorem double_cons_self (delimiter : Char) (rest : List Char) :
    double delimiter (delimiter :: rest) = delimiter :: delimiter :: double delimiter rest := by
  simp [double]

theorem double_cons_of_ne {delimiter c : Char} (h : c ≠ delimiter) (rest : List Char) :
    double delimiter (c :: rest) = c :: double delimiter rest := by
  simp [double, h]

/-- A closing delimiter ends the text unless a second one follows. -/
theorem readBody?_close {delimiter : Char} {after : List Char}
    (h : after.head? ≠ some delimiter) :
    readBody? delimiter (delimiter :: after) = some ([], after) := by
  cases after with
  | nil => simp [readBody?]
  | cons d rest => simp_all [readBody?]

/-- Two delimiters stand for one in the text. -/
theorem readBody?_cons_cons_self (delimiter : Char) (rest : List Char) :
    readBody? delimiter (delimiter :: delimiter :: rest) =
      (readBody? delimiter rest).map (Prod.map (delimiter :: ·) id) := by
  rw [readBody?, if_pos rfl, if_pos rfl]
  rfl

/-- A character other than the delimiter stands for itself. -/
theorem readBody?_cons_of_ne {delimiter c : Char} (h : c ≠ delimiter) (rest : List Char) :
    readBody? delimiter (c :: rest) =
      (readBody? delimiter rest).map (Prod.map (c :: ·) id) := by
  cases rest with
  | nil => simp [readBody?, h]
  | cons d rest =>
    rw [readBody?, if_neg h]
    rfl

/-- Doubled text is read as the text, whatever follows it. -/
theorem readBody?_double_append (delimiter : Char) (text rest : List Char) :
    readBody? delimiter (double delimiter text ++ rest) =
      (readBody? delimiter rest).map (Prod.map (text ++ ·) id) := by
  induction text with
  | nil =>
    have hid : Prod.map (([] : List Char) ++ ·) (id : List Char → List Char) = id := rfl
    rw [double_nil, List.nil_append, hid, Option.map_id_fun, id]
  | cons c text ih =>
    by_cases hc : c = delimiter
    · subst hc
      rw [double_cons_self, List.cons_append, List.cons_append, readBody?_cons_cons_self, ih,
        Option.map_map]
      rfl
    · rw [double_cons_of_ne hc, List.cons_append, readBody?_cons_of_ne hc, ih, Option.map_map]
      rfl

/-- Doubled text up to a closing delimiter is read back exactly. -/
theorem readBody?_double {delimiter : Char} {after : List Char}
    (h : after.head? ≠ some delimiter) (text : List Char) :
    readBody? delimiter (double delimiter text ++ delimiter :: after) = some (text, after) := by
  rw [readBody?_double_append, readBody?_close h, Option.map_some, Prod.map_apply, List.append_nil,
    id]

/-- What is read as a text is its doubled form and a closing delimiter, and no second delimiter
follows that one. -/
theorem eq_double_of_readBody? {delimiter : Char} {l text after : List Char}
    (h : readBody? delimiter l = some (text, after)) :
    l = double delimiter text ++ delimiter :: after ∧ after.head? ≠ some delimiter := by
  fun_induction readBody? delimiter l generalizing text with
  | case1 => cases h
  | case2 =>
    cases h
    simp
  | case3 => cases h
  | case4 rest ih =>
    obtain ⟨⟨body, behind⟩, hread, he⟩ := Option.map_eq_some_iff.mp h
    cases he
    obtain ⟨hrest, hafter⟩ := ih hread
    rw [double_cons_self, hrest]
    exact ⟨rfl, hafter⟩
  | case5 d rest hd =>
    cases h
    exact ⟨rfl, by simpa using hd⟩
  | case6 c d rest hc ih =>
    obtain ⟨⟨body, behind⟩, hread, he⟩ := Option.map_eq_some_iff.mp h
    cases he
    obtain ⟨hrest, hafter⟩ := ih hread
    rw [double_cons_of_ne hc, hrest]
    exact ⟨rfl, hafter⟩

/-- Reading accepts exactly what writing produces where no further delimiter follows it. -/
theorem read?_eq_some_iff {delimiter : Char} {l text after : List Char} :
    read? delimiter l = some (text, after) ↔
      l = encode delimiter text ++ after ∧ after.head? ≠ some delimiter := by
  rw [encode, List.cons_append, List.append_assoc, List.singleton_append]
  constructor
  · intro h
    cases l with
    | nil => cases h
    | cons c rest =>
      obtain ⟨rfl, hbody⟩ := Option.ite_none_right_eq_some.mp h
      obtain ⟨hrest, hafter⟩ := eq_double_of_readBody? hbody
      exact ⟨congrArg (c :: ·) hrest, hafter⟩
  · rintro ⟨rfl, hafter⟩
    rw [read?, if_pos rfl, readBody?_double hafter]

/-- A quoted token at the front of a text is read as what was written, and what follows is left. -/
theorem read?_encode {delimiter : Char} {after : List Char} (h : after.head? ≠ some delimiter)
    (text : List Char) :
    read? delimiter (encode delimiter text ++ after) = some (text, after) :=
  read?_eq_some_iff.mpr ⟨rfl, h⟩

/-- The front of a text determines the quoted token there, and where it ends. -/
theorem encode_append_inj {delimiter : Char} {a b x y : List Char}
    (hx : x.head? ≠ some delimiter) (hy : y.head? ≠ some delimiter)
    (h : encode delimiter a ++ x = encode delimiter b ++ y) : a = b ∧ x = y := by
  have hread := read?_encode hx a
  rw [h, read?_encode hy b, Option.some.injEq, Prod.mk.injEq] at hread
  exact ⟨hread.1.symm, hread.2.symm⟩

end SqlTree.Text.Quoted
