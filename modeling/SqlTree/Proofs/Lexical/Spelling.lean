import SqlTree.Proofs.Lexical.Alike
import SqlTree.Proofs.Tree.Passes
import SqlTree.Proofs.Writing.Revised

/-!
# Names, aliases and literals in a text

Names stand in a statement as they are, so they must be free of marks. An alias is quoted unless it
is plain, a string is always quoted, and numbers have no marks. Main statements: what is asked of
the spelling of a tree is not broken by the passes, and a relation that writing keeps relates the
texts of a tree to those of the tree with other strings if it relates strings and quoted names.
-/

namespace SqlTree

namespace Literal

mutual

/-- The literal with its strings replaced. -/
def mapStrings (f : String → String) : Literal → Literal
  | .string s => .string (f s)
  | .tuple items => .tuple (mapStringsIn f items)
  | .null => .null
  | .bool value => .bool value
  | .int n => .int n
  | .float x => .float x
  | .date d => .date d
  | .timestamp t => .timestamp t

/-- The items of a tuple with their strings replaced. -/
def mapStringsIn (f : String → String) : List Literal → List Literal
  | [] => []
  | item :: rest => item.mapStrings f :: mapStringsIn f rest

end

mutual

/-- The texts of the dates and timestamps in a literal, which are quoted like strings. -/
def dateTexts : Literal → List String
  | .date d => [d.text]
  | .timestamp t => [t.text]
  | .tuple items => dateTextsIn items
  | .null | .bool _ | .int _ | .float _ | .string _ => []

/-- The texts of the dates and timestamps in the items of a tuple. -/
def dateTextsIn : List Literal → List String
  | [] => []
  | item :: rest => item.dateTexts ++ dateTextsIn rest

end

end Literal

namespace Text

/-- A number has digits and at most a sign. -/
theorem unmarked_toString_int (n : Int) : Unmarked (toString n) := by
  cases n with
  | ofNat n => exact unmarked_toString n
  | negSucc n => exact Unmarked.append (a := "-") (by decide) (unmarked_toString (n + 1))

/-- A decimal has digits and at most a point. -/
theorem forall_mem_positional {p : Char → Prop} (hdigit : ∀ c : Char, c.isDigit = true → p c)
    (hpoint : p '.') (d : Decimal.Scaled) : ∀ c ∈ d.positional.toList, p c := by
  have hdigits : ∀ c ∈ d.digitChars, p c := fun c hc => by
    have hmem : c ∈ Nat.toDigits 10 d.digits := by simpa [Decimal.Scaled.digitChars] using hc
    exact hdigit c (Nat.isDigit_of_mem_toDigits (by decide) (by decide) hmem)
  have hzeros (n : Nat) : ∀ c ∈ Decimal.zeros n, p c := by
    intro c hc
    rw [List.eq_of_mem_replicate hc]
    exact hdigit '0' (by decide)
  unfold Decimal.Scaled.positional
  simp only
  split
  · rw [String.toList_ofList, List.forall_mem_append]
    exact ⟨hdigits, hzeros _⟩
  · split
    · rw [String.toList_ofList, List.forall_mem_append, List.forall_mem_cons]
      exact ⟨fun c hc => hdigits c (List.mem_of_mem_take hc), hpoint,
        fun c hc => hdigits c (List.mem_of_mem_drop hc)⟩
    · rw [String.toList_ofList, List.cons_append, List.cons_append, List.forall_mem_cons,
        List.forall_mem_cons, List.forall_mem_append]
      exact ⟨hdigit '0' (by decide), hpoint, hzeros _, hdigits⟩

theorem unmarked_positional (d : Decimal.Scaled) : Unmarked d.positional :=
  forall_mem_positional (fun _ => isMark_eq_false (by decide)) (by decide) d

theorem unmarked_floatText (x : Decimal.Binary64) : Unmarked (Literal.floatText x) := by
  unfold Literal.floatText
  split
  · refine Unmarked.append ?_ (unmarked_positional _)
    split <;> decide
  · decide

theorem unmarked_derivedName (n : Nat) : Unmarked (derivedName n) :=
  Unmarked.append (a := "sq") (by decide) (unmarked_toString (n + 1))

/-- A plain identifier is made of letters, digits and underscores. -/
theorem isPlainPart_of_isPlainIdentifier {name : String} (h : isPlainIdentifier name = true) :
    ∀ c ∈ name.toList, isPlainPart c = true := by
  unfold isPlainIdentifier at h
  intro c hc
  cases hlist : name.toList with
  | nil =>
    rw [hlist] at hc
    cases hc
  | cons d rest =>
    rw [hlist] at h hc
    rw [Bool.and_eq_true, List.all_eq_true] at h
    rcases List.mem_cons.mp hc with rfl | hc
    · simp [isPlainPart, h.1]
    · exact h.2 c hc

theorem unmarked_of_isPlainIdentifier {name : String} (h : isPlainIdentifier name = true) :
    Unmarked name := fun c hc =>
  isMark_eq_false (p := isPlainPart) (by decide) (isPlainPart_of_isPlainIdentifier h c hc)

end Text

/-- The name of a reference is free of marks, and its alias is as asked for. -/
structure Reference.Spelled (isAlias : String → Prop) (r : Reference) : Prop where
  unmarked : ∀ name, r.name = some name → Text.Unmarked name
  isAlias : ∀ aliasName, r.aliasName = some aliasName → isAlias aliasName

/-- Names are free of marks, and aliases and literals are as asked for. -/
def Demand.spelled (isAlias : String → Prop) (isLiteral : Literal → Prop) : Demand where
  query q := q.reference.Spelled isAlias
  entry entry := ∀ items, entry = .select items →
    ∀ item ∈ items, ∀ aliasName, item.aliasName = some aliasName → isAlias aliasName
  column c := ∀ name owner, c.base = .named name owner →
    Text.Unmarked name ∧ ∀ r, owner = some r → r.Spelled isAlias
  literal := isLiteral

/-- The passes make no names and aliases, except for the star. -/
theorem Demand.stable_spelled (isAlias : String → Prop) (isLiteral : Literal → Prop) :
    (spelled isAlias isLiteral).Stable where
  query_congr q q' hreference _ hq := by
    change q'.reference.Spelled isAlias
    rw [hreference]
    exact hq
  entry_projected entry hentry items he item hitem aliasName halias := by
    obtain ⟨items', item', he', hitem', hsame⟩ := Entry.exists_item_of_projected he hitem
    exact hentry items' he' item' hitem' aliasName (hsame.trans halias)
  entry_yield c items he item hitem aliasName halias := by
    cases he
    rw [List.mem_singleton.mp hitem] at halias
    cases halias
  entry_membership c values _ items he := by cases he
  column_projected _ hc name owner hbase := hc name owner (Column.base_eq_of_projected hbase)
  column_star name owner hbase := by
    cases hbase
    exact ⟨by decide, nofun⟩
  column_ofBinary op left right name owner hbase := by cases hbase

namespace Text.Alike

variable {f : String → String} {p : List Lexeme → Prop}

/-- An identifier is alike to itself. -/
theorem identifier {name : String} (h : p [.quoted '"' name.toList]) :
    Alike f p (Quoted.identifier name) (Quoted.identifier name) :=
  ⟨[.quoted '"' name.toList], .identifier name, .identifier name, h⟩

variable (hp : Lexeme.Closure p)
include hp

/-- A string is alike to the one that takes its place. -/
theorem string (s : String) : Alike f p (Quoted.string s) (Quoted.string (f s)) := by
  refine ⟨[.quoted '\'' s.toList], .string s, ?_, hp.string s.toList⟩
  simpa [Lexeme.mapString] using Lexed.string (f s)

end Text.Alike

namespace Text.Congruence

variable {R : String → String → Prop} (hR : Congruence R)
include hR

/-- A text that does not start with a parenthesis is an argument as it stands. -/
theorem applicable {s : String} (h : R s s) (hhead : s.toList.head? ≠ some '(') :
    Applicable R s s := by
  refine ⟨h, ?_⟩
  rw [ungrouped_of_head? hhead]
  exact hR.parenthesized h

variable {isAlias : String → Prop}
  (halias : ∀ name, isAlias name → R (Quoted.identifier name) (Quoted.identifier name))
include halias

/-- A qualifier does not start with a parenthesis, be it quoted or not. -/
theorem qualifier {r : Reference} (hr : r.Spelled isAlias) {qualifier : String}
    (h : r.sql? = some qualifier) : R qualifier qualifier ∧ qualifier.toList.head? ≠ some '(' := by
  unfold Reference.sql? at h
  split at h
  · rename_i aliasName haliasName
    obtain rfl := Option.some.inj h
    split
    · rename_i hplain
      have hunmarked := unmarked_of_isPlainIdentifier hplain
      exact ⟨hR.unmarked hunmarked, hunmarked.head?_ne⟩
    · refine ⟨halias aliasName (hr.isAlias aliasName haliasName), ?_⟩
      simp [Quoted.identifier, Quoted.encode]
  · have hunmarked := hr.unmarked qualifier h
    exact ⟨hR.unmarked hunmarked, hunmarked.head?_ne⟩

/-- A column by name is an argument as it stands. -/
theorem nameSql {name : String} {owner : Option Reference} (hname : Unmarked name)
    (howner : ∀ r, owner = some r → r.Spelled isAlias) :
    Applicable R (Base.nameSql name owner) (Base.nameSql name owner) := by
  have halone : Applicable R name name := hR.applicable (hR.unmarked hname) hname.head?_ne
  unfold Base.nameSql
  split
  · exact halone
  · split
    · rename_i qualifier hqualifier
      obtain ⟨r, hr, hsql⟩ := Option.bind_eq_some_iff.mp hqualifier
      obtain ⟨hlike, hhead⟩ := hR.qualifier halias (howner r hr) hsql
      refine hR.applicable (hR.joined "." (by decide) (by decide) hlike (hR.unmarked hname)) ?_
      rw [String.toList_append, String.toList_append]
      cases hlist : qualifier.toList with
      | nil => simp
      | cons c rest => simpa [hlist] using hhead
    · exact halone

end Text.Congruence

section Literal

variable {f : String → String} {R : String → String → Prop}

mutual

/-- A literal whose dates are spared is related to the one with other strings, if strings are. -/
theorem Literal.related_text (hR : Text.Congruence R)
    (hstring : ∀ s : String, R (Text.Quoted.string s) (Text.Quoted.string (f s))) :
    ∀ v : Literal, (∀ text ∈ v.dateTexts, f text = text) → R v.text (v.mapStrings f).text
  | .null, _ => by
    simp only [Literal.mapStrings, Literal.text]
    exact hR.unmarked (by decide)
  | .bool value, _ => by
    simp only [Literal.mapStrings]
    cases value <;> simp only [Literal.text] <;> exact hR.unmarked (by decide)
  | .int n, _ => by
    simp only [Literal.mapStrings, Literal.text]
    exact hR.unmarked (Text.unmarked_toString_int n)
  | .float x, _ => by
    simp only [Literal.mapStrings, Literal.text]
    exact hR.unmarked (Text.unmarked_floatText x)
  | .string s, _ => by
    simp only [Literal.mapStrings, Literal.text]
    exact hstring s
  | .date d, h => by
    simp only [Literal.dateTexts, List.forall_mem_singleton] at h
    simpa only [Literal.mapStrings, Literal.text, h] using hstring d.text
  | .timestamp t, h => by
    simp only [Literal.dateTexts, List.forall_mem_singleton] at h
    simpa only [Literal.mapStrings, Literal.text, h] using hstring t.text
  | .tuple items, h => by
    simp only [Literal.dateTexts] at h
    simp only [Literal.mapStrings, Literal.text]
    exact hR.parenthesized (Statement.related_intercalate hR "," (by decide) (by decide)
      (Literal.related_texts hR hstring items h))

theorem Literal.related_texts (hR : Text.Congruence R)
    (hstring : ∀ s : String, R (Text.Quoted.string s) (Text.Quoted.string (f s))) :
    ∀ items : List Literal, (∀ text ∈ Literal.dateTextsIn items, f text = text) →
      Statement.Related R (Literal.texts items) (Literal.texts (Literal.mapStringsIn f items))
  | [], _ => .nil
  | item :: rest, h => by
    simp only [Literal.dateTextsIn, List.forall_mem_append] at h
    simp only [Literal.mapStringsIn, Literal.texts]
    exact .cons (Literal.related_text hR hstring item h.1) (Literal.related_texts hR hstring rest h.2)

end

/-- Trees that are spelled as asked for are related to those with other strings, if their strings
and their quoted names are. -/
theorem Demand.likeness_spelled (hR : Text.Congruence R)
    (hstring : ∀ s : String, R (Text.Quoted.string s) (Text.Quoted.string (f s)))
    {isAlias : String → Prop} {isLiteral : Literal → Prop}
    (hidentifier : ∀ name, isAlias name ∨ Text.Unmarked name →
      R (Text.Quoted.identifier name) (Text.Quoted.identifier name))
    (hliteral : ∀ v, isLiteral v → ∀ text ∈ v.dateTexts, f text = text) :
    Likeness (Literal.mapStrings f) (.spelled isAlias isLiteral) R where
  toCongruence := hR
  ofLiteral v hv := Literal.related_text hR hstring v (hliteral v hv)
  ofColumn c name owner hc hbase :=
    hR.nameSql (fun name hname => hidentifier name (.inl hname)) (hc name owner hbase).1
      (hc name owner hbase).2
  ofTable q name hq hname := by
    refine hR.unmarked (hq.unmarked name ?_)
    simp [Query.reference, hname, Source.name?]
  ofQualifier q name hq hname := by
    refine hidentifier name ?_
    cases haliasName : q.reference.aliasName with
    | none =>
      refine .inr (hq.unmarked name ?_)
      simpa [Reference.qualifier, haliasName] using hname
    | some aliasName =>
      obtain rfl : aliasName = name := by simpa [Reference.qualifier, haliasName] using hname
      exact .inl (hq.isAlias aliasName haliasName)
  ofAlias items item aliasName hentry hitem hname :=
    hidentifier aliasName (.inl (hentry items rfl item hitem aliasName hname))
  ofDerivedName n := hidentifier (derivedName n) (.inr (Text.unmarked_derivedName n))

end Literal

end SqlTree
