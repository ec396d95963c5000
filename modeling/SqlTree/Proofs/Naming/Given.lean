import SqlTree.Proofs.Lexical.Spelling
import SqlTree.Proofs.Scoping.Declared

/-!
# How often a name is given

A correlation name is given by `AS` and the name in double quotes. This module counts how often one
name is given in texts that have it in double quotes nowhere else. Main statements: parentheses that
are added or stripped change nothing, and a statement gives the name as often as its source and its
clauses do, in whatever order they are written.
-/

namespace SqlTree

namespace Text

/-- The text has no quote of a string or of an identifier. -/
def QuoteFree (text : String) : Prop := ∀ c ∈ text.toList, isQuote c = false

instance (text : String) : Decidable (QuoteFree text) :=
  List.decidableBAll (fun c => isQuote c = false) text.toList

theorem Unmarked.quoteFree {text : String} (h : Unmarked text) : QuoteFree text :=
  fun c hc => isQuote_of_isMark (h c hc)

namespace Lexeme

/-- What stands before a name that is given. -/
def givingWord : List Lexeme := "AS ".toList.map .plain

/-- The name between double quotes. -/
def identifier? : Lexeme → Option String
  | .quoted '"' name => some (String.ofList name)
  | _ => none

/-- How often the name stands in double quotes. -/
def occurrences (name : String) (lexemes : List Lexeme) : Nat :=
  (lexemes.filterMap identifier?).count name

/-- Wherever the name stands in double quotes it is given. -/
def OnlyGiven (name : String) (lexemes : List Lexeme) : Prop :=
  ∀ before lexeme after, lexemes = before ++ lexeme :: after → lexeme.identifier? = some name →
    givingWord <:+ before

variable {name : String} {a b : List Lexeme}

@[simp] theorem occurrences_append (name : String) (a b : List Lexeme) :
    occurrences name (a ++ b) = occurrences name a + occurrences name b := by
  rw [occurrences, List.filterMap_append, List.count_append]
  rfl

theorem occurrences_quoted (name : String) : occurrences name [.quoted '"' name.toList] = 1 := by
  have hname : [Lexeme.quoted '"' name.toList].filterMap identifier? = [name] := by
    simp [identifier?]
  rw [occurrences, hname, List.count_singleton_self]

/-- The lexemes do not have the name in double quotes. -/
theorem occurrences_eq_zero (h : ∀ lexeme ∈ a, lexeme.identifier? ≠ some name) :
    occurrences name a = 0 := by
  refine List.count_eq_zero.mpr fun hmem => ?_
  obtain ⟨lexeme, hlexeme, hname⟩ := List.mem_filterMap.mp hmem
  exact h lexeme hlexeme hname

theorem onlyGiven_of_forall (h : ∀ lexeme ∈ a, lexeme.identifier? ≠ some name) :
    OnlyGiven name a := by
  rintro before lexeme after rfl hname
  exact absurd hname (h lexeme (List.mem_append_right _ List.mem_cons_self))

theorem identifier?_map_plain (name : String) (word : List Char) :
    ∀ lexeme ∈ word.map Lexeme.plain, lexeme.identifier? ≠ some name := by
  intro lexeme hlexeme
  obtain ⟨c, _, rfl⟩ := List.mem_map.mp hlexeme
  exact nofun

theorem OnlyGiven.append (ha : OnlyGiven name a) (hb : OnlyGiven name b) :
    OnlyGiven name (a ++ b) := by
  intro before lexeme after heq hname
  rcases List.append_eq_append_iff.mp heq with ⟨middle, rfl, hb'⟩ | ⟨middle, ha', hmiddle⟩
  · exact (hb middle lexeme after hb' hname).trans (List.suffix_append _ _)
  · cases middle with
    | nil =>
      rw [List.append_nil] at ha'
      have hnil : givingWord <:+ [] := hb [] lexeme after hmiddle.symm hname
      exact absurd (List.suffix_nil.mp hnil) (by decide)
    | cons first middle =>
      obtain ⟨rfl, _⟩ := List.cons.inj hmiddle
      exact ha before lexeme middle ha' hname

/-- What is not the word itself may be taken away before it. -/
theorem OnlyGiven.of_cons_plain {c : Char} (hc : c ≠ 'A') (h : OnlyGiven name (.plain c :: a)) :
    OnlyGiven name a := by
  rintro before lexeme after rfl hname
  have hsuffix := h (.plain c :: before) lexeme after (by simp) hname
  rcases List.suffix_cons_iff.mp hsuffix with hall | hsuffix
  · have hfirst : Lexeme.plain 'A' = .plain c := (List.cons.inj hall).1
    exact absurd (Lexeme.plain.inj hfirst).symm hc
  · exact hsuffix

theorem OnlyGiven.of_append (h : OnlyGiven name (a ++ b)) : OnlyGiven name a := by
  rintro before lexeme after rfl hname
  exact h before lexeme (after ++ b) (by simp) hname

end Lexeme

/-- A character outside quotes at the front of a text is its first lexeme. -/
theorem Lexed.of_cons {lexemes : List Lexeme} {text : List Char} {c : Char}
    (hc : isQuote c = false) (h : Lexed lexemes (c :: text)) :
    ∃ rest, lexemes = .plain c :: rest ∧ Lexed rest text := by
  obtain ⟨whole, hwhole⟩ : ∃ whole, whole = c :: text := ⟨_, rfl⟩
  rw [← hwhole] at h
  cases h with
  | nil => cases hwhole
  | plain _ hrest =>
    obtain ⟨rfl, rfl⟩ := List.cons.inj hwhole
    exact ⟨_, rfl, hrest⟩
  | quoted hdelimiter _ _ =>
    obtain ⟨rfl, _⟩ := List.cons.inj hwhole
    rw [hc] at hdelimiter
    cases hdelimiter

/-- A character outside quotes at the end of a text is its last lexeme. -/
theorem Lexed.of_append_singleton {lexemes : List Lexeme} {text : List Char} {c : Char}
    (hc : isQuote c = false) (h : Lexed lexemes (text ++ [c])) :
    ∃ init, lexemes = init ++ [.plain c] ∧ Lexed init text := by
  obtain ⟨whole, hwhole⟩ : ∃ whole, whole = text ++ [c] := ⟨_, rfl⟩
  rw [← hwhole] at h
  induction h generalizing text with
  | nil => simp at hwhole
  | @plain d lexemes rest hd hrest ih =>
    cases text with
    | nil =>
      obtain ⟨rfl, rfl⟩ := List.cons.inj hwhole
      cases hrest
      exact ⟨[], rfl, .nil⟩
    | cons first text =>
      obtain ⟨rfl, rfl⟩ := List.cons.inj hwhole
      obtain ⟨init, rfl, hinit⟩ := ih rfl
      exact ⟨.plain d :: init, rfl, .plain hd hinit⟩
  | @quoted delimiter body lexemes rest hdelimiter hhead hrest ih =>
    rcases List.eq_nil_or_concat' rest with rfl | ⟨rest, last, rfl⟩
    · have hlast : (Quoted.encode delimiter body ++ []).getLast? = some c := by
        rw [hwhole, List.getLast?_concat]
      have hclose : (Quoted.encode delimiter body ++ []).getLast? = some delimiter := by
        rw [List.append_nil, Quoted.encode, ← List.cons_append, List.getLast?_concat]
      obtain rfl : c = delimiter := Option.some.inj (hlast.symm.trans hclose)
      rw [hc] at hdelimiter
      cases hdelimiter
    · rw [← List.append_assoc] at hwhole
      obtain ⟨rfl, hsame⟩ := List.append_inj' hwhole rfl
      obtain rfl : last = c := by simpa using hsame
      obtain ⟨init, rfl, hinit⟩ := ih rfl
      refine ⟨.quoted delimiter body :: init, rfl, .quoted hdelimiter ?_ hinit⟩
      cases rest with
      | nil => simp
      | cons first rest => exact hhead

/-- The parenthesis that is found to close last is the last character. -/
theorem getLast?_of_closesLast {l : List Char} {depth : Nat} {quoted : Bool}
    (h : closesLast depth quoted l = true) : l.getLast? = some ')' := by
  have hcons (c : Char) {rest : List Char} (hrest : rest.getLast? = some ')') :
      (c :: rest).getLast? = some ')' := by
    rw [List.getLast?_cons, hrest]
    rfl
  fun_induction closesLast depth quoted l with
  | case1 => cases h
  | case5 quoted rest _ _ _ =>
    rw [List.isEmpty_iff.mp h]
    rfl
  | _ =>
    rename_i ih
    exact hcons _ (ih h)

/-- A text that is enclosed begins and ends with a parenthesis. -/
theorem exists_of_isEnclosed {text : String} (h : isEnclosed text = true) :
    ∃ inner, text.toList = '(' :: (inner ++ [')']) := by
  unfold isEnclosed at h
  split at h
  · rename_i rest hlist
    obtain ⟨inner, hinner⟩ := List.getLast?_eq_some_iff.mp (getLast?_of_closesLast h)
    exact ⟨inner, by rw [hlist, hinner]⟩
  · cases h

/-- The text gives the name so many times, and has it in double quotes nowhere else. -/
def Gives (name : String) (count : Nat) (text : String) : Prop :=
  ∃ lexemes, Lexed lexemes text.toList ∧ Lexeme.occurrences name lexemes = count ∧
    Lexeme.OnlyGiven name lexemes

namespace Gives

variable {name s t : String} {m n : Nat}

/-- A text whose lexemes do not have the name in double quotes. -/
theorem of_forall {lexemes : List Lexeme} (h : Lexed lexemes s.toList)
    (hname : ∀ lexeme ∈ lexemes, lexeme.identifier? ≠ some name) : Gives name 0 s :=
  ⟨lexemes, h, Lexeme.occurrences_eq_zero hname, Lexeme.onlyGiven_of_forall hname⟩

theorem of_quoteFree (h : QuoteFree s) : Gives name 0 s := by
  refine of_forall ?_ (Lexeme.identifier?_map_plain name s.toList)
  simpa using Lexed.plains h .nil

theorem of_unmarked (h : Unmarked s) : Gives name 0 s := of_quoteFree h.quoteFree

theorem eq_zero (h : Gives name n "") : n = 0 := by
  obtain ⟨lexemes, hlexed, hcount, _⟩ := h
  cases hlexed
  exact hcount.symm

/-- Nothing is given in a string. -/
theorem string (text : String) : Gives name 0 (Quoted.string text) :=
  of_forall (Lexed.string text) (by simp [Lexeme.identifier?])

/-- Other identifiers may stand in double quotes anywhere. -/
theorem identifier {other : String} (h : other ≠ name) :
    Gives name 0 (Quoted.identifier other) :=
  of_forall (Lexed.identifier other) (by simp [Lexeme.identifier?, h])

theorem declaration (name : String) : Gives name 1 ("AS " ++ Quoted.identifier name) := by
  refine ⟨Lexeme.givingWord ++ [.quoted '"' name.toList], ?_, ?_, ?_⟩
  · have hword : QuoteFree "AS " := by decide
    rw [String.toList_append]
    exact Lexed.plains hword (Lexed.identifier name)
  · rw [Lexeme.occurrences_append, Lexeme.occurrences_quoted, Lexeme.givingWord,
      Lexeme.occurrences_eq_zero (Lexeme.identifier?_map_plain _ _)]
  · intro before lexeme after heq hname
    rcases List.append_eq_append_iff.mp heq with ⟨middle, rfl, hsingle⟩ | ⟨middle, hword, hmiddle⟩
    · cases middle with
      | nil => exact (List.append_nil _).symm ▸ List.suffix_rfl
      | cons first middle => simp at hsingle
    · cases middle with
      | nil =>
        rw [List.append_nil] at hword
        exact hword ▸ List.suffix_rfl
      | cons first middle =>
        obtain ⟨rfl, _⟩ := List.cons.inj hmiddle
        exact absurd hname (Lexeme.identifier?_map_plain name "AS ".toList lexeme
          (by rw [← Lexeme.givingWord, hword]; simp))

theorem joined (hs : Gives name m s) (separator : String) (hseparator : Unmarked separator)
    (hne : separator ≠ "") (ht : Gives name n t) : Gives name (m + n) (s ++ separator ++ t) := by
  obtain ⟨a, ha, rfl, hagiven⟩ := hs
  obtain ⟨b, hb, rfl, hbgiven⟩ := ht
  have hplain := Lexeme.identifier?_map_plain name separator.toList
  refine ⟨_, ha.joined hseparator hne hb, ?_,
    hagiven.append ((Lexeme.onlyGiven_of_forall hplain).append hbgiven)⟩
  simp [Lexeme.occurrences_eq_zero hplain]

theorem prepended {word : String} (hword : Unmarked word) (hne : word ≠ "")
    (h : Gives name n s) : Gives name n (word ++ s) := by
  have hempty : Gives name 0 "" := of_unmarked (by decide)
  simpa using hempty.joined word hword hne h

theorem parenthesized (h : Gives name n s) : Gives name n (Text.parenthesized s) := by
  obtain ⟨a, ha, rfl, hgiven⟩ := h
  have hopen := Lexeme.identifier?_map_plain name ['(']
  have hclose := Lexeme.identifier?_map_plain name [')']
  refine ⟨['('].map .plain ++ (a ++ [')'].map .plain), ha.parenthesized, ?_,
    (Lexeme.onlyGiven_of_forall hopen).append
      (hgiven.append (Lexeme.onlyGiven_of_forall hclose))⟩
  simp only [Lexeme.occurrences_append, Lexeme.occurrences_eq_zero hopen,
    Lexeme.occurrences_eq_zero hclose, Nat.zero_add, Nat.add_zero]

theorem ungrouped (h : Gives name n s) : Gives name n (Text.ungrouped s) := by
  unfold Text.ungrouped
  split
  · rename_i henclosed
    obtain ⟨inner, hinner⟩ := exists_of_isEnclosed henclosed
    obtain ⟨lexemes, hlexed, rfl, hgiven⟩ := h
    rw [hinner] at hlexed
    obtain ⟨rest, rfl, hrest⟩ := hlexed.of_cons (by decide)
    obtain ⟨init, rfl, hinit⟩ := hrest.of_append_singleton (by decide)
    refine ⟨init, ?_, ?_, (hgiven.of_cons_plain (by decide)).of_append⟩
    · simpa [hinner] using hinit
    · have hends (c : Char) : Lexeme.occurrences name [.plain c] = 0 :=
        Lexeme.occurrences_eq_zero (Lexeme.identifier?_map_plain name [c])
      rw [← List.singleton_append, Lexeme.occurrences_append, Lexeme.occurrences_append, hends,
        hends, Nat.zero_add, Nat.add_zero]
  · exact h

theorem grouped (h : Gives name n s) : Gives name n (Text.grouped s) := by
  unfold Text.grouped
  split
  · exact h
  · exact h.parenthesized

end Gives

end Text

/-- The statement gives the name so many times, and has it in double quotes nowhere else. -/
def Statement.Gives (name : String) (count : Nat) (tokens : List String) : Prop :=
  Text.Gives name count (text tokens)

/-- The groups of tokens give the name so many times together. -/
inductive Statement.GroupsGive (name : String) : Nat → List (List String) → Prop where
  | nil : GroupsGive name 0 []
  | cons {m n : Nat} {group : List String} {groups : List (List String)}
      (h : Statement.Gives name m group) (hrest : GroupsGive name n groups) :
      GroupsGive name (m + n) (group :: groups)

namespace Statement

variable {name : String} {m n : Nat} {a b : List String} {groups others : List (List String)}

namespace Gives

theorem nil : Gives name 0 [] := Text.Gives.of_unmarked (by decide)

theorem singleton {token : String} (h : Text.Gives name n token) : Gives name n [token] := by
  rw [Gives, text, String.intercalate_singleton]
  exact h

theorem append (ha : Gives name m a) (hb : Gives name n b) : Gives name (m + n) (a ++ b) := by
  by_cases hanil : a = []
  · subst hanil
    have hzero : m = 0 := Text.Gives.eq_zero ha
    rwa [hzero, Nat.zero_add, List.nil_append]
  by_cases hbnil : b = []
  · subst hbnil
    have hzero : n = 0 := Text.Gives.eq_zero hb
    rwa [hzero, List.append_nil]
  rw [Gives, text, String.intercalate_append_of_ne_nil hanil hbnil]
  exact ha.joined " " (by decide) (by decide) hb

theorem cons {token : String} (h : Text.Gives name m token) (hb : Gives name n b) :
    Gives name (m + n) (token :: b) :=
  (singleton h).append hb

/-- Words stand before a statement as they are. -/
theorem append_words (words : List String) (hwords : ∀ word ∈ words, Text.Unmarked word)
    (hb : Gives name n b) : Gives name n (words ++ b) := by
  induction words with
  | nil => exact hb
  | cons word rest ih =>
    rw [List.forall_mem_cons] at hwords
    have hcons := cons (Text.Gives.of_unmarked hwords.1) (ih hwords.2)
    rwa [Nat.zero_add] at hcons

theorem words {words : List String} (hwords : ∀ word ∈ words, Text.Unmarked word) :
    Gives name 0 words := by
  have hall := append_words words hwords (nil : Gives name 0 [])
  rwa [List.append_nil] at hall

theorem nested (ha : Gives name n a) : Text.Gives name n (Statement.nested a) :=
  Text.Gives.parenthesized ha

/-- A declaration gives the name or another one. -/
theorem named (name other : String) :
    Gives name (if other = name then 1 else 0) (Statement.named other) := by
  split
  · rename_i hsame
    subst hsame
    exact Text.Gives.declaration other
  · rename_i hother
    exact append_words ["AS"] (by decide) (singleton (.identifier hother))

theorem named_of_ne {other : String} (h : other ≠ name) : Gives name 0 (Statement.named other) := by
  have hnamed := named name other
  rwa [if_neg h] at hnamed

end Gives

namespace GroupsGive

theorem eq_zero (h : GroupsGive name n []) : n = 0 := by
  cases h
  rfl

theorem append (h : GroupsGive name m groups) (hothers : GroupsGive name n others) :
    GroupsGive name (m + n) (groups ++ others) := by
  induction h with
  | nil =>
    rw [Nat.zero_add]
    exact hothers
  | cons hgroup _ ih =>
    rw [Nat.add_assoc]
    exact .cons hgroup ih

theorem flatten (h : GroupsGive name n groups) : Gives name n groups.flatten := by
  induction h with
  | nil => exact .nil
  | cons hgroup _ ih => exact hgroup.append ih

theorem separated (h : GroupsGive name n groups) (separator : String)
    (hseparator : Text.Unmarked separator) :
    Gives name n (Statement.separated separator groups) := by
  cases h with
  | nil => exact .nil
  | @cons _ _ group groups hgroup hrest =>
    rw [separated_cons]
    refine hgroup.append ?_
    induction hrest with
    | nil => exact .nil
    | cons hnext _ ih =>
      exact (Gives.append_words [separator] (by simpa using hseparator) hnext).append ih

/-- A clause gives what its parts give. -/
theorem clause {keyword separator : String} (hkeyword : Text.Unmarked keyword)
    (hseparator : Text.Unmarked separator) (h : GroupsGive name n groups) :
    Gives name n
      (if groups.isEmpty then [] else keyword :: Statement.separated separator groups) := by
  cases h with
  | nil => exact .nil
  | cons hgroup hrest =>
    exact Gives.append_words [keyword] (by simpa using hkeyword)
      ((cons hgroup hrest).separated separator hseparator)

/-- Pieces of clauses give together what the clauses give one by one. -/
theorem exists_select {pieces : List Piece} (h : GroupsGive name n (pieces.map Piece.tokens)) :
    ∃ count : Clause → Nat,
      (∀ clause, GroupsGive name (count clause) (Piece.select clause pieces)) ∧
      count .projection + count .join + count .existence + count .filter + count .grouping +
        count .having + count .ordering = n := by
  induction pieces generalizing n with
  | nil =>
    cases h
    exact ⟨fun _ => 0, fun _ => .nil, rfl⟩
  | cons piece rest ih =>
    obtain ⟨clause, tokens⟩ := piece
    cases h with
    | @cons m n _ _ hgroup hrest =>
      obtain ⟨count, hcount, hsum⟩ := ih hrest
      refine ⟨fun other => (if clause = other then m else 0) + count other, fun other => ?_, ?_⟩
      · by_cases hclause : clause = other
        · simp only [Piece.select, List.filterMap_cons, hclause, if_true]
          exact .cons hgroup (hcount other)
        · simp only [Piece.select, List.filterMap_cons, hclause, if_false, Nat.zero_add]
          exact hcount other
      · cases clause <;> simp only [reduceCtorEq, if_true, if_false] <;> omega

end GroupsGive

/-- The clauses up to those that order and limit a statement give what the source and their pieces
give. -/
theorem gives_select (distinct : Bool) {source : List String} {pieces : List Piece}
    {count : Clause → Nat} (hsource : Gives name m source)
    (h : ∀ clause, GroupsGive name (count clause) (Piece.select clause pieces)) :
    Gives name (count .projection + m + count .join + (count .existence + count .filter) +
      count .grouping + count .having) (select distinct source pieces) := by
  have hdistinct : Gives name 0 (["SELECT"] ++ if distinct then ["DISTINCT"] else []) := by
    cases distinct <;> exact .words (by decide)
  have hitems : GroupsGive name (count .projection)
      (if (Piece.select .projection pieces).isEmpty then [[starName]]
        else Piece.select .projection pieces) := by
    have hprojection := h .projection
    split
    · rename_i hempty
      rw [List.isEmpty_iff.mp hempty] at hprojection
      rw [hprojection.eq_zero]
      exact .cons (.words (by decide)) .nil
    · exact hprojection
  have hconditions : Gives name (count .existence + count .filter) (conditions "WHERE"
      (Piece.select .existence pieces ++ Piece.select .filter pieces)) :=
    ((h .existence).append (h .filter)).clause (by decide) (by decide)
  have hgroups : Gives name (count .grouping)
      (list "GROUP BY" (Piece.select .grouping pieces)) :=
    (h .grouping).clause (by decide) (by decide)
  have hhaving : Gives name (count .having) (conditions "HAVING" (Piece.select .having pieces)) :=
    (h .having).clause (by decide) (by decide)
  have hfrom : Gives name m (["FROM"] ++ source) := .append_words _ (by decide) hsource
  have hall := (((((hdistinct.append (hitems.separated "," (by decide))).append
    hfrom).append (h .join).flatten).append hconditions).append hgroups).append hhaving
  rw [Nat.zero_add] at hall
  simpa only [select, List.append_assoc] using hall

/-- The clauses that order and limit a statement give what the orderings give. -/
theorem gives_trailing (reversed : Bool) (limit : Option Nat) {pieces : List Piece}
    (h : GroupsGive name n (Piece.select .ordering pieces)) :
    Gives name n (trailing reversed limit pieces) := by
  have hdirection : Gives name 0 (if (Piece.select .ordering pieces).isEmpty then []
      else [if reversed then "DESC" else "ASC"]) := by
    split
    · exact .nil
    · cases reversed <;> exact .words (by decide)
  have horders : Gives name n (list "ORDER BY" (Piece.select .ordering pieces)) :=
    h.clause (by decide) (by decide)
  cases limit with
  | none => exact (horders.append hdirection).append .nil
  | some k =>
    have hlimit : Gives name 0 ["LIMIT", toString k] := by
      refine .words ?_
      rw [List.forall_mem_cons, List.forall_mem_singleton]
      exact ⟨by decide, Text.unmarked_toString k⟩
    exact (horders.append hdirection).append hlimit

/-- A statement gives what its source and its pieces give, in whatever order the clauses stand. -/
theorem gives_select_append_trailing (distinct reversed : Bool) (limit : Option Nat)
    {source : List String} {pieces : List Piece} (hsource : Gives name m source)
    (h : GroupsGive name n (pieces.map Piece.tokens)) :
    Gives name (m + n) (select distinct source pieces ++ trailing reversed limit pieces) := by
  obtain ⟨count, hcount, rfl⟩ := h.exists_select
  have hall := (gives_select distinct hsource hcount).append
    (gives_trailing reversed limit (hcount .ordering))
  convert hall using 1
  omega

end Statement

end SqlTree
