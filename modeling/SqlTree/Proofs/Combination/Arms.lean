import SqlTree.Proofs.Builder.Wrapping
import SqlTree.Proofs.Ordering.Reversal
import SqlTree.Proofs.Reading.Opening
import SqlTree.Proofs.Scoping.Declared
import SqlTree.Proofs.Tree.Parts
import SqlTree.Proofs.Tree.Passes

/-!
# The clauses of arms

The arms of a set operation are written one after the other, and arms that are set operations
themselves are written the same way in their place. A clause that orders or limits the rows stands
behind all arms. Main statement: such clauses are those of the outermost set operation alone, and an
arm at any depth that orders or limits its own rows stands inside one token in parentheses.
-/

namespace SqlTree

/-- The keywords of the clauses that order and limit a statement. -/
def Statement.endings : List String := ["ORDER BY", "LIMIT"]

/-- Names of tables and columns are not among the words. -/
def Demand.namesOutside (words : List String) : Demand where
  query q := ∀ name, q.source.name? = some name → name ∉ words
  entry _ := True
  column c := ∀ name owner, c.base = .named name owner → name ∉ words
  literal _ := True

theorem Text.isUpper_of_isDigit {c : Char} (h : c.isDigit = true) : c.isUpper = false := by
  delta Char.isDigit at h
  delta Char.isUpper
  grind

namespace Statement

/-- A text is no keyword of these clauses if it has a character that is neither an upper-case letter
nor a blank. -/
theorem notMem_endings_of_mem {token : String} {c : Char} (h : c ∈ token.toList)
    (hc : c.isUpper = false ∧ c ≠ ' ') : token ∉ endings := by
  intro hmem
  have hall : ∀ word ∈ endings, ∀ d ∈ word.toList, d.isUpper = true ∨ d = ' ' := by
    simp [endings]
  rcases hall token hmem c h with hupper | hblank
  · rw [hc.1] at hupper
    cases hupper
  · exact hc.2 hblank

theorem notMem_endings_parenthesized (text : String) : Text.parenthesized text ∉ endings :=
  notMem_endings_of_mem (c := '(') (by simp [Text.parenthesized]) (by decide)

theorem notMem_endings_identifier (name : String) : Text.Quoted.identifier name ∉ endings :=
  notMem_endings_of_mem (c := '"') (by simp [Text.Quoted.identifier, Text.Quoted.encode])
    (by decide)

theorem notMem_endings_named (name : String) : ∀ token ∈ named name, token ∉ endings := by
  rw [named, List.forall_mem_cons, List.forall_mem_singleton]
  exact ⟨by decide, notMem_endings_identifier name⟩

/-- A text is no keyword of these clauses if it has no upper-case letter. -/
theorem notMem_endings_of_forall {token : String} (h : ∀ c ∈ token.toList, c.isUpper = false) :
    token ∉ endings := by
  intro hmem
  have hany : ∀ word ∈ endings, ∃ c ∈ word.toList, c.isUpper = true := by simp [endings]
  obtain ⟨c, hc, hupper⟩ := hany token hmem
  rw [h c hc] at hupper
  cases hupper

theorem notMem_endings_grouped (text : String) : Text.grouped text ∉ endings := by
  unfold Text.grouped
  split
  · rename_i henclosed
    refine notMem_endings_of_mem (c := '(') ?_ (by decide)
    unfold Text.isEnclosed at henclosed
    split at henclosed
    · rename_i rest hlist
      rw [hlist]
      exact List.mem_cons_self
    · cases henclosed
  · exact notMem_endings_parenthesized text

theorem notMem_endings_toString (n : Nat) : toString n ∉ endings :=
  notMem_endings_of_forall fun c hc => Text.isUpper_of_isDigit (Text.isDigit_of_mem_toString n c hc)

end Statement

/-- A test for null does not end as these keywords do. -/
theorem NullTest.applied_notMem_endings (text : String) (test : NullTest) :
    NullTest.applied text (some test) ∉ Statement.endings := by
  intro hmem
  have hlast := NullTest.getLast?_applied text test
  have hall : ∀ word ∈ Statement.endings, word.toList.getLast? ≠ some 'L' := by decide
  exact hall _ hmem hlast

theorem Func.applied_notMem_endings (text : String) (f : Func) :
    f.applied text ∉ Statement.endings :=
  Statement.notMem_endings_of_mem (c := '(') (by simp [Func.applied, Text.parenthesized])
    (by decide)

/-- A column by name is a keyword of these clauses only if its name is. -/
theorem Base.nameSql_notMem_endings {name : String} (h : name ∉ Statement.endings)
    (owner : Option Reference) : Base.nameSql name owner ∉ Statement.endings := by
  unfold nameSql
  split
  · exact h
  · split
    · exact Statement.notMem_endings_of_mem (c := '.') (by simp) (by decide)
    · exact h

/-- A column expression is a keyword of these clauses only if it is a column of that name. -/
theorem Column.sql_notMem_endings {c : Column}
    (h : ∀ name owner, c.base = .named name owner → name ∉ Statement.endings) (n : Nat) :
    c.sql n ∉ Statement.endings := by
  obtain ⟨base, functions, nullTest⟩ := c
  simp only [Column.sql, Column.around]
  cases nullTest with
  | some test => exact NullTest.applied_notMem_endings _ test
  | none =>
    rw [NullTest.applied]
    cases hlast : functions.reverse with
    | cons f rest =>
      rw [List.reverse_eq_cons_iff.mp hlast, List.foldl_append]
      exact Func.applied_notMem_endings _ f
    | nil =>
      rw [List.reverse_eq_nil_iff.mp hlast, List.foldl_nil]
      split
      · exact Statement.notMem_endings_parenthesized _
      · rename_i hinfix
        cases base with
        | named name owner =>
          simp only [Base.body]
          exact Base.nameSql_notMem_endings (h name owner rfl) owner
        | binary op left right =>
          have hmod : op = .mod := by
            simpa [Base.isInfix, BinaryOp.isFunction] using hinfix
          subst hmod
          simp only [Base.body]
          exact Statement.notMem_endings_of_mem (c := '(') (by simp [Text.parenthesized])
            (by decide)

namespace Literal

/-- No literal is a keyword of these clauses. -/
theorem text_notMem_endings (v : Literal) : v.text ∉ Statement.endings := by
  cases v with
  | null => decide
  | bool value => cases value <;> decide
  | int n =>
    simp only [text]
    refine Statement.notMem_endings_of_forall ?_
    cases n with
    | ofNat n => exact fun c hc => Text.isUpper_of_isDigit (Text.isDigit_of_mem_toString n c hc)
    | negSucc n =>
      have htext : toString (Int.negSucc n) = "-" ++ toString (n + 1) := rfl
      rw [htext, String.toList_append, List.forall_mem_append]
      exact ⟨by simp, fun c hc => Text.isUpper_of_isDigit (Text.isDigit_of_mem_toString _ c hc)⟩
  | float x =>
    simp only [text, floatText]
    split
    · refine Statement.notMem_endings_of_forall ?_
      rw [String.toList_append, List.forall_mem_append]
      refine ⟨?_, Text.forall_mem_positional (fun _ => Text.isUpper_of_isDigit) (by decide) _⟩
      split <;> simp
    · decide
  | string s | date s | timestamp s =>
    simp only [text]
    exact Statement.notMem_endings_of_mem (c := '\'')
      (by simp [Text.Quoted.string, Text.Quoted.encode]) (by decide)
  | tuple items =>
    simp only [text]
    exact Statement.notMem_endings_of_mem (c := '(') (by simp) (by decide)

end Literal

namespace Statement

/-- What holds of a separator and of the tokens of groups holds of the groups with the separator
between them. -/
theorem forall_mem_separated {p : String → Prop} {separator : String}
    {groups : List (List String)} (hseparator : p separator)
    (hgroups : ∀ group ∈ groups, ∀ token ∈ group, p token) :
    ∀ token ∈ separated separator groups, p token := by
  cases groups with
  | nil => simp [separated]
  | cons group groups =>
    rw [List.forall_mem_cons] at hgroups
    rw [separated_cons, List.forall_mem_append]
    refine ⟨hgroups.1, fun token htoken => ?_⟩
    simp only [List.mem_flatten, List.mem_map] at htoken
    obtain ⟨_, ⟨group', hgroup', rfl⟩, htoken⟩ := htoken
    rcases List.mem_cons.mp htoken with rfl | htoken
    · exact hseparator
    · exact hgroups.2 group' hgroup' token htoken

/-- What holds of the keywords of a statement, of the tokens of its source and of those of its
pieces holds of its tokens up to the clauses that order and limit it. -/
theorem forall_mem_select {p : String → Prop} {distinct : Bool} {source : List String}
    {pieces : List Piece}
    (hwords : ∀ word ∈ ["SELECT", "DISTINCT", starName, "FROM", "WHERE", "GROUP BY", "HAVING"],
      p word)
    (hseparators : p "," ∧ p "AND") (hsource : ∀ token ∈ source, p token)
    (hpieces : ∀ piece ∈ pieces, ∀ token ∈ piece.tokens, p token) :
    ∀ token ∈ select distinct source pieces, p token := by
  have hselect (clause : Clause) :
      ∀ group ∈ Piece.select clause pieces, ∀ token ∈ group, p token := by
    intro group hgroup
    obtain ⟨piece, hpiece, _, rfl⟩ := Piece.mem_select_iff.mp hgroup
    exact hpieces piece hpiece
  have hlist {keyword separator : String} {groups : List (List String)} (hkeyword : p keyword)
      (hseparator : p separator) (hgroups : ∀ group ∈ groups, ∀ token ∈ group, p token) :
      ∀ token ∈ (if groups.isEmpty then [] else keyword :: separated separator groups),
        p token := by
    split
    · exact List.forall_mem_nil _
    · rw [List.forall_mem_cons]
      exact ⟨hkeyword, forall_mem_separated hseparator hgroups⟩
  simp only [List.forall_mem_cons] at hwords
  obtain ⟨hSelect, hDistinct, hStar, hFrom, hWhere, hGroupBy, hHaving, _⟩ := hwords
  simp only [select, List.forall_mem_append, List.forall_mem_singleton]
  refine ⟨⟨⟨⟨⟨⟨⟨⟨hSelect, ?_⟩, ?_⟩, hFrom⟩, hsource⟩, ?_⟩, ?_⟩, ?_⟩, ?_⟩
  · split
    · rwa [List.forall_mem_singleton]
    · exact List.forall_mem_nil _
  · refine forall_mem_separated hseparators.1 ?_
    split
    · rwa [List.forall_mem_singleton, List.forall_mem_singleton]
    · exact hselect .projection
  · intro token htoken
    obtain ⟨group, hgroup, htoken⟩ := List.mem_flatten.mp htoken
    exact hselect .join group hgroup token htoken
  · refine hlist hWhere hseparators.2 ?_
    rw [List.forall_mem_append]
    exact ⟨hselect .existence, hselect .filter⟩
  · exact hlist hGroupBy hseparators.1 (hselect .grouping)
  · exact hlist hHaving hseparators.2 (hselect .having)

end Statement

/-- What is written in a clause is no keyword of those that order and limit a statement if no name
is. -/
theorem Column.sql_notMem_of_meets {c : Column} (h : c.Meets (.namesOutside Statement.endings))
    (n : Nat) : c.sql n ∉ Statement.endings :=
  sql_notMem_endings (Column.meets_iff.mp h).1 n

theorem Operand.sql_notMem_of_meets {side : Operand}
    (h : side.Meets (.namesOutside Statement.endings)) (n : Nat) :
    side.sql n ∉ Statement.endings := by
  cases side with
  | column c =>
    simp only [Operand.sql]
    exact Column.sql_notMem_of_meets h n
  | literal v =>
    simp only [Operand.sql]
    exact v.text_notMem_endings
  | query q =>
    simp only [Operand.sql]
    exact Statement.notMem_endings_parenthesized _

theorem Projection.tokens_notMem_of_meets {items : List Projection}
    (h : Projection.AllMeet (.namesOutside Statement.endings) items) (n : Nat) :
    ∀ piece ∈ Projection.pieces n items, ∀ token ∈ piece.tokens, token ∉ Statement.endings := by
  induction items generalizing n with
  | nil => simp [Projection.pieces]
  | cons item rest ih =>
    obtain ⟨expr, aliasName⟩ := item
    simp only [Projection.AllMeet, Projection.Meets] at h
    simp only [Projection.pieces, Projection.piece, List.forall_mem_cons]
    refine ⟨⟨Operand.sql_notMem_of_meets h.1 n, ?_⟩, ih h.2 _⟩
    cases aliasName with
    | none => exact List.forall_mem_nil _
    | some given => exact Statement.notMem_endings_named given

/-- The tokens that declare a table or a derived table. -/
theorem Source.tokens_notMem_of_name {source : Source} (hsource : source.isCombined = false)
    (hname : ∀ name, source.name? = some name → name ∉ Statement.endings)
    (aliasName : Option String) (n : Nat) :
    ∀ token ∈ source.tokens n aliasName, token ∉ Statement.endings := by
  cases source with
  | named name =>
    simp only [Source.tokens, List.forall_mem_cons]
    refine ⟨hname name rfl, ?_⟩
    cases aliasName with
    | none => exact List.forall_mem_nil _
    | some given => exact Statement.notMem_endings_named given
  | derived q =>
    cases aliasName <;> rw [Source.tokens, List.forall_mem_cons] <;>
      exact ⟨Statement.notMem_endings_parenthesized _, Statement.notMem_endings_named _⟩
  | combined op left right => cases hsource

theorem Query.targetTokens_notMem_of_meets {target : Query}
    (h : target.Meets (.namesOutside Statement.endings)) (n : Nat) :
    ∀ token ∈ target.targetTokens n, token ∉ Statement.endings := by
  unfold targetTokens
  split
  · rename_i honly
    rw [sourceTokens_eq]
    exact Source.tokens_notMem_of_name (isCombined_of_onlyProjects honly) (meets_iff.mp h).1 _ _
  · rw [nestedTarget, List.forall_mem_cons]
    exact ⟨Statement.notMem_endings_parenthesized _, Statement.notMem_endings_named _⟩

theorem Entry.tokens_notMem_of_meets {entry : Entry}
    (h : entry.Meets (.namesOutside Statement.endings)) (n : Nat) :
    ∀ piece ∈ entry.piece n, ∀ token ∈ piece.tokens, token ∉ Statement.endings := by
  have hparts := h.2
  cases entry with
  | select items =>
    rw [Entry.piece]
    exact Projection.tokens_notMem_of_meets hparts n
  | filter cond | having cond =>
    rw [Entry.piece, List.forall_mem_singleton, List.forall_mem_singleton]
    exact Statement.notMem_endings_grouped _
  | whereExists sub =>
    rw [Entry.piece, List.forall_mem_singleton, List.forall_mem_singleton]
    exact Statement.notMem_endings_parenthesized _
  | group c | order c =>
    rw [Entry.piece, List.forall_mem_singleton, List.forall_mem_singleton]
    exact Column.sql_notMem_of_meets hparts n
  | join target =>
    rw [Entry.piece, List.forall_mem_singleton, List.forall_mem_cons]
    exact ⟨by decide, Query.targetTokens_notMem_of_meets hparts n⟩
  | joinOn target cond =>
    simp only [Entry.PartsMeet] at hparts
    simp only [Entry.piece, List.forall_mem_singleton, List.cons_append, List.forall_mem_cons,
      List.forall_mem_append]
    exact ⟨by decide, Query.targetTokens_notMem_of_meets hparts.1 n, by decide,
      Column.sql_notMem_of_meets hparts.2 _⟩

namespace Query

theorem pieces_notMem_of_meets {q : Query} (h : q.Meets (.namesOutside Statement.endings))
    (n : Nat) : ∀ piece ∈ q.pieces n, ∀ token ∈ piece.tokens, token ∉ Statement.endings := by
  intro piece hpiece
  obtain ⟨before, entry, after, hlog, hmem⟩ := Entry.mem_pieces_iff.mp hpiece
  refine Entry.tokens_notMem_of_meets ((meets_iff.mp h).2.2 entry ?_) _ piece hmem
  rw [hlog]
  exact List.mem_append_right _ List.mem_cons_self

end Query

/-- The clauses that order and limit a statement have one keyword each. -/
theorem Statement.count_trailing (reversed : Bool) (limit : Option Nat) {pieces : List Piece}
    (h : ∀ group ∈ Piece.select .ordering pieces, ∀ token ∈ group, token ∉ endings) :
    (trailing reversed limit pieces).count "ORDER BY" =
        (!(Piece.select .ordering pieces).isEmpty).toNat ∧
      (trailing reversed limit pieces).count "LIMIT" = limit.isSome.toNat := by
  have habsent {tokens : List String} (htokens : ∀ token ∈ tokens, token ∉ endings) :
      tokens.count "ORDER BY" = 0 ∧ tokens.count "LIMIT" = 0 :=
    ⟨List.count_eq_zero.mpr fun hmem => htokens _ hmem (by decide),
      List.count_eq_zero.mpr fun hmem => htokens _ hmem (by decide)⟩
  have hdirection : ∀ token ∈ [if reversed then "DESC" else "ASC"], token ∉ endings := by
    rw [List.forall_mem_singleton]
    split <;> decide
  have hcomma : "," ∉ endings := by decide
  have hkeys := habsent (forall_mem_separated hcomma h)
  obtain ⟨cut, htrailing, hcut⟩ : ∃ cut : List String, trailing reversed limit pieces =
      list "ORDER BY" (Piece.select .ordering pieces) ++
        (if (Piece.select .ordering pieces).isEmpty then []
          else [if reversed then "DESC" else "ASC"]) ++ cut ∧
      cut.count "ORDER BY" = 0 ∧ cut.count "LIMIT" = limit.isSome.toNat := by
    cases limit with
    | none => exact ⟨[], rfl, rfl, rfl⟩
    | some k =>
      have hnumber := habsent (List.forall_mem_singleton.mpr (notMem_endings_toString k))
      refine ⟨["LIMIT"] ++ [toString k], rfl, ?_⟩
      rw [List.count_append, List.count_append, hnumber.1, hnumber.2]
      exact ⟨rfl, rfl⟩
  rw [htrailing]
  simp only [list, List.count_append, hcut.1, hcut.2]
  cases (Piece.select .ordering pieces).isEmpty with
  | true => exact ⟨rfl, Nat.zero_add _⟩
  | false =>
    simp [(habsent hdirection).1, (habsent hdirection).2, hkeys.1, hkeys.2]

namespace Query

/-- What a query contributes to its ordering are single texts, which are none if no entry of its
log orders. -/
theorem exists_select_ordering (n : Nat) (q : Query) :
    ∃ texts : List String, Piece.select .ordering (q.pieces n) = texts.map ([·]) ∧
      texts.isEmpty = !q.has .order := by
  obtain ⟨texts, hselect, hlength⟩ : ∃ texts : List String,
      Piece.select .ordering (q.pieces n) = texts.map ([·]) ∧
        texts.length = (Entry.ofKind .order q.log).length := Entry.exists_select_ordering _ _
  have hnone : texts = [] ↔ q.has .order = false := by
    rw [← List.length_eq_zero_iff, hlength, List.length_eq_zero_iff, Entry.ofKind,
      List.filter_eq_nil_iff, has, List.any_eq_false]
  refine ⟨texts, hselect, ?_⟩
  rw [Bool.eq_iff_iff, List.isEmpty_iff, hnone, Bool.not_eq_true']

/-- A query that neither orders nor limits its rows has no clauses for it. -/
theorem tokens_eq_leading_of_not_cutsRows {q : Query} (h : q.cutsRows = false) (n : Nat) :
    q.tokens n = q.leading n := by
  simp only [cutsRows, Bool.or_eq_false_iff, Option.isSome_eq_false_iff, Option.isNone_iff_eq_none]
    at h
  have horders : Piece.select .ordering (q.pieces n) = [] := by
    obtain ⟨texts, hselect, hempty⟩ := q.exists_select_ordering n
    rw [h.2, Bool.not_false, List.isEmpty_iff] at hempty
    rw [hselect, hempty, List.map_nil]
  rw [tokens_eq_leading]
  simp only [Statement.trailing, horders, h.1, Statement.list]
  exact List.append_nil _

/-- What stands for an arm whose tokens name derived tables from `n` on. -/
def asArm (n : Nat) (arm : Query) : List String :=
  arm.armTokens n (arm.tokens (n + arm.cutsRows.toNat))

variable {q arm : Query}

theorem asArm_eq_tokens (h : arm.cutsRows = false) (m : Nat) : arm.asArm m = arm.tokens m := by
  rw [asArm, armTokens_of_not_cutsRows h, h]
  rfl

/-- The statement of an arm is a single token if the arm orders or limits its rows. -/
theorem asArm_eq_nested (h : arm.cutsRows = true) (m : Nat) :
    arm.asArm m = ["SELECT", starName, "FROM"] ++
      Statement.nested (arm.tokens (m + 1)) :: Statement.named (derivedName m) := by
  simp [asArm, armTokens, h]

theorem leading_of_combined {op : SetOp} {left right : Query}
    (h : q.source = .combined op left right) (n : Nat) :
    q.leading n = left.asArm (n + Entry.nameCounts q.log) ++
      ([op.name] ++ right.asArm
        (n + Entry.nameCounts q.log + (left.cutsRows.toNat + left.nameCount))) := by
  have hcombined : q.source.isCombined = true := by rw [h]; rfl
  rw [leading, if_pos hcombined, h]
  simp only [Source.tokens, asArm, List.append_assoc]

/-- Up to the clauses that order and limit it, a statement has no keyword of such clauses, whatever
its arms are. -/
theorem leading_notMem_of_meets (q : Query) (h : q.Meets (.namesOutside Statement.endings))
    (n : Nat) : ∀ token ∈ q.leading n, token ∉ Statement.endings := by
  -- only an arm that is written as it is brings in the clauses of another query
  induction q using inductionOnQueries generalizing n with
  | step q ih =>
  have harm (arm : Query) (hmem : arm ∈ q.source.queries) (m : Nat) :
      ∀ token ∈ arm.asArm m, token ∉ Statement.endings := by
    obtain ⟨_, hsource, _⟩ := meets_iff.mp h
    cases hcuts : arm.cutsRows with
    | true =>
      simp only [asArm_eq_nested hcuts, List.forall_mem_append, List.forall_mem_cons]
      exact ⟨⟨by decide, by decide, by decide, List.forall_mem_nil _⟩,
        Statement.notMem_endings_parenthesized _, Statement.notMem_endings_named _⟩
    | false =>
      rw [asArm_eq_tokens hcuts, tokens_eq_leading_of_not_cutsRows hcuts]
      exact ih arm (mem_queries_of_mem_source hmem) (Source.meets_of_mem_queries hsource hmem) m
  cases hq : q.source with
  | combined op left right =>
    rw [hq] at harm
    rw [leading_of_combined hq, List.forall_mem_append, List.forall_mem_append,
      List.forall_mem_singleton]
    refine ⟨harm left (by simp [Source.queries]) _, ?_, harm right (by simp [Source.queries]) _⟩
    cases op <;> decide
  | _ =>
    have hcombined : q.source.isCombined = false := by rw [hq]; rfl
    rw [leading, hcombined, if_neg Bool.false_ne_true]
    exact Statement.forall_mem_select (by decide) (by decide)
      (Source.tokens_notMem_of_name hcombined (meets_iff.mp h).1 _ _)
      (q.pieces_notMem_of_meets h n)

end Query

/-- The text stands somewhere in the whole. -/
def Text.Within (part whole : String) : Prop := part.toList <:+: whole.toList

namespace Text.Within

theorem refl (text : String) : Within text text := List.infix_rfl

theorem trans {part middle whole : String} (h : Within part middle) (h' : Within middle whole) :
    Within part whole :=
  List.IsInfix.trans h h'

theorem append_left (part rest : String) : Within part (part ++ rest) := by
  rw [Within, String.toList_append]
  exact (List.prefix_append _ _).isInfix

theorem append_right (rest part : String) : Within part (rest ++ part) := by
  rw [Within, String.toList_append]
  exact (List.suffix_append _ _).isInfix

theorem parenthesized (text : String) : Within text (Text.parenthesized text) :=
  (append_right "(" text).trans (append_left _ ")")

end Text.Within

namespace Statement

/-- Some tokens in a row of a statement stand in its text. -/
theorem text_within {tokens tokens' : List String} (h : tokens <:+: tokens') :
    Text.Within (text tokens) (text tokens') := by
  have hboth (a b : List String) :
      Text.Within (text a) (text (a ++ b)) ∧ Text.Within (text b) (text (a ++ b)) := by
    by_cases ha : a = []
    · rw [ha]
      exact ⟨List.nil_infix, .refl _⟩
    by_cases hb : b = []
    · rw [hb, List.append_nil]
      exact ⟨.refl _, List.nil_infix⟩
    have happend : text (a ++ b) = text a ++ " " ++ text b :=
      String.intercalate_append_of_ne_nil ha hb
    rw [happend]
    exact ⟨(Text.Within.append_left _ _).trans (.append_left _ _), .append_right _ _⟩
  obtain ⟨before, after, rfl⟩ := h
  exact (hboth before tokens).2.trans (hboth (before ++ tokens) after).1

theorem text_within_of_mem {token : String} {tokens : List String} (h : token ∈ tokens) :
    Text.Within token (text tokens) := by
  have hsingle : text [token] = token := String.intercalate_singleton
  rw [← hsingle]
  obtain ⟨before, after, rfl⟩ := List.append_of_mem h
  exact text_within ⟨before, after, by simp⟩

end Statement

namespace Query

/-- The arms of a set operation that is numbered from `n`, at any depth, each with the number that
it is itself numbered from. -/
inductive HasArm : Nat → Query → Nat → Query → Prop where
  | left {n : Nat} {q left right : Query} {op : SetOp} (h : q.source = .combined op left right) :
      HasArm n q (n + Entry.nameCounts q.log) left
  | right {n : Nat} {q left right : Query} {op : SetOp} (h : q.source = .combined op left right) :
      HasArm n q (n + Entry.nameCounts q.log + (left.cutsRows.toNat + left.nameCount)) right
  | deeper {n m k : Nat} {q arm inner : Query} (h : HasArm n q m arm)
      (hinner : HasArm (m + arm.cutsRows.toNat) arm k inner) : HasArm n q k inner

/-- The statement of an arm is inside one token in parentheses of the statement that the arm belongs
to: it is that token, or the token is the statement of an arm around it. -/
def IsEnclosed (n : Nat) (q : Query) (k : Nat) (inner : Query) : Prop :=
  ∃ m arm, HasArm n q m arm ∧ arm.cutsRows = true ∧
    Statement.nested (arm.tokens (m + 1)) :: Statement.named (derivedName m) <:+: q.leading n ∧
    (m = k ∧ arm = inner ∨ HasArm (m + 1) arm k inner) ∧
    Text.Within (Statement.nested (inner.tokens (k + 1))) (Statement.nested (arm.tokens (m + 1)))

variable {n m k : Nat} {q arm inner : Query}

theorem leading_infix_tokens (q : Query) (n : Nat) : q.leading n <:+: q.tokens n := by
  rw [tokens_eq_leading]
  exact (List.prefix_append _ _).isInfix

/-- The statement of an arm stands within what stands for the arm. -/
theorem text_tokens_within_asArm (arm : Query) (m : Nat) :
    Text.Within (Statement.text (arm.tokens (m + arm.cutsRows.toNat)))
      (Statement.text (arm.asArm m)) := by
  cases hcuts : arm.cutsRows with
  | false =>
    rw [asArm_eq_tokens hcuts]
    exact .refl _
  | true =>
    refine (Text.Within.parenthesized _).trans (Statement.text_within_of_mem ?_)
    simp [asArm_eq_nested hcuts, Statement.nested]

namespace HasArm

/-- Whatever the depth, what stands for an arm stands within the statement. -/
theorem text_within (h : HasArm n q k inner) :
    Text.Within (Statement.text (inner.asArm k)) (Statement.text (q.tokens n)) := by
  induction h with
  | left h =>
    refine Statement.text_within (.trans ?_ (leading_infix_tokens _ _))
    rw [leading_of_combined h]
    exact (List.prefix_append _ _).isInfix
  | right h =>
    refine Statement.text_within (.trans ?_ (leading_infix_tokens _ _))
    rw [leading_of_combined h, ← List.append_assoc]
    exact (List.suffix_append _ _).isInfix
  | deeper _ _ ih ihinner => exact ihinner.trans ((text_tokens_within_asArm _ _).trans ih)

/-- The tokens that stand for an arm are tokens of the whole, or they are inside an arm around it
that is a single token. -/
theorem asArm_infix (h : HasArm n q k inner) :
    inner.asArm k <:+: q.leading n ∨ ∃ m arm, HasArm n q m arm ∧ arm.cutsRows = true ∧
      arm.asArm m <:+: q.leading n ∧ HasArm (m + 1) arm k inner := by
  induction h with
  | left h =>
    left
    rw [leading_of_combined h]
    exact (List.prefix_append _ _).isInfix
  | right h =>
    left
    rw [leading_of_combined h, ← List.append_assoc]
    exact (List.suffix_append _ _).isInfix
  | @deeper n m k q arm inner h hinner ih ihinner =>
    rcases ih with harm | ⟨m', outer, houter, hcuts, hplace, hbelow⟩
    · cases hcuts : arm.cutsRows with
      | true =>
        rw [hcuts] at hinner
        exact Or.inr ⟨m, arm, h, hcuts, harm, hinner⟩
      | false =>
        rw [asArm_eq_tokens hcuts, tokens_eq_leading_of_not_cutsRows hcuts] at harm
        rw [hcuts] at ihinner
        rcases ihinner with hplace | ⟨m', below, hbelow, hcutsBelow, hplace, hinner⟩
        · exact Or.inl (hplace.trans harm)
        · refine Or.inr ⟨m', below, h.deeper ?_, hcutsBelow, hplace.trans harm, hinner⟩
          rwa [hcuts]
    · exact Or.inr ⟨m', outer, houter, hcuts, hplace, hbelow.deeper hinner⟩

/-- An arm that orders or limits its rows is inside a single token of the statement. -/
theorem isEnclosed (h : HasArm n q k inner) (hcuts : inner.cutsRows = true) :
    IsEnclosed n q k inner := by
  have hplaced {arm : Query} {m : Nat} (hcuts : arm.cutsRows = true) :
      Statement.nested (arm.tokens (m + 1)) :: Statement.named (derivedName m) <:+:
        arm.asArm m := by
    rw [asArm_eq_nested hcuts]
    exact (List.suffix_append _ _).isInfix
  rcases h.asArm_infix with hplace | ⟨m, arm, harm, hcutsArm, hplace, hinner⟩
  · exact ⟨k, inner, h, hcuts, (hplaced hcuts).trans hplace, Or.inl ⟨rfl, rfl⟩, .refl _⟩
  · refine ⟨m, arm, harm, hcutsArm, (hplaced hcutsArm).trans hplace, Or.inr hinner, ?_⟩
    have htoken : Statement.nested (inner.tokens (k + 1)) ∈ inner.asArm k := by
      simp [asArm_eq_nested hcuts]
    exact (Statement.text_within_of_mem htoken).trans
      (hinner.text_within.trans (Text.Within.parenthesized _))

end HasArm

/-- The clauses that order and limit a set operation, numbered from `n`, are its own: they stand
behind all arms, and the arms have such clauses inside single tokens only. -/
structure EndsItself (n : Nat) (q : Query) : Prop where
  tokens : q.tokens n =
    q.leading n ++ Statement.trailing q.reversed q.limit (Entry.pieces n q.log)
  leading : ∀ token ∈ q.leading n, token ∉ Statement.endings
  ordering : (q.tokens n).count "ORDER BY" = (q.has .order).toNat
  limit : (q.tokens n).count "LIMIT" = q.limit.isSome.toNat
  arms : ∀ k inner, HasArm n q k inner → inner.cutsRows = true → IsEnclosed n q k inner

/-- Ordering and limiting a statement takes one keyword for each. -/
theorem count_endings (h : q.Meets (.namesOutside Statement.endings)) (n : Nat) :
    (q.tokens n).count "ORDER BY" = (q.has .order).toNat ∧
      (q.tokens n).count "LIMIT" = q.limit.isSome.toNat := by
  obtain ⟨texts, hselect, hempty⟩ := q.exists_select_ordering n
  have hpieces : ∀ group ∈ Piece.select .ordering (q.pieces n), ∀ token ∈ group,
      token ∉ Statement.endings := by
    intro group hgroup
    obtain ⟨piece, hpiece, _, rfl⟩ := Piece.mem_select_iff.mp hgroup
    exact q.pieces_notMem_of_meets h n piece hpiece
  have hleading (word : String) (hword : word ∈ Statement.endings) :
      (q.leading n).count word = 0 :=
    List.count_eq_zero.mpr fun hmem => q.leading_notMem_of_meets h n word hmem hword
  have htrailing := Statement.count_trailing q.reversed q.limit hpieces
  rw [hselect, List.isEmpty_map, hempty, Bool.not_not] at htrailing
  rw [tokens_eq_leading, List.count_append, List.count_append, hleading _ (by decide),
    hleading _ (by decide), Nat.zero_add, Nat.zero_add]
  exact htrailing

/-- The clauses that order and limit the arms of a set operation never bind to the whole: if no
name is one of their keywords, the clauses of the whole are its own. -/
theorem endsItself_of_compile_eq_ok {sql : String} (hcombined : q.source.isCombined = true)
    (hnames : q.Meets (.namesOutside Statement.endings)) (hsql : q.compile = .ok sql) :
    sql = Statement.text (q.tokens 0) ++ ";" ∧ ∀ n, q.EndsItself n := by
  have hmembership : q.membership? = none := by
    rw [membership?, if_pos hcombined]
  have hcompile : q.compile = (q.membership?.getD q).write := write_membership?_projected q
  rw [hcompile, hmembership, Option.getD_none, write_eq_ok_iff] at hsql
  refine ⟨hsql.2, fun n => ⟨?_, q.leading_notMem_of_meets hnames n, (count_endings hnames n).1,
    (count_endings hnames n).2, fun k inner hinner hcuts => hinner.isEnclosed hcuts⟩⟩
  rw [tokens_eq_leading, pieces, if_pos hcombined]

/-- The first rows of a table, combined with a difference one side of which is ordered. -/
def combinedCuts : Query :=
  { combine .union { ofTable "t1" with limit := some 5 }
      (combine .except ((ofTable "t2").push (.order ((ofTable "t2").column "a"))) (ofTable "t3"))
    with limit := some 3 }

/-- Of three clauses that limit and order, the one of the whole is the last one, and the others are
each inside a token. -/
theorem endsItself_combinedCuts :
    combinedCuts.source.isCombined = true ∧ combinedCuts.Meets (.namesOutside Statement.endings) ∧
      combinedCuts.compile = .ok ("SELECT * FROM (SELECT * FROM t1 LIMIT 5) AS \"sq1\" UNION " ++
        "SELECT * FROM (SELECT * FROM t2 ORDER BY t2.a ASC) AS \"sq2\" EXCEPT " ++
        "SELECT * FROM t3 LIMIT 3;") ∧
      combinedCuts.EndsItself 0 := by
  have htable (name : String) (hname : name ∉ Statement.endings) (limit : Option Nat) :
      ({ ofTable name with limit := limit } : Query).Meets (.namesOutside Statement.endings) := by
    refine meets_iff.mpr ⟨fun given hgiven => ?_, trivial, List.forall_mem_nil _⟩
    obtain rfl := Option.some.inj hgiven
    exact hname
  have hkey : ((ofTable "t2").column "a").Meets (.namesOutside Statement.endings) := by
    refine Column.meets_iff.mpr ⟨fun name owner hbase => ?_, trivial⟩
    obtain ⟨rfl, _⟩ := Base.named.inj hbase
    decide
  have hordered : ((ofTable "t2").push (.order ((ofTable "t2").column "a"))).Meets
      (.namesOutside Statement.endings) := by
    obtain ⟨hquery, hsource, _⟩ := meets_iff.mp (htable "t2" (by decide) none)
    exact meets_iff.mpr ⟨hquery, hsource, List.forall_mem_singleton.mpr ⟨trivial, hkey⟩⟩
  have hmeets : combinedCuts.Meets (.namesOutside Statement.endings) := by
    refine meets_iff.mpr ⟨nofun, ⟨htable "t1" (by decide) (some 5), ?_⟩, List.forall_mem_nil _⟩
    exact meets_iff.mpr ⟨nofun, ⟨hordered, htable "t3" (by decide) none⟩, List.forall_mem_nil _⟩
  have hcompile : combinedCuts.compile =
      .ok ("SELECT * FROM (SELECT * FROM t1 LIMIT 5) AS \"sq1\" UNION " ++
        "SELECT * FROM (SELECT * FROM t2 ORDER BY t2.a ASC) AS \"sq2\" EXCEPT " ++
        "SELECT * FROM t3 LIMIT 3;") := by decide +kernel
  exact ⟨rfl, hmeets, hcompile, (endsItself_of_compile_eq_ok rfl hmeets hcompile).2 0⟩

end Query

end SqlTree
