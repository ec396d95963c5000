import SqlTree.Proofs.Clauses.Pieces
import SqlTree.Proofs.Lexical.Alike
import SqlTree.Proofs.Writing.Renumbered
import Mathlib.Algebra.Ring.Nat

/-!
# The width of statements

The width of a statement is the number of its blanks: those between its tokens and those inside
them. Parentheses and the numbers of derived tables have none. Main statement: two queries that
differ in their projections, existence tests and filters alone differ in width by what these
contribute.
-/

namespace SqlTree

/-- The number of blanks in a text. -/
def Text.blanks (text : String) : Nat := text.toList.count ' '

/-- The texts have as many blanks as each other. -/
def Text.SameBlanks (a b : String) : Prop := Text.blanks a = Text.blanks b

/-- The number of blanks in a statement, one counted behind each token. -/
def Statement.width (tokens : List String) : Nat :=
  (tokens.map fun token => Text.blanks token + 1).sum

/-- The width of parts with a separator behind each. -/
def Statement.joinedWidth (widths : List Nat) : Nat := (widths.map (· + 1)).sum

/-- The width of a clause that lists its parts. -/
def Statement.listWidth (keyword : String) (widths : List Nat) : Nat :=
  if widths.isEmpty then 0 else Text.blanks keyword + Statement.joinedWidth widths

namespace Text

@[simp] theorem blanks_append (a b : String) : blanks (a ++ b) = blanks a + blanks b := by
  simp [blanks]

@[simp] theorem blanks_parenthesized (a : String) : blanks (parenthesized a) = blanks a := by
  have hopen : blanks "(" = 0 := by decide
  have hclose : blanks ")" = 0 := by decide
  simp [parenthesized, hopen, hclose]

@[simp] theorem blanks_grouped (a : String) : blanks (grouped a) = blanks a := by
  unfold grouped
  split
  · rfl
  · exact blanks_parenthesized a

/-- A pair of parentheses that is put around a text and may be taken away again. -/
theorem blanks_ungrouped_parenthesized (a : String) :
    blanks (ungrouped (parenthesized a)) = blanks a := by
  by_cases h : isEnclosed (parenthesized a) = true
  · rw [ungrouped_parenthesized h]
  · rw [ungrouped, if_neg h, blanks_parenthesized]

/-- Quotes are no blanks. -/
theorem blanks_identifier (name : String) : blanks (Quoted.identifier name) = blanks name := by
  have hdouble (text : List Char) : (Quoted.double '"' text).count ' ' = text.count ' ' := by
    induction text with
    | nil => rfl
    | cons c rest ih =>
      by_cases hc : c = '"'
      · subst hc
        simp [Quoted.double_cons_self, ih]
      · simp [Quoted.double_cons_of_ne hc, List.count_cons, ih]
  simp [blanks, Quoted.identifier, Quoted.encode, hdouble]

/-- The name of a derived table is a single word. -/
theorem blanks_derivedName (n : Nat) : blanks (derivedName n) = 0 := by
  have hdigits : ' ' ∉ (toString (n + 1)).toList := by
    intro h
    have hmem : ' ' ∈ Nat.toDigits 10 (n + 1) := by simpa using h
    exact absurd (Nat.isDigit_of_mem_toDigits (by decide) (by decide) hmem) (by decide)
  have hword : blanks "sq" = 0 := by decide
  rw [derivedName, blanks_append, hword, blanks, List.count_eq_zero_of_not_mem hdigits]

/-- Writing keeps the number of blanks, from whatever number derived tables are counted. -/
theorem SameBlanks.renumbering : Renumbering SameBlanks where
  unmarked _ := rfl
  joined separator _ _ ha hb := by
    simp only [SameBlanks] at ha hb ⊢
    simp [ha, hb]
  parenthesized ha := by
    simp only [SameBlanks] at ha ⊢
    simp [ha]
  grouped ha := by
    simp only [SameBlanks] at ha ⊢
    simp [ha]
  regrouped ha := by
    simp only [SameBlanks] at ha ⊢
    simp [blanks_ungrouped_parenthesized, ha]
  refl _ := rfl
  ofDerivedName n m := by
    simp [SameBlanks, blanks_identifier, blanks_derivedName]

end Text

namespace Statement

@[simp] theorem width_nil : width [] = 0 := rfl

@[simp] theorem width_cons (token : String) (rest : List String) :
    width (token :: rest) = Text.blanks token + 1 + width rest := rfl

@[simp] theorem width_append (a b : List String) : width (a ++ b) = width a + width b := by
  simp [width]

@[simp] theorem width_flatten (groups : List (List String)) :
    width groups.flatten = (groups.map width).sum := by
  induction groups with
  | nil => rfl
  | cons group rest ih => simp [ih]

@[simp] theorem joinedWidth_append (a b : List Nat) :
    joinedWidth (a ++ b) = joinedWidth a + joinedWidth b := by
  simp [joinedWidth]

@[simp] theorem joinedWidth_nil : joinedWidth [] = 0 := rfl

@[simp] theorem joinedWidth_singleton (width : Nat) : joinedWidth [width] = width + 1 := rfl

/-- Tokens with as many blanks as each other are as wide as each other. -/
theorem width_eq_of_related {a b : List String} (h : Related Text.SameBlanks a b) :
    width a = width b := by
  induction h with
  | nil => rfl
  | cons hab _ ih => rw [width_cons, width_cons, hab, ih]

/-- A statement has one blank less than it has behind and inside its tokens. -/
theorem blanks_text {tokens : List String} (h : tokens ≠ []) :
    Text.blanks (text tokens) + 1 = width tokens := by
  have hblank : Text.blanks " " = 1 := by decide
  induction tokens with
  | nil => exact absurd rfl h
  | cons token rest ih =>
    cases rest with
    | nil => simp [text]
    | cons next rest =>
      have hrest := ih (List.cons_ne_nil next rest)
      rw [text, String.intercalate_cons_cons, ← text, Text.blanks_append, Text.blanks_append,
        hblank, width_cons]
      omega

theorem width_separated (separator : String) (hseparator : Text.blanks separator = 0)
    {groups : List (List String)} (h : groups ≠ []) :
    width (separated separator groups) + 1 = joinedWidth (groups.map width) := by
  induction groups with
  | nil => exact absurd rfl h
  | cons group rest ih =>
    cases rest with
    | nil => simp [separated, joinedWidth]
    | cons next rest =>
      have hrest := ih (List.cons_ne_nil next rest)
      rw [separated, List.intercalate_cons_cons, ← separated, width_append, width_append,
        width_cons, hseparator, width_nil]
      simp only [joinedWidth, List.map_cons, List.sum_cons] at hrest ⊢
      omega

/-- The keyword is followed by a separator before each part but the first. -/
theorem width_conditions (keyword : String) (hkeyword : Text.blanks keyword = 0)
    (groups : List (List String)) :
    width (conditions keyword groups) = joinedWidth (groups.map width) := by
  cases groups with
  | nil => rfl
  | cons group rest =>
    have hparts := width_separated "AND" (by decide) (List.cons_ne_nil group rest)
    simp only [conditions, List.isEmpty_cons, Bool.false_eq_true, if_false, width_cons, hkeyword]
    omega

theorem width_list (keyword : String) (groups : List (List String)) :
    width (list keyword groups) = listWidth keyword (groups.map width) := by
  cases groups with
  | nil => rfl
  | cons group rest =>
    have hparts := width_separated "," (by decide) (List.cons_ne_nil group rest)
    simp only [list, listWidth, List.map_cons, List.isEmpty_cons, Bool.false_eq_true, if_false,
      width_cons] at hparts ⊢
    omega

/-- The direction is one word, written if there are orderings. -/
theorem width_trailing (reversed : Bool) (limit : Option Nat) (pieces : List Piece) :
    width (trailing reversed limit pieces) =
      listWidth "ORDER BY" ((Piece.select .ordering pieces).map width) +
        (if (Piece.select .ordering pieces).isEmpty then 0 else 1) +
        width (trailing false limit []) := by
  have hdirection : width [if reversed then "DESC" else "ASC"] = 1 := by
    cases reversed <;> decide
  have hlimit : trailing false limit [] = limit.elim [] fun n => ["LIMIT", toString n] := by
    cases limit <;> rfl
  have hall : trailing reversed limit pieces =
      list "ORDER BY" (Piece.select .ordering pieces) ++
        (if (Piece.select .ordering pieces).isEmpty then []
          else [if reversed then "DESC" else "ASC"]) ++
        limit.elim [] fun n => ["LIMIT", toString n] := by
    cases limit <;> rfl
  rw [hall, hlimit, width_append, width_append, width_list]
  split <;> simp [hdirection]

/-- A statement is as wide as its clauses. -/
theorem width_select (distinct : Bool) (source : List String) (pieces : List Piece) :
    width (select distinct source pieces) =
      2 + distinct.toNat + width (separated "," (Piece.items pieces)) + width source +
        ((Piece.select .join pieces).map width).sum +
        joinedWidth ((Piece.select .existence pieces ++ Piece.select .filter pieces).map width) +
        listWidth "GROUP BY" ((Piece.select .grouping pieces).map width) +
        joinedWidth ((Piece.select .having pieces).map width) := by
  have hhead : width (["SELECT"] ++ if distinct then ["DISTINCT"] else []) =
      1 + distinct.toNat := by
    cases distinct <;> decide
  have hfrom : width ["FROM"] = 1 := by decide
  have hwhere := width_conditions "WHERE" (by decide)
  have hhaving := width_conditions "HAVING" (by decide)
  rw [select, ← Piece.items, width_append, width_append, width_append, width_append, width_append,
    width_append, width_append, hhead, hfrom, width_flatten, hwhere, hhaving, width_list]
  omega

end Statement

namespace Entry

/-- The widths of what an entry contributes to the clause of its kind. -/
def widths (entry : Entry) : List Nat :=
  (Piece.select entry.kind.clause (entry.piece 0)).map Statement.width

/-- The widths of what a log contributes to the clause of a kind. -/
def widthsOf (kind : EntryKind) (log : List Entry) : List Nat :=
  (ofKind kind log).flatMap widths

/-- A clause is as wide as the entries of its kind make it. -/
theorem map_width_select_pieces (kind : EntryKind) (log : List Entry) (n : Nat) :
    (Piece.select kind.clause (pieces n log)).map Statement.width = widthsOf kind log := by
  induction log generalizing n with
  | nil => rfl
  | cons entry rest ih =>
    rw [pieces, Piece.select_append, List.map_append, ih]
    by_cases hkind : entry.kind = kind
    · have hpiece := Piece.forall₂_select
        (renumbered_piece Text.SameBlanks.renumbering entry n 0) kind.clause
      have hwidths : (Piece.select kind.clause (entry.piece n)).map Statement.width =
          (Piece.select kind.clause (entry.piece 0)).map Statement.width :=
        List.forall₂_eq_eq_eq ▸ List.forall₂_map_left_iff.mpr (List.forall₂_map_right_iff.mpr
          (hpiece.imp fun _ _ => Statement.width_eq_of_related))
      simp [widthsOf, widths, ofKind, hkind, hwidths]
    · simp [widthsOf, ofKind, hkind, select_piece_eq_nil hkind]

/-- The width of the projections of a log, a separator behind each. -/
def projectionWidth (log : List Entry) : Nat :=
  if (widthsOf .select log).isEmpty then 2 else Statement.joinedWidth (widthsOf .select log)

/-- The width of the conditions over rows of a log, a separator behind each. -/
def conditionWidth (log : List Entry) : Nat :=
  Statement.joinedWidth (widthsOf .whereExists log) + Statement.joinedWidth (widthsOf .filter log)

theorem projectionWidth_pos (log : List Entry) : 0 < projectionWidth log := by
  unfold projectionWidth
  cases widthsOf .select log with
  | nil => decide
  | cons width rest =>
    simp only [List.isEmpty_cons, Bool.false_eq_true, if_false, Statement.joinedWidth,
      List.map_cons, List.sum_cons]
    omega

/-- Everything is projected if nothing in particular is. -/
theorem width_separated_items (log : List Entry) (n : Nat) :
    Statement.width (Statement.separated "," (Piece.items (pieces n log))) + 1 =
      projectionWidth log := by
  have hwidths := map_width_select_pieces .select log n
  unfold Piece.items projectionWidth
  rw [← hwidths, List.isEmpty_map]
  change Statement.width (Statement.separated ","
    (if (Piece.select EntryKind.select.clause (pieces n log)).isEmpty then [[starName]]
      else Piece.select EntryKind.select.clause (pieces n log))) + 1 = _
  split
  · decide
  · rename_i hne
    exact Statement.width_separated "," (by decide) fun hnil => hne (by rw [hnil]; rfl)

end Entry

namespace Query

/-- The clauses of a query that is no set operation. -/
theorem tokens_of_isCombined_eq_false {q : Query} (h : q.source.isCombined = false) (n : Nat) :
    q.tokens n = Statement.select q.distinct (q.source.tokens n q.aliasName) (q.pieces n) ++
      Statement.trailing q.reversed q.limit (q.pieces n) := by
  rw [tokens_eq_leading, leading, h]
  rfl

/-- The width of a statement without its projections and its conditions over rows. -/
def frameWidth (q : Query) : Nat :=
  1 + q.distinct.toNat + Statement.width (q.source.tokens 0 q.aliasName) +
    (Entry.widthsOf .join q.log).sum +
    Statement.listWidth "GROUP BY" (Entry.widthsOf .group q.log) +
    Statement.joinedWidth (Entry.widthsOf .having q.log) +
    Statement.listWidth "ORDER BY" (Entry.widthsOf .order q.log) +
    (if (Entry.widthsOf .order q.log).isEmpty then 0 else 1) +
    Statement.width (Statement.trailing false q.limit [])

/-- A statement is as wide as its projections, its conditions over rows and everything else, from
whatever number derived tables are counted. -/
theorem width_tokens {q : Query} (h : q.source.isCombined = false) (n : Nat) :
    Statement.width (q.tokens n) =
      q.frameWidth + Entry.projectionWidth q.log + Entry.conditionWidth q.log := by
  obtain ⟨start, hpieces⟩ : ∃ start, q.pieces n = Entry.pieces start q.log := ⟨_, rfl⟩
  have hwidths (kind : EntryKind) := Entry.map_width_select_pieces kind q.log start
  have hjoins := hwidths .join
  have hexists := hwidths .whereExists
  have hfilters := hwidths .filter
  have hgroups := hwidths .group
  have hhaving := hwidths .having
  have horders := hwidths .order
  have hdirection : (Piece.select .ordering (Entry.pieces start q.log)).isEmpty =
      (Entry.widthsOf .order q.log).isEmpty := by
    rw [← horders, List.isEmpty_map]
    rfl
  simp only [EntryKind.clause] at hjoins hexists hfilters hgroups hhaving horders
  have hitems := Entry.width_separated_items q.log start
  have hsource := Statement.width_eq_of_related
    (Source.renumbered_tokens Text.SameBlanks.renumbering q.source n 0 q.aliasName)
  rw [tokens_of_isCombined_eq_false h, hpieces, Statement.width_append, Statement.width_select,
    Statement.width_trailing, List.map_append, Statement.joinedWidth_append, hsource, hjoins,
    hexists, hfilters, hgroups, hhaving, horders, hdirection, frameWidth, Entry.conditionWidth,
    ← hitems]
  omega

theorem tokens_ne_nil {q : Query} (h : q.source.isCombined = false) (n : Nat) :
    q.tokens n ≠ [] := by
  rw [tokens_of_isCombined_eq_false h]
  simp [Statement.select]

end Query

end SqlTree
