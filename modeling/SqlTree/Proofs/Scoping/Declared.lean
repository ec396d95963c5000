import SqlTree.Proofs.Clauses.Pieces
import SqlTree.Proofs.Semantics.Scope

/-!
# Correlation names in a statement

The rows of a statement come from the items of its `FROM` clause, its source and the targets of its
joins. Each item declares a correlation name: the one after `AS`, or else the table that the item
begins with. A set operation has no such clause. Main statements: the items are what stands between
`FROM` and the clauses that follow, with `INNER JOIN` between them, and the printed qualifier of
every query that rows are taken from is declared by one of them.
-/

namespace SqlTree

/-- Whether the text stands for the name, as it is or as a delimited identifier. -/
def Text.StandsFor (text name : String) : Prop := text = name ∨ text = Text.Quoted.identifier name

namespace Statement

/-- The text that an item of a `FROM` clause declares as its correlation name. -/
def correlationName? (item : List String) : Option String :=
  if item[1]? = some "AS" then item[2]? else item[0]?

/-- The item declares the name that the qualifier stands for. -/
def ItemDeclares (item : List String) (qualifier : String) : Prop :=
  ∃ given name, correlationName? item = some given ∧ Text.StandsFor given name ∧
    Text.StandsFor qualifier name

/-- Groups after a first one stand each behind the separator. -/
theorem separated_cons (separator : String) (group : List String) (groups : List (List String)) :
    separated separator (group :: groups) = group ++ (groups.map (separator :: ·)).flatten := by
  induction groups generalizing group with
  | nil => simp [separated]
  | cons next rest ih =>
    have hrest := ih next
    simp only [separated] at hrest ⊢
    simp [hrest]

end Statement

namespace Query

/-- The tokens of the target of a join. -/
def targetTokens (n : Nat) (target : Query) : List String :=
  if target.onlyProjects then target.sourceTokens n
  else target.nestedTarget n (target.tokens (n + target.needsName.toNat))

theorem sourceTokens_eq (n : Nat) (q : Query) :
    q.sourceTokens n = q.source.tokens n q.aliasName := by
  cases q
  rw [sourceTokens]

theorem isCombined_of_onlyProjects {q : Query} (h : q.onlyProjects = true) :
    q.source.isCombined = false := by
  simp only [onlyProjects, Bool.and_eq_true, Bool.not_eq_true'] at h
  exact h.1.1.1

/-- The items of the `FROM` clause of a statement. -/
def fromItems (n : Nat) (q : Query) : List (List String) :=
  if q.source.isCombined then []
  else q.source.tokens n q.aliasName :: (Piece.select .join (q.pieces n)).map List.tail

/-- The statement, numbered from `n`, declares the name that the qualifier stands for. -/
def Declares (n : Nat) (q : Query) (qualifier : String) : Prop :=
  ∃ item ∈ q.fromItems n, Statement.ItemDeclares item qualifier

end Query

/-- What an entry contributes to the joins is the keyword and an item: the target, with a condition
if there is one. -/
theorem Entry.piece_of_target? {entry : Entry} {target : Query} (h : entry.target? = some target)
    (n : Nat) : ∃ condition, condition.head? ≠ some "AS" ∧
      entry.piece n = [⟨.join, "INNER JOIN" :: (target.targetTokens n ++ condition)⟩] := by
  cases entry with
  | join joined =>
    obtain rfl := Option.some.inj h
    refine ⟨[], by simp, ?_⟩
    rw [piece, List.append_nil]
    rfl
  | joinOn joined cond =>
    obtain rfl := Option.some.inj h
    refine ⟨["ON", cond.sql (n + if joined.onlyProjects then joined.sourceNameCount
      else joined.needsName.toNat + joined.nameCount)], by simp, ?_⟩
    rw [piece]
    rfl
  | _ => cases h

/-- What a log contributes to the joins are items behind their keyword. -/
theorem Entry.eq_cons_of_mem_select_join {n : Nat} {log : List Entry} {tokens : List String}
    (h : tokens ∈ Piece.select .join (pieces n log)) : tokens = "INNER JOIN" :: tokens.tail := by
  obtain ⟨found, hfound, hclause, rfl⟩ := Piece.mem_select_iff.mp h
  obtain ⟨before, entry, after, rfl, hpiece⟩ := mem_pieces_iff.mp hfound
  have hkind : entry.kind = .join :=
    EntryKind.clause_injective ((clause_of_mem_piece hpiece).symm.trans hclause)
  have htarget : ∃ target, entry.target? = some target := by
    cases entry with
    | join target | joinOn target cond => exact ⟨target, rfl⟩
    | _ => cases hkind
  obtain ⟨target, htarget⟩ := htarget
  obtain ⟨condition, _, hjoin⟩ := piece_of_target? htarget (n + nameCounts before)
  rw [hjoin, List.mem_singleton] at hpiece
  simp [hpiece]

namespace Query

/-- The items of the `FROM` clause are what stands behind `FROM`, with `INNER JOIN` between them. -/
theorem tokens_eq_fromItems {q : Query} (hq : q.source.isCombined = false) (n : Nat) :
    q.tokens n =
      (["SELECT"] ++ (if q.distinct then ["DISTINCT"] else []) ++
        Statement.separated ","
          (if (Piece.select .projection (q.pieces n)).isEmpty then [[starName]]
            else Piece.select .projection (q.pieces n))) ++
      "FROM" :: Statement.separated "INNER JOIN" (q.fromItems n) ++
      (Statement.conditions "WHERE"
          (Piece.select .existence (q.pieces n) ++ Piece.select .filter (q.pieces n)) ++
        Statement.list "GROUP BY" (Piece.select .grouping (q.pieces n)) ++
        Statement.conditions "HAVING" (Piece.select .having (q.pieces n)) ++
        Statement.trailing q.reversed q.limit (q.pieces n)) := by
  have hjoins : (((Piece.select .join (q.pieces n)).map List.tail).map ("INNER JOIN" :: ·)) =
      Piece.select .join (q.pieces n) := by
    rw [List.map_map]
    refine (List.map_congr_left fun tokens htokens => ?_).trans (List.map_id _)
    exact (Entry.eq_cons_of_mem_select_join htokens).symm
  rw [tokens_eq_leading]
  simp [fromItems, leading, hq, Statement.separated_cons, hjoins, Statement.select]

end Query

/-- The first item of a statement is the source under its name. -/
theorem Source.tokens_eq {source : Source} (h : source.isCombined = false)
    (aliasName : Option String) (n : Nat) :
    (∃ name, source.name? = some name ∧ aliasName = none ∧ source.tokens n aliasName = [name]) ∨
      ∃ first given, (aliasName = some given ∨ aliasName = none ∧ source.name? = none) ∧
        source.tokens n aliasName = first :: Statement.named given := by
  cases source with
  | named name =>
    cases aliasName with
    | none => exact Or.inl ⟨name, rfl, rfl, by simp [tokens]⟩
    | some given => exact Or.inr ⟨name, given, Or.inl rfl, by simp [tokens]⟩
  | derived q =>
    cases aliasName with
    | none =>
      exact Or.inr ⟨Statement.nested (q.tokens (n + 1)), derivedName n, Or.inr ⟨rfl, rfl⟩,
        by simp only [tokens]⟩
    | some given =>
      exact Or.inr ⟨Statement.nested (q.tokens n), given, Or.inl rfl, by simp only [tokens]⟩
  | combined op left right => cases h

/-- The printed qualifier stands for the name that qualifies columns. -/
theorem Reference.standsFor_of_sql? {r : Reference} {qualifier : String}
    (h : r.sql? = some qualifier) :
    ∃ name, r.qualifier = some name ∧ Text.StandsFor qualifier name := by
  obtain ⟨tableName, aliasName⟩ := r
  cases aliasName with
  | none => exact ⟨qualifier, h, Or.inl rfl⟩
  | some given =>
    refine ⟨given, rfl, ?_⟩
    simp only [sql?, Option.some.injEq] at h
    split at h
    · exact Or.inl h.symm
    · exact Or.inr h.symm

namespace Statement

variable {qualifier : String}

/-- An item under a name declares it. -/
theorem itemDeclares_named {first name : String} (rest : List String)
    (h : Text.StandsFor qualifier name) : ItemDeclares (first :: named name ++ rest) qualifier :=
  ⟨Text.Quoted.identifier name, name, rfl, Or.inr rfl, h⟩

/-- A table without an alias declares its own name. -/
theorem itemDeclares_table {name : String} {rest : List String} (hrest : rest.head? ≠ some "AS")
    (h : Text.StandsFor qualifier name) : ItemDeclares (name :: rest) qualifier := by
  refine ⟨name, name, ?_, Or.inl rfl, h⟩
  cases rest with
  | nil => rfl
  | cons second rest =>
    have hsecond : second ≠ "AS" := by simpa using hrest
    simp [correlationName?, hsecond]

end Statement

namespace Query

variable {qualifier : String}

/-- The source of a statement declares the qualifier of the statement's own columns. -/
theorem itemDeclares_source {q : Query} (hq : q.source.isCombined = false)
    (h : q.reference.sql? = some qualifier) (n : Nat) {rest : List String}
    (hrest : rest.head? ≠ some "AS") :
    Statement.ItemDeclares (q.source.tokens n q.aliasName ++ rest) qualifier := by
  obtain ⟨name, hname, hstands⟩ := Reference.standsFor_of_sql? h
  rcases Source.tokens_eq hq q.aliasName n with
    ⟨table, htable, halias, htokens⟩ | ⟨first, given, halias, htokens⟩
  · rw [reference, htable, halias] at hname
    obtain rfl := Option.some.inj hname
    rw [htokens]
    exact Statement.itemDeclares_table hrest hstands
  · have hgiven : given = name := by
      rcases halias with halias | ⟨halias, htable⟩
      · rw [reference, halias] at hname
        exact Option.some.inj hname
      · rw [reference, halias, htable] at hname
        cases hname
    rw [htokens, hgiven]
    exact Statement.itemDeclares_named rest hstands

/-- The target of a join declares the qualifier of its columns. -/
theorem itemDeclares_target {target : Query} (h : target.reference.sql? = some qualifier) (n : Nat)
    {rest : List String} (hrest : rest.head? ≠ some "AS") :
    Statement.ItemDeclares (target.targetTokens n ++ rest) qualifier := by
  unfold targetTokens
  split
  · rename_i honly
    rw [sourceTokens_eq]
    exact itemDeclares_source (isCombined_of_onlyProjects honly) h n hrest
  · obtain ⟨name, hname, hstands⟩ := Reference.standsFor_of_sql? h
    rw [nestedTarget, hname]
    exact Statement.itemDeclares_named rest hstands

/-- A statement declares the qualifier of everything that it takes its rows from. -/
theorem declares_of_mem_fromList {q table : Query} (hq : q.source.isCombined = false)
    (htable : table ∈ q.fromList) (h : table.reference.sql? = some qualifier) (n : Nat) :
    q.Declares n qualifier := by
  unfold Declares fromItems
  rw [if_neg (by simp [hq])]
  rcases List.mem_cons.mp htable with rfl | htable
  · refine ⟨_, List.mem_cons_self, ?_⟩
    have hnil : ([] : List String).head? ≠ some "AS" := by simp
    have hsource := itemDeclares_source hq h n hnil
    rwa [List.append_nil] at hsource
  · obtain ⟨entry, hentry, htarget⟩ := List.mem_filterMap.mp htable
    obtain ⟨before, after, hlog⟩ := List.append_of_mem hentry
    let start := n + ((q.source.needsName q.aliasName).toNat + q.source.nameCount)
    let m := start + Entry.nameCounts before
    obtain ⟨condition, hcondition, hpiece⟩ := Entry.piece_of_target? htarget m
    refine ⟨table.targetTokens m ++ condition, List.mem_cons_of_mem _ ?_,
      itemDeclares_target h m hcondition⟩
    refine List.mem_map.mpr ⟨"INNER JOIN" :: (table.targetTokens m ++ condition), ?_, rfl⟩
    have hmem : ⟨.join, "INNER JOIN" :: (table.targetTokens m ++ condition)⟩ ∈ q.pieces n := by
      rw [pieces, if_neg (by simp [hq]), Entry.mem_pieces_iff]
      exact ⟨before, entry, after, hlog, by rw [hpiece]; exact List.mem_singleton_self _⟩
    exact List.mem_filterMap.mpr ⟨_, hmem, if_pos rfl⟩

end Query

end SqlTree
