import SqlTree.Query.Sql

/-!
# Texts that name no derived table

The number at which a text starts is seen only in the names that it gives to derived tables. Main
statement: a part of a tree that takes no such name is written the same from any number on.
-/

namespace SqlTree

/-- What a query is joined as takes no name of its own if its source takes none, or if the query has
a qualifier. -/
theorem Query.nestedTarget_congr {q : Query} (h : q.needsName = false) (n m : Nat)
    (statement : List String) : q.nestedTarget n statement = q.nestedTarget m statement := by
  unfold needsName at h
  unfold nestedTarget
  cases hqualifier : q.reference.qualifier with
  | none => simp [hqualifier] at h
  | some name => rfl

/-- An arm that is not nested takes no name of its own. -/
theorem Query.armTokens_of_not_cutsRows {q : Query} (h : q.cutsRows = false) (n : Nat)
    (statement : List String) : q.armTokens n statement = statement := by
  simp [armTokens, h]

mutual

/-- A query that takes no name is written the same from any number on. -/
theorem Query.tokens_congr : ∀ (q : Query) (n m : Nat), q.nameCount = 0 → q.tokens n = q.tokens m
  | ⟨source, aliasName, log, limit, distinct, reversed, driver⟩, n, m, h => by
    simp only [Query.nameCount, Nat.add_eq_zero_iff] at h
    obtain ⟨⟨hname, hsource⟩, hlog⟩ := h
    have hpieces := Entry.pieces_congr log n m hlog
    simp only [Query.tokens, hlog, hname, hsource, Nat.add_zero, hpieces]
    cases hcombined : source.isCombined with
    | true =>
      have hneeds : source.needsName aliasName = false := by
        simp [Source.needsName, hcombined]
      simp only [if_true, Source.tokens_congr source n m aliasName hneeds hsource]
    | false =>
      have hneeds : source.needsName aliasName = false := Bool.toNat_eq_zero.mp hname
      simp only [Bool.false_eq_true, if_false,
        Source.tokens_congr source n m aliasName hneeds hsource]

theorem Source.tokens_congr :
    ∀ (source : Source) (n m : Nat) (aliasName : Option String),
      source.needsName aliasName = false → source.nameCount = 0 →
        source.tokens n aliasName = source.tokens m aliasName
  | .named name, n, m, aliasName, _, _ => by simp only [Source.tokens]
  | .derived q, n, m, aliasName, hneeds, h => by
    simp only [Source.nameCount] at h
    cases aliasName with
    | none => simp [Source.needsName, Source.isNamed, Source.name?, Source.isCombined,
        Source.setOp?] at hneeds
    | some a => simp only [Source.tokens, Query.tokens_congr q n m h]
  | .combined op left right, n, m, aliasName, _, h => by
    simp only [Source.nameCount, Nat.add_eq_zero_iff, Bool.toNat_eq_zero] at h
    obtain ⟨⟨hleftCut, hleft⟩, hrightCut, hright⟩ := h
    simp only [Source.tokens, Query.armTokens_of_not_cutsRows hleftCut,
      Query.armTokens_of_not_cutsRows hrightCut, hleftCut, hrightCut, hleft, Bool.toNat_false,
      Nat.add_zero, Query.tokens_congr left n m hleft, Query.tokens_congr right n m hright]

theorem Query.sourceTokens_congr :
    ∀ (q : Query) (n m : Nat), q.sourceNameCount = 0 → q.sourceTokens n = q.sourceTokens m
  | ⟨source, aliasName, log, limit, distinct, reversed, driver⟩, n, m, h => by
    simp only [Query.sourceNameCount, Nat.add_eq_zero_iff, Bool.toNat_eq_zero] at h
    simp only [Query.sourceTokens, Source.tokens_congr source n m aliasName h.1 h.2]

theorem Entry.piece_congr :
    ∀ (entry : Entry) (n m : Nat), entry.nameCount = 0 → entry.piece n = entry.piece m
  | .select items, n, m, h => by
    simp only [Entry.nameCount] at h
    simp only [Entry.piece, Projection.pieces_congr items n m h]
  | .filter c, n, m, h | .group c, n, m, h | .having c, n, m, h | .order c, n, m, h => by
    simp only [Entry.nameCount] at h
    simp only [Entry.piece, Column.sql_congr c n m h]
  | .whereExists sub, n, m, h => by
    simp only [Entry.nameCount] at h
    simp only [Entry.piece, Query.tokens_congr sub n m h]
  | .join target, n, m, h => by
    simp only [Entry.nameCount] at h
    cases honly : target.onlyProjects with
    | true =>
      simp only [honly, if_true] at h
      simp only [Entry.piece, honly, if_true, Query.sourceTokens_congr target n m h]
    | false =>
      simp only [honly, Bool.false_eq_true, if_false, Nat.add_eq_zero_iff, Bool.toNat_eq_zero] at h
      simp only [Entry.piece, honly, Bool.false_eq_true, if_false, h.1, Bool.toNat_false,
        Nat.add_zero, Query.tokens_congr target n m h.2, Query.nestedTarget_congr h.1 n m]
  | .joinOn target cond, n, m, h => by
    simp only [Entry.nameCount, Nat.add_eq_zero_iff] at h
    obtain ⟨htarget, hcond⟩ := h
    cases honly : target.onlyProjects with
    | true =>
      simp only [honly, if_true] at htarget
      simp only [Entry.piece, honly, if_true, Query.sourceTokens_congr target n m htarget, htarget,
        Nat.add_zero, Column.sql_congr cond n m hcond]
    | false =>
      simp only [honly, Bool.false_eq_true, if_false, Nat.add_eq_zero_iff,
        Bool.toNat_eq_zero] at htarget
      simp only [Entry.piece, honly, Bool.false_eq_true, if_false, htarget.1, htarget.2,
        Bool.toNat_false, Nat.add_zero, Query.tokens_congr target n m htarget.2,
        Query.nestedTarget_congr htarget.1 n m, Column.sql_congr cond n m hcond]

theorem Entry.pieces_congr :
    ∀ (log : List Entry) (n m : Nat), Entry.nameCounts log = 0 →
      Entry.pieces n log = Entry.pieces m log
  | [], _, _, _ => by simp only [Entry.pieces]
  | entry :: rest, n, m, h => by
    simp only [Entry.nameCounts, Nat.add_eq_zero_iff] at h
    simp only [Entry.pieces, h.1, Nat.add_zero, Entry.piece_congr entry n m h.1,
      Entry.pieces_congr rest n m h.2]

theorem Projection.piece_congr :
    ∀ (item : Projection) (n m : Nat), item.nameCount = 0 → item.piece n = item.piece m
  | ⟨expr, aliasName⟩, n, m, h => by
    simp only [Projection.nameCount] at h
    simp only [Projection.piece, Operand.sql_congr expr n m h]

theorem Projection.pieces_congr :
    ∀ (items : List Projection) (n m : Nat), Projection.nameCounts items = 0 →
      Projection.pieces n items = Projection.pieces m items
  | [], _, _, _ => by simp only [Projection.pieces]
  | item :: rest, n, m, h => by
    simp only [Projection.nameCounts, Nat.add_eq_zero_iff] at h
    simp only [Projection.pieces, h.1, Nat.add_zero, Projection.piece_congr item n m h.1,
      Projection.pieces_congr rest n m h.2]

theorem Column.sql_congr : ∀ (c : Column) (n m : Nat), c.nameCount = 0 → c.sql n = c.sql m
  | ⟨base, functions, nullTest⟩, n, m, h => by
    simp only [Column.nameCount] at h
    simp only [Column.sql, Base.body_congr base n m h]

theorem Column.rangeSql_congr :
    ∀ (c : Column) (n m : Nat), c.nameCount = 0 → c.rangeSql n = c.rangeSql m
  | ⟨base, functions, nullTest⟩, n, m, h => by
    simp only [Column.nameCount] at h
    simp only [Column.rangeSql, Base.body_congr base n m h]

theorem Base.body_congr : ∀ (b : Base) (n m : Nat), b.nameCount = 0 → b.body n = b.body m
  | .named name owner, n, m, _ => by simp only [Base.body]
  | .binary op left right, n, m, h => by
    simp only [Base.nameCount, Nat.add_eq_zero_iff] at h
    have hleft := Operand.sql_congr left n m h.1
    have hright := Operand.sql_congr right n m h.2
    have hrange := Operand.rangeSql_congr right n m h.2
    cases op <;> simp only [Base.body, h.1, Nat.add_zero, hleft, hright, hrange]

theorem Operand.sql_congr : ∀ (side : Operand) (n m : Nat), side.nameCount = 0 →
    side.sql n = side.sql m
  | .column c, n, m, h => by
    simp only [Operand.nameCount] at h
    simp only [Operand.sql, Column.sql_congr c n m h]
  | .literal v, n, m, _ => by simp only [Operand.sql]
  | .query q, n, m, h => by
    simp only [Operand.nameCount] at h
    simp only [Operand.sql, Query.tokens_congr q n m h]

theorem Operand.rangeSql_congr : ∀ (side : Operand) (n m : Nat), side.nameCount = 0 →
    side.rangeSql n = side.rangeSql m
  | .column c, n, m, h => by
    simp only [Operand.nameCount] at h
    simp only [Operand.rangeSql, Column.rangeSql_congr c n m h]
  | .literal v, n, m, _ => by simp only [Operand.rangeSql]
  | .query q, n, m, h => by
    simp only [Operand.nameCount] at h
    simp only [Operand.rangeSql, Query.tokens_congr q n m h]

end

end SqlTree
