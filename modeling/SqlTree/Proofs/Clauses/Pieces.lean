import SqlTree.Proofs.Clauses.Interleaving

/-!
# What a log contributes to a statement

Each entry of a log contributes pieces to the clause of its kind. Main statements: the pieces of a
log are those of its entries, one after the other, and the clauses that order and limit a statement
stand behind clauses that do not depend on them.
-/

namespace SqlTree

/-- The pieces of a log are those of its entries, each numbered from where those before it end. -/
theorem Entry.mem_pieces_iff {n : Nat} {log : List Entry} {piece : Piece} :
    piece ∈ pieces n log ↔ ∃ before entry after, log = before ++ entry :: after ∧
      piece ∈ entry.piece (n + nameCounts before) := by
  induction log generalizing n with
  | nil => simp [pieces]
  | cons entry rest ih =>
    rw [pieces, List.mem_append, ih]
    constructor
    · rintro (h | ⟨before, found, after, rfl, h⟩)
      · exact ⟨[], entry, rest, rfl, h⟩
      · refine ⟨entry :: before, found, after, rfl, ?_⟩
        rwa [nameCounts, ← Nat.add_assoc]
    · rintro ⟨before, found, after, hlog, h⟩
      cases before with
      | nil =>
        obtain ⟨rfl, rfl⟩ := List.cons.inj hlog
        exact Or.inl h
      | cons first before =>
        obtain ⟨rfl, rfl⟩ := List.cons.inj hlog
        rw [nameCounts, ← Nat.add_assoc] at h
        exact Or.inr ⟨before, found, after, rfl, h⟩

namespace Query

/-- What the log of a query contributes to the clauses of its statement. -/
def pieces (n : Nat) (q : Query) : List Piece :=
  Entry.pieces
    (if q.source.isCombined then n
      else n + ((q.source.needsName q.aliasName).toNat + q.source.nameCount)) q.log

/-- The clauses of a statement up to those that order and limit it. -/
def leading (n : Nat) (q : Query) : List String :=
  if q.source.isCombined then q.source.tokens (n + Entry.nameCounts q.log) q.aliasName
  else Statement.select q.distinct (q.source.tokens n q.aliasName) (q.pieces n)

/-- The clauses that order and limit a statement come last. -/
theorem tokens_eq_leading (n : Nat) (q : Query) :
    q.tokens n = q.leading n ++ Statement.trailing q.reversed q.limit (q.pieces n) := by
  obtain ⟨source, aliasName, log, limit, distinct, reversed, driver⟩ := q
  simp only [tokens, leading, pieces]
  split <;> rfl

end Query

end SqlTree
