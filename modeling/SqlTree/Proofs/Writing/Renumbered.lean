import SqlTree.Proofs.Writing.Revised

/-!
# Texts with their derived tables renumbered

A part of a tree is written from a number on, and the number is seen in the names of derived tables
alone. Main statement: a relation between texts that is kept by writing, and that does not tell the
names of derived tables apart, relates the texts of a tree from any two numbers on.
-/

namespace SqlTree

/-- A relation between texts that is kept by writing and does not tell the names of derived tables
apart. -/
structure Renumbering (R : String → String → Prop) : Prop extends Text.Congruence R where
  refl : ∀ text : String, R text text
  ofDerivedName : ∀ n m : Nat,
    R (Text.Quoted.identifier (derivedName n)) (Text.Quoted.identifier (derivedName m))

namespace Renumbering

variable {R : String → String → Prop} (h : Renumbering R)
include h

/-- The declaration of a given name. -/
theorem named (name : String) :
    Statement.Related R (Statement.named name) (Statement.named name) :=
  Statement.related_named h.toCongruence (h.refl _)

/-- The declarations of two names of derived tables. -/
theorem derivedNamed (n m : Nat) : Statement.Related R (Statement.named (derivedName n))
    (Statement.named (derivedName m)) :=
  .cons (h.refl _) (.cons (h.ofDerivedName n m) .nil)

/-- An arm nested under one name or another. -/
theorem armTokens (q : Query) (n m : Nat) {statement statement' : List String}
    (hstatement : Statement.Related R statement statement') :
    Statement.Related R (q.armTokens n statement) (q.armTokens m statement') := by
  unfold Query.armTokens
  split
  · have hwords : Statement.Related R ["SELECT", starName, "FROM"] ["SELECT", starName, "FROM"] :=
      Statement.related_words h.toCongruence (by decide)
    exact List.rel_append
      (List.rel_append hwords (.cons (Statement.related_nested h.toCongruence hstatement) .nil))
      (h.derivedNamed n m)
  · exact hstatement

/-- A join target nested under one name or another. -/
theorem nestedTarget (q : Query) (n m : Nat) {statement statement' : List String}
    (hstatement : Statement.Related R statement statement') :
    Statement.Related R (q.nestedTarget n statement) (q.nestedTarget m statement') := by
  unfold Query.nestedTarget
  refine .cons (Statement.related_nested h.toCongruence hstatement) ?_
  cases q.reference.qualifier with
  | none => exact h.derivedNamed n m
  | some name => exact h.named name

/-- What a query is joined as: its source in place, or the query nested under a name. -/
theorem target (target : Query) (n m : Nat)
    (hsource : Statement.Related R (target.sourceTokens n) (target.sourceTokens m))
    (htokens : ∀ n m : Nat, Statement.Related R (target.tokens n) (target.tokens m)) :
    Statement.Related R
      (if target.onlyProjects then target.sourceTokens n
        else target.nestedTarget n (target.tokens (n + target.needsName.toNat)))
      (if target.onlyProjects then target.sourceTokens m
        else target.nestedTarget m (target.tokens (m + target.needsName.toNat))) := by
  split
  · exact hsource
  · exact h.nestedTarget target n m (htokens _ _)

end Renumbering

section Tree

variable {R : String → String → Prop}

mutual

/-- The tokens of a query from two numbers on are related. -/
theorem Query.renumbered_tokens (h : Renumbering R) :
    ∀ (q : Query) (n m : Nat), Statement.Related R (q.tokens n) (q.tokens m)
  | ⟨source, aliasName, log, limit, distinct, reversed, driver⟩, n, m => by
    have hpieces (n m : Nat) := Piece.alike_of_related h.toCongruence
      (Entry.renumbered_pieces h log n m)
    simp only [Query.tokens]
    cases source.isCombined with
    | true =>
      simp only [if_true]
      exact List.rel_append (Source.renumbered_tokens h source _ _ aliasName)
        (Statement.related_trailing h.toCongruence reversed limit (hpieces n m))
    | false =>
      simp only [Bool.false_eq_true, if_false]
      exact List.rel_append
        (Statement.related_select h.toCongruence distinct
          (Source.renumbered_tokens h source n m aliasName) (hpieces _ _))
        (Statement.related_trailing h.toCongruence reversed limit (hpieces _ _))

theorem Query.renumbered_sourceTokens (h : Renumbering R) :
    ∀ (q : Query) (n m : Nat), Statement.Related R (q.sourceTokens n) (q.sourceTokens m)
  | ⟨source, aliasName, log, limit, distinct, reversed, driver⟩, n, m => by
    simp only [Query.sourceTokens]
    exact Source.renumbered_tokens h source n m aliasName

theorem Source.renumbered_tokens (h : Renumbering R) :
    ∀ (source : Source) (n m : Nat) (aliasName : Option String),
      Statement.Related R (source.tokens n aliasName) (source.tokens m aliasName)
  | .named name, n, m, aliasName => by
    simp only [Source.tokens]
    exact List.forall₂_same.mpr fun token _ => h.refl token
  | .derived q, n, m, aliasName => by
    simp only [Source.tokens]
    cases aliasName with
    | none =>
      exact .cons (Statement.related_nested h.toCongruence (Query.renumbered_tokens h q _ _))
        (h.derivedNamed n m)
    | some a =>
      exact .cons (Statement.related_nested h.toCongruence (Query.renumbered_tokens h q n m))
        (h.named a)
  | .combined op left right, n, m, aliasName => by
    simp only [Source.tokens]
    exact List.rel_append
      (List.rel_append (h.armTokens left n m (Query.renumbered_tokens h left _ _))
        (.cons (h.refl _) .nil))
      (h.armTokens right _ _ (Query.renumbered_tokens h right _ _))

theorem Entry.renumbered_piece (h : Renumbering R) :
    ∀ (entry : Entry) (n m : Nat),
      List.Forall₂ (Piece.Related R) (entry.piece n) (entry.piece m)
  | .select items, n, m => by
    simp only [Entry.piece]
    exact Projection.renumbered_pieces h items n m
  | .filter cond, n, m | .having cond, n, m => by
    simp only [Entry.piece]
    exact .cons ⟨rfl, .cons (h.grouped (Column.renumbered_sql h cond n m)) .nil⟩ .nil
  | .whereExists sub, n, m => by
    simp only [Entry.piece]
    have hnested := Statement.related_nested h.toCongruence (Query.renumbered_tokens h sub n m)
    have hexists := h.prepended "EXISTS " (by decide) (by decide) hnested
    exact .cons ⟨rfl, .cons (h.parenthesized hexists) .nil⟩ .nil
  | .group c, n, m | .order c, n, m => by
    simp only [Entry.piece]
    exact .cons ⟨rfl, .cons (Column.renumbered_sql h c n m) .nil⟩ .nil
  | .join target, n, m => by
    simp only [Entry.piece]
    exact .cons ⟨rfl, .cons (h.refl _) (h.target target n m
      (Query.renumbered_sourceTokens h target n m) (Query.renumbered_tokens h target))⟩ .nil
  | .joinOn target cond, n, m => by
    simp only [Entry.piece]
    refine .cons ⟨rfl, .cons (h.refl _) (List.rel_append ?_ ?_)⟩ .nil
    · exact h.target target n m (Query.renumbered_sourceTokens h target n m)
        (Query.renumbered_tokens h target)
    · exact .cons (h.refl _) (.cons (Column.renumbered_sql h cond _ _) .nil)

theorem Entry.renumbered_pieces (h : Renumbering R) :
    ∀ (log : List Entry) (n m : Nat),
      List.Forall₂ (Piece.Related R) (Entry.pieces n log) (Entry.pieces m log)
  | [], _, _ => .nil
  | entry :: rest, n, m => by
    simp only [Entry.pieces]
    exact List.rel_append (Entry.renumbered_piece h entry n m)
      (Entry.renumbered_pieces h rest _ _)

theorem Projection.renumbered_pieces (h : Renumbering R) :
    ∀ (items : List Projection) (n m : Nat),
      List.Forall₂ (Piece.Related R) (Projection.pieces n items) (Projection.pieces m items)
  | [], _, _ => .nil
  | ⟨expr, aliasName⟩ :: rest, n, m => by
    simp only [Projection.pieces, Projection.piece]
    refine .cons ⟨rfl, .cons (Operand.renumbered_sql h expr n m) ?_⟩
      (Projection.renumbered_pieces h rest _ _)
    exact List.forall₂_same.mpr fun token _ => h.refl token

theorem Column.renumbered_sql (h : Renumbering R) :
    ∀ (c : Column) (n m : Nat), R (c.sql n) (c.sql m)
  | ⟨base, functions, nullTest⟩, n, m => by
    have hbody := Base.renumbered_body h base n m
    simp only [Column.sql]
    exact h.around functions nullTest rfl hbody.1 hbody.2

theorem Column.renumbered_rangeSql (h : Renumbering R) :
    ∀ (c : Column) (n m : Nat), R (c.rangeSql n) (c.rangeSql m)
  | ⟨base, functions, nullTest⟩, n, m => by
    have hbody := Base.renumbered_body h base n m
    simp only [Column.rangeSql]
    split
    · exact hbody.1
    · exact h.around functions nullTest rfl hbody.1 hbody.2

/-- The text of a base; of a base that is no infix operator also as the argument of a function. -/
theorem Base.renumbered_body (h : Renumbering R) :
    ∀ (b : Base) (n m : Nat),
      R (b.body n) (b.body m) ∧
        (b.isInfix = false → Text.Applicable R (b.body n) (b.body m))
  | .named name owner, n, m => by
    simp only [Base.body]
    exact ⟨h.refl _, fun _ => ⟨h.refl _, h.refl _⟩⟩
  | .binary op left right, n, m => by
    have hleft := Operand.renumbered_sql h left n m
    have hright := Operand.renumbered_sql h right (n + left.nameCount) (m + left.nameCount)
    have hrange := Operand.renumbered_rangeSql h right (n + left.nameCount) (m + left.nameCount)
    simp only [Base.body]
    cases op with
    | mod =>
      have hcall := h.applicable_call BinaryOp.mod.symbol (by decide) (by decide)
        (h.joined " , " (by decide) (by decide) hleft hright)
      exact ⟨hcall.related, fun _ => hcall⟩
    | between => exact ⟨h.infixed (BinaryOp.unmarked_symbol _) hleft hrange, nofun⟩
    | _ => exact ⟨h.infixed (BinaryOp.unmarked_symbol _) hleft hright, nofun⟩

theorem Operand.renumbered_sql (h : Renumbering R) :
    ∀ (side : Operand) (n m : Nat), R (side.sql n) (side.sql m)
  | .column c, n, m => by
    simp only [Operand.sql]
    exact Column.renumbered_sql h c n m
  | .literal v, n, m => by
    simp only [Operand.sql]
    exact h.refl _
  | .query q, n, m => by
    simp only [Operand.sql]
    exact Statement.related_nested h.toCongruence (Query.renumbered_tokens h q n m)

theorem Operand.renumbered_rangeSql (h : Renumbering R) :
    ∀ (side : Operand) (n m : Nat), R (side.rangeSql n) (side.rangeSql m)
  | .column c, n, m => by
    simp only [Operand.rangeSql]
    exact Column.renumbered_rangeSql h c n m
  | .literal v, n, m => by
    simp only [Operand.rangeSql]
    exact h.refl _
  | .query q, n, m => by
    simp only [Operand.rangeSql]
    exact Statement.related_nested h.toCongruence (Query.renumbered_tokens h q n m)

end

end Tree

end SqlTree
