import SqlTree.Proofs.Tree.Everywhere
import SqlTree.Proofs.Tree.RevisionFaults
import SqlTree.Proofs.Writing.Congruence

/-!
# The text of revised trees

What is written for a tree and for a revision of it is compared token by token. Main statement: if a
relation between texts is kept by writing, and relates each name to itself and each literal to what
takes its place, then it relates the tokens of a tree to those of its revision.
-/

namespace SqlTree

/-- A relation between texts that is kept by writing and holds at the leaves of a tree as demanded:
between each literal and what takes its place, and between each name and itself. -/
structure Likeness (literal : Literal → Literal) (d : Demand) (R : String → String → Prop) : Prop
    extends Text.Congruence R where
  ofLiteral : ∀ v : Literal, d.literal v → R v.text (literal v).text
  ofColumn : ∀ (c : Column) (name : String) (owner : Option Reference), d.column c →
    c.base = .named name owner →
      Text.Applicable R (Base.nameSql name owner) (Base.nameSql name owner)
  ofTable : ∀ (q : Query) (name : String), d.query q → q.source = .named name → R name name
  ofQualifier : ∀ (q : Query) (name : String), d.query q → q.reference.qualifier = some name →
    R (Text.Quoted.identifier name) (Text.Quoted.identifier name)
  ofAlias : ∀ (items : List Projection) (item : Projection) (aliasName : String),
    d.entry (.select items) → item ∈ items → item.aliasName = some aliasName →
      R (Text.Quoted.identifier aliasName) (Text.Quoted.identifier aliasName)
  ofDerivedName : ∀ n : Nat,
    R (Text.Quoted.identifier (derivedName n)) (Text.Quoted.identifier (derivedName n))

/-- The pieces of the entries of a log follow those of the entries before them. -/
theorem Entry.pieces_append (n : Nat) (a b : List Entry) :
    pieces n (a ++ b) = pieces n a ++ pieces (n + nameCounts a) b := by
  induction a generalizing n with
  | nil => simp [pieces, nameCounts]
  | cons entry rest ih => simp [pieces, nameCounts, ih, Nat.add_assoc]

/-- Without a projection among the entries nothing is projected in particular. -/
theorem Entry.select_projection_pieces {log : List Entry}
    (h : ∀ entry ∈ log, entry.kind ≠ .select) (n : Nat) :
    Piece.select .projection (pieces n log) = [] := by
  induction log generalizing n with
  | nil => rfl
  | cons entry rest ih =>
    rw [List.forall_mem_cons] at h
    have hentry : Piece.select .projection (entry.piece n) = [] := by
      cases entry with
      | select items => exact absurd rfl h.1
      | _ => simp [piece, Piece.select]
    rw [pieces, Piece.select_append, hentry, ih h.2, List.append_nil]

/-- The end that a revision puts to a log is what is written for its lack, also if other entries
than projections follow. -/
theorem Entry.alike_close_append {R : String → String → Prop} (hR : Text.Congruence R)
    (r : Revision) {pieces : List Piece} {log : List Entry} (rest : List Entry) {n : Nat}
    (hrest : ∀ entry ∈ rest, entry.kind ≠ .select)
    (h : List.Forall₂ (Piece.Related R) pieces (Entry.pieces n (log ++ rest))) :
    Piece.Alike R pieces (Entry.pieces n (r.close log ++ rest)) := by
  rcases r.close_eq log with he | ⟨he, hlog⟩
  · rw [he]
    exact Piece.alike_of_related hR h
  · have hnone : Piece.select .projection (Entry.pieces n (log ++ rest)) = [] :=
      select_projection_pieces (List.forall_mem_append.mpr ⟨hlog, hrest⟩) n
    have hstar : Entry.pieces n (r.close log ++ rest) =
        Entry.pieces n log ++ .star :: Entry.pieces (n + nameCounts log) rest := by
      rw [he, List.append_assoc, pieces_append]
      rfl
    rw [pieces_append] at h hnone
    rw [hstar]
    exact Piece.alike_insert_star hR h hnone

theorem Entry.alike_close {R : String → String → Prop} (hR : Text.Congruence R) (r : Revision)
    {pieces : List Piece} {log : List Entry} {n : Nat}
    (h : List.Forall₂ (Piece.Related R) pieces (Entry.pieces n log)) :
    Piece.Alike R pieces (Entry.pieces n (r.close log)) := by
  have halike := alike_close_append hR r [] (List.forall_mem_nil _)
    (by rwa [List.append_nil])
  rwa [List.append_nil] at halike

section Target

variable {R : String → String → Prop} (hR : Text.Congruence R)
include hR

/-- The arms of two set operations are nested alike. -/
theorem Query.related_armTokens {q q' : Query} (hcuts : q.cutsRows = q'.cutsRows) (n : Nat)
    (hname : R (Text.Quoted.identifier (derivedName n)) (Text.Quoted.identifier (derivedName n)))
    {statement statement' : List String} (h : Statement.Related R statement statement') :
    Statement.Related R (q.armTokens n statement) (q'.armTokens n statement') := by
  unfold armTokens
  rw [← hcuts]
  split
  · have hwords : Statement.Related R ["SELECT", starName, "FROM"] ["SELECT", starName, "FROM"] :=
      Statement.related_words hR (by decide)
    exact List.rel_append (List.rel_append hwords (.cons (Statement.related_nested hR h) .nil))
      (Statement.related_named hR hname)
  · exact h

/-- The nested targets of two joins have the same name. -/
theorem Query.related_nestedTarget {q q' : Query} (href : q.reference = q'.reference) (n : Nat)
    (hname : R (Text.Quoted.identifier (q.reference.qualifier.getD (derivedName n)))
      (Text.Quoted.identifier (q.reference.qualifier.getD (derivedName n))))
    {statement statement' : List String} (h : Statement.Related R statement statement') :
    Statement.Related R (q.nestedTarget n statement) (q'.nestedTarget n statement') := by
  unfold nestedTarget
  rw [← href]
  exact .cons (Statement.related_nested hR h) (Statement.related_named hR hname)

end Target

namespace Likeness

variable {literal : Literal → Literal} {d : Demand} {R : String → String → Prop}
  (h : Likeness literal d R)
include h

/-- The name that a derived table is given or goes without. -/
theorem related_qualifier {q : Query} (hq : d.query q) (n : Nat) :
    R (Text.Quoted.identifier (q.reference.qualifier.getD (derivedName n)))
      (Text.Quoted.identifier (q.reference.qualifier.getD (derivedName n))) := by
  cases hqualifier : q.reference.qualifier with
  | none => exact h.ofDerivedName n
  | some name => exact h.ofQualifier q name hq hqualifier

/-- What a query is joined as: its source in place, or the query nested under a name. -/
theorem related_target {target target' : Query} (htarget : d.query target)
    (href : target.reference = target'.reference) (n m : Nat)
    (hsource : Statement.Related R (target.sourceTokens n) (target'.sourceTokens n))
    (hnested : Statement.Related R (target.tokens m) (target'.tokens m)) (onlyProjects : Bool) :
    Statement.Related R
      (if onlyProjects then target.sourceTokens n else target.nestedTarget n (target.tokens m))
      (if onlyProjects then target'.sourceTokens n
        else target'.nestedTarget n (target'.tokens m)) := by
  cases onlyProjects with
  | true => exact hsource
  | false =>
    exact Query.related_nestedTarget h.toCongruence href n (h.related_qualifier htarget n) hnested

/-- The alias that a query is given. -/
theorem related_aliasName {q : Query} (hq : d.query q) {aliasName : String}
    (hq' : q.aliasName = some aliasName) :
    R (Text.Quoted.identifier aliasName) (Text.Quoted.identifier aliasName) :=
  h.ofQualifier q aliasName hq (by simp [Query.reference, Reference.qualifier, hq'])

end Likeness

theorem Base.isInfix_revised (r : Revision) (b : Base) : (b.revised r).isInfix = b.isInfix := by
  cases b <;> simp [Base.revised, isInfix]

theorem Base.isConjunction_revised (r : Revision) (b : Base) :
    (b.revised r).isConjunction = b.isConjunction := by
  cases b <;> simp [Base.revised, isConjunction]

section Tree

variable {literal : Literal → Literal} {d : Demand} {R : String → String → Prop}

mutual

/-- The tokens of a query are related to those of its revision. -/
theorem Query.related_tokens (h : Likeness literal d R) :
    ∀ (q : Query) (e : Bool) (n : Nat), q.Meets d →
      Statement.Related R (q.tokens n) ((q.revised ⟨literal, e⟩).tokens n)
  | ⟨source, aliasName, log, limit, distinct, reversed, driver⟩, e, n, hq => by
    simp only [Query.Meets] at hq
    obtain ⟨hquery, hsource, hlog⟩ := hq
    have hsourceTokens (n : Nat) := Source.related_tokens h source e n aliasName
      (fun name hname => h.ofTable _ name hquery hname)
      (fun a ha => h.related_aliasName hquery ha) hsource
    simp only [Query.revised, Query.tokens, Source.isCombined_revised, Source.needsName_revised,
      Source.nameCount_revised]
    cases source.isCombined with
    | true =>
      simp only [if_true, Entry.nameCounts_revisedLog]
      exact List.rel_append (hsourceTokens _) (Statement.related_trailing h.toCongruence reversed
        limit (Piece.alike_of_related h.toCongruence (Entry.related_pieces h log false n hlog)))
    | false =>
      simp only [Bool.false_eq_true, if_false]
      have hpieces (n : Nat) := Entry.alike_close h.toCongruence ⟨literal, e⟩
        (Entry.related_pieces h log e n hlog)
      exact List.rel_append
        (Statement.related_select h.toCongruence distinct (hsourceTokens _) (hpieces _))
        (Statement.related_trailing h.toCongruence reversed limit (hpieces _))

theorem Query.related_sourceTokens (h : Likeness literal d R) :
    ∀ (q : Query) (e : Bool) (n : Nat), q.Meets d →
      Statement.Related R (q.sourceTokens n) ((q.revised ⟨literal, e⟩).sourceTokens n)
  | ⟨source, aliasName, log, limit, distinct, reversed, driver⟩, e, n, hq => by
    simp only [Query.Meets] at hq
    simp only [Query.revised, Query.sourceTokens]
    exact Source.related_tokens h source e n aliasName
      (fun name hname => h.ofTable _ name hq.1 hname)
      (fun a ha => h.related_aliasName hq.1 ha) hq.2.1

theorem Source.related_tokens (h : Likeness literal d R) :
    ∀ (source : Source) (e : Bool) (n : Nat) (aliasName : Option String),
      (∀ name, source = .named name → R name name) →
      (∀ a, aliasName = some a → R (Text.Quoted.identifier a) (Text.Quoted.identifier a)) →
      source.Meets d →
      Statement.Related R (source.tokens n aliasName)
        ((source.revised ⟨literal, e⟩).tokens n aliasName)
  | .named name, e, n, aliasName, hname, halias, _ => by
    simp only [Source.revised, Source.tokens]
    refine .cons (hname name rfl) ?_
    cases aliasName with
    | none => exact .nil
    | some a => exact Statement.related_named h.toCongruence (halias a rfl)
  | .derived q, e, n, aliasName, _, halias, hq => by
    simp only [Source.Meets] at hq
    simp only [Source.revised, Source.tokens]
    cases aliasName with
    | none =>
      exact .cons (Statement.related_nested h.toCongruence (Query.related_tokens h q e (n + 1) hq))
        (Statement.related_named h.toCongruence (h.ofDerivedName n))
    | some a =>
      exact .cons (Statement.related_nested h.toCongruence (Query.related_tokens h q e n hq))
        (Statement.related_named h.toCongruence (halias a rfl))
  | .combined op left right, e, n, aliasName, _, _, hq => by
    simp only [Source.Meets] at hq
    simp only [Source.revised, Source.tokens, Query.cutsRows_revised, Query.nameCount_revised]
    have hleft := Query.related_armTokens h.toCongruence
      (Query.cutsRows_revised ⟨literal, e⟩ left).symm n (h.ofDerivedName n)
      (Query.related_tokens h left e (n + left.cutsRows.toNat) hq.1)
    have hright (n : Nat) := Query.related_armTokens h.toCongruence
      (Query.cutsRows_revised ⟨literal, e⟩ right).symm n (h.ofDerivedName n)
      (Query.related_tokens h right e (n + right.cutsRows.toNat) hq.2)
    exact List.rel_append
      (List.rel_append hleft (.cons (h.unmarked op.unmarked_name) .nil)) (hright _)

theorem Entry.related_piece (h : Likeness literal d R) :
    ∀ (entry : Entry) (e : Bool) (n : Nat), d.entry entry → entry.PartsMeet d →
      List.Forall₂ (Piece.Related R) (entry.piece n) ((entry.revised ⟨literal, e⟩).piece n)
  | .select items, e, n, hentry, hitems => by
    simp only [Entry.PartsMeet] at hitems
    simp only [Entry.revised, Entry.piece]
    exact Projection.related_pieces h items e n (h.ofAlias items · · hentry) hitems
  | .filter cond, e, n, _, hcond => by
    simp only [Entry.PartsMeet] at hcond
    simp only [Entry.revised, Entry.piece]
    exact .cons ⟨rfl, .cons (h.grouped (Column.related_sql h cond e n hcond)) .nil⟩ .nil
  | .whereExists sub, e, n, _, hsub => by
    simp only [Entry.PartsMeet] at hsub
    simp only [Entry.revised, Entry.piece]
    have hnested := Statement.related_nested h.toCongruence (Query.related_tokens h sub e n hsub)
    have hexists := h.prepended "EXISTS " (by decide) (by decide) hnested
    exact .cons ⟨rfl, .cons (h.parenthesized hexists) .nil⟩ .nil
  | .group c, e, n, _, hc => by
    simp only [Entry.PartsMeet] at hc
    simp only [Entry.revised, Entry.piece]
    exact .cons ⟨rfl, .cons (Column.related_sql h c e n hc) .nil⟩ .nil
  | .having cond, e, n, _, hcond => by
    simp only [Entry.PartsMeet] at hcond
    simp only [Entry.revised, Entry.piece]
    exact .cons ⟨rfl, .cons (h.grouped (Column.related_sql h cond e n hcond)) .nil⟩ .nil
  | .order c, e, n, _, hc => by
    simp only [Entry.PartsMeet] at hc
    simp only [Entry.revised, Entry.piece]
    exact .cons ⟨rfl, .cons (Column.related_sql h c e n hc) .nil⟩ .nil
  | .join target, e, n, _, htarget => by
    simp only [Entry.PartsMeet] at htarget
    simp only [Entry.revised, Entry.piece, Query.onlyProjects_revised, Query.needsName_revised]
    refine .cons ⟨rfl, .cons (h.unmarked (by decide)) ?_⟩ .nil
    exact h.related_target (Query.meets_iff.mp htarget).1 (Query.reference_revised _ target).symm n
      _ (Query.related_sourceTokens h target e n htarget)
      (Query.related_tokens h target e _ htarget) _
  | .joinOn target cond, e, n, _, hparts => by
    simp only [Entry.PartsMeet] at hparts
    obtain ⟨htarget, hcond⟩ := hparts
    simp only [Entry.revised, Entry.piece, Query.onlyProjects_revised, Query.needsName_revised,
      Query.sourceNameCount_revised, Query.nameCount_revised]
    refine .cons ⟨rfl, .cons (h.unmarked (by decide)) (List.rel_append ?_ ?_)⟩ .nil
    · exact h.related_target (Query.meets_iff.mp htarget).1
        (Query.reference_revised _ target).symm n _
        (Query.related_sourceTokens h target e n htarget)
        (Query.related_tokens h target e _ htarget) _
    · exact .cons (h.unmarked (by decide)) (.cons (Column.related_sql h cond e _ hcond) .nil)

theorem Entry.related_pieces (h : Likeness literal d R) :
    ∀ (log : List Entry) (e : Bool) (n : Nat), Entry.AllMeet d log →
      List.Forall₂ (Piece.Related R) (Entry.pieces n log)
        (Entry.pieces n (Entry.revisedLog ⟨literal, e⟩ log))
  | [], _, _, _ => .nil
  | entry :: rest, e, n, hlog => by
    simp only [Entry.AllMeet] at hlog
    simp only [Entry.revisedLog, Entry.pieces, Entry.nameCount_revised]
    exact List.rel_append (Entry.related_piece h entry e n hlog.1.1 hlog.1.2)
      (Entry.related_pieces h rest e _ hlog.2)

theorem Projection.related_piece (h : Likeness literal d R) :
    ∀ (item : Projection) (e : Bool) (n : Nat),
      (∀ a, item.aliasName = some a →
        R (Text.Quoted.identifier a) (Text.Quoted.identifier a)) →
      item.Meets d → Piece.Related R (item.piece n) ((item.revised ⟨literal, e⟩).piece n)
  | ⟨expr, aliasName⟩, e, n, halias, hitem => by
    simp only [Projection.Meets] at hitem
    simp only [Projection.revised, Projection.piece]
    refine ⟨rfl, .cons (Operand.related_sql h expr e n hitem) ?_⟩
    cases aliasName with
    | none => exact .nil
    | some a => exact Statement.related_named h.toCongruence (halias a rfl)

theorem Projection.related_pieces (h : Likeness literal d R) :
    ∀ (items : List Projection) (e : Bool) (n : Nat),
      (∀ (item : Projection) (a : String), item ∈ items → item.aliasName = some a →
        R (Text.Quoted.identifier a) (Text.Quoted.identifier a)) →
      Projection.AllMeet d items →
      List.Forall₂ (Piece.Related R) (Projection.pieces n items)
        (Projection.pieces n (Projection.revisedItems ⟨literal, e⟩ items))
  | [], _, _, _, _ => .nil
  | item :: rest, e, n, halias, hitems => by
    simp only [Projection.AllMeet] at hitems
    simp only [Projection.revisedItems, Projection.pieces, Projection.nameCount_revised]
    exact .cons
      (Projection.related_piece h item e n (halias item · List.mem_cons_self) hitems.1)
      (Projection.related_pieces h rest e _
        (fun other a hother => halias other a (List.mem_cons_of_mem item hother)) hitems.2)

theorem Column.related_sql (h : Likeness literal d R) :
    ∀ (c : Column) (e : Bool) (n : Nat), c.Meets d →
      R (c.sql n) ((c.revised ⟨literal, e⟩).sql n)
  | ⟨base, functions, nullTest⟩, e, n, hc => by
    simp only [Column.Meets] at hc
    have hbody := Base.related_body h base e n (fun name owner => h.ofColumn _ name owner hc.1) hc.2
    simp only [Column.revised, Column.sql]
    exact h.around functions nullTest (Base.isInfix_revised _ base).symm hbody.1 hbody.2

theorem Column.related_rangeSql (h : Likeness literal d R) :
    ∀ (c : Column) (e : Bool) (n : Nat), c.Meets d →
      R (c.rangeSql n) ((c.revised ⟨literal, e⟩).rangeSql n)
  | ⟨base, functions, nullTest⟩, e, n, hc => by
    simp only [Column.Meets] at hc
    have hbody := Base.related_body h base e n (fun name owner => h.ofColumn _ name owner hc.1) hc.2
    simp only [Column.revised, Column.rangeSql, Base.isConjunction_revised]
    split
    · exact hbody.1
    · exact h.around functions nullTest (Base.isInfix_revised _ base).symm hbody.1 hbody.2

/-- The text of a base; of a base that is no infix operator also as the argument of a function. -/
theorem Base.related_body (h : Likeness literal d R) :
    ∀ (b : Base) (e : Bool) (n : Nat),
      (∀ name owner, b = .named name owner →
        Text.Applicable R (Base.nameSql name owner) (Base.nameSql name owner)) →
      b.Meets d →
      R (b.body n) ((b.revised ⟨literal, e⟩).body n) ∧
        (b.isInfix = false → Text.Applicable R (b.body n) ((b.revised ⟨literal, e⟩).body n))
  | .named name owner, e, n, hname, _ => by
    simp only [Base.revised, Base.body]
    exact ⟨(hname name owner rfl).related, fun _ => hname name owner rfl⟩
  | .binary op left right, e, n, _, hb => by
    simp only [Base.Meets] at hb
    have hleft := Operand.related_sql h left e n hb.1
    have hright := Operand.related_sql h right e (n + left.nameCount) hb.2
    have hrange := Operand.related_rangeSql h right e (n + left.nameCount) hb.2
    simp only [Base.revised, Base.body, Operand.nameCount_revised]
    cases op with
    | mod =>
      have hcall := h.applicable_call BinaryOp.mod.symbol (by decide) (by decide)
        (h.joined " , " (by decide) (by decide) hleft hright)
      exact ⟨hcall.related, fun _ => hcall⟩
    | between => exact ⟨h.infixed (BinaryOp.unmarked_symbol _) hleft hrange, nofun⟩
    | _ => exact ⟨h.infixed (BinaryOp.unmarked_symbol _) hleft hright, nofun⟩

theorem Operand.related_sql (h : Likeness literal d R) :
    ∀ (side : Operand) (e : Bool) (n : Nat), side.Meets d →
      R (side.sql n) ((side.revised ⟨literal, e⟩).sql n)
  | .column c, e, n, hside => by
    simp only [Operand.Meets] at hside
    simp only [Operand.revised, Operand.sql]
    exact Column.related_sql h c e n hside
  | .literal v, e, n, hside => by
    simp only [Operand.Meets] at hside
    simp only [Operand.revised, Operand.sql]
    exact h.ofLiteral v hside
  | .query q, e, n, hside => by
    simp only [Operand.Meets] at hside
    simp only [Operand.revised, Operand.sql]
    exact Statement.related_nested h.toCongruence (Query.related_tokens h q e n hside)

theorem Operand.related_rangeSql (h : Likeness literal d R) :
    ∀ (side : Operand) (e : Bool) (n : Nat), side.Meets d →
      R (side.rangeSql n) ((side.revised ⟨literal, e⟩).rangeSql n)
  | .column c, e, n, hside => by
    simp only [Operand.Meets] at hside
    simp only [Operand.revised, Operand.rangeSql]
    exact Column.related_rangeSql h c e n hside
  | .literal v, e, n, hside => by
    simp only [Operand.Meets] at hside
    simp only [Operand.revised, Operand.rangeSql]
    exact h.ofLiteral v hside
  | .query q, e, n, hside => by
    simp only [Operand.Meets] at hside
    simp only [Operand.revised, Operand.rangeSql]
    exact Statement.related_nested h.toCongruence (Query.related_tokens h q e n hside)

end

/-- An operator is no name, so that its text is related without regard to names. -/
theorem Base.related_body_of_isInfix (h : Likeness literal d R) {b : Base}
    (hop : b.isInfix = true) (e : Bool) (n : Nat) (hb : b.Meets d) :
    R (b.body n) ((b.revised ⟨literal, e⟩).body n) := by
  cases b with
  | named name owner => cases hop
  | binary op left right =>
    exact (Base.related_body h (.binary op left right) e n
      (fun _ _ hbase => Base.noConfusion hbase) hb).1

end Tree

end SqlTree
