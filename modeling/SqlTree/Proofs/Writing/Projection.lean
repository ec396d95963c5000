import SqlTree.Proofs.Membership.Revised
import SqlTree.Proofs.Writing.Revised

/-!
# Explicit projections in the text

A query that projects nothing is written with a star, and an explicit projection to all columns is
written as a star too. Main statement: making projections explicit changes neither the tokens of a
query nor its fault, and so a query is compiled as if it were only converted and written.
-/

namespace SqlTree

/-- Equality is kept by writing and holds at all leaves. -/
theorem likeness_eq : Likeness id .nothing (· = ·) where
  unmarked _ := rfl
  joined _ _ _ ha hb := by rw [ha, hb]
  parenthesized ha := by rw [ha]
  grouped ha := by rw [ha]
  regrouped ha := by rw [ha]
  ofLiteral _ _ := rfl
  ofColumn _ _ _ _ _ := ⟨rfl, rfl⟩
  ofTable _ _ _ _ := rfl
  ofQualifier _ _ _ _ := rfl
  ofAlias _ _ _ _ _ _ := rfl
  ofDerivedName _ := rfl

/-- Tokens that are equal one by one are the same. -/
theorem Statement.eq_of_related {tokens tokens' : List String}
    (h : Statement.Related (· = ·) tokens tokens') : tokens = tokens' := by
  rwa [Statement.Related, List.forall₂_eq_eq_eq] at h

/-- Explicit projections are not seen in the tokens of a query. -/
theorem Query.tokens_projected (q : Query) (n : Nat) : q.projected.tokens n = q.tokens n := by
  rw [projected_eq_revised]
  exact (Statement.eq_of_related (related_tokens likeness_eq q true n q.meets_nothing)).symm

/-- Explicit projections are not seen in the text of a column expression. -/
theorem Column.sql_projected (c : Column) (n : Nat) : c.projected.sql n = c.sql n := by
  rw [projected_eq_revised]
  exact (related_sql likeness_eq c true n c.meets_nothing).symm

theorem Column.check_projected (c : Column) : c.projected.check = c.check := by
  rw [projected_eq_revised, check_revised]

theorem Query.check_projected (q : Query) : q.projected.check = q.check := by
  rw [projected_eq_revised, check_revised]

theorem Query.nameCount_projected (q : Query) : q.projected.nameCount = q.nameCount := by
  rw [projected_eq_revised, nameCount_revised]

/-- Explicit projections are not seen in what is written. -/
theorem Query.write_projected (q : Query) : q.projected.write = q.write := by
  rw [write, write, check_projected, tokens_projected]

namespace Query

variable {q : Query} {log rest : List Entry}

/-- The query over explicit arms and sources, with explicit projections before the last entries. -/
def projectedBefore (q : Query) (log rest : List Entry) : Query :=
  { q.revised .projecting with
    log := Revision.projecting.close (log.map (Entry.revised .projecting)) ++
      rest.map (Entry.revised .projecting) }

/-- Where the projection to all columns stands is not seen in the tokens of a query. -/
theorem tokens_projectedBefore (hq : q.source.isCombined = false)
    (hrest : ∀ entry ∈ rest, entry.kind ≠ .select) (n : Nat) :
    (q.projectedBefore log rest).tokens n = ({ q with log := log ++ rest } : Query).tokens n := by
  obtain ⟨source, aliasName, present, limit, distinct, reversed, driver⟩ := q
  simp only at hq
  have hsource : source.tokens n aliasName = (source.revised .projecting).tokens n aliasName :=
    Statement.eq_of_related (Source.related_tokens likeness_eq source true n aliasName
      (fun _ _ => rfl) (fun _ _ => rfl) source.meets_nothing)
  have hpieces (n : Nat) : Piece.Alike (· = ·) (Entry.pieces n (log ++ rest))
      (Entry.pieces n (Revision.projecting.close (log.map (Entry.revised .projecting)) ++
        rest.map (Entry.revised .projecting))) := by
    refine Entry.alike_close_append likeness_eq.toCongruence _ _ ?_ ?_
    · simpa using hrest
    · rw [← List.map_append, ← Entry.revisedLog_eq_map]
      exact Entry.related_pieces likeness_eq (log ++ rest) true n (Entry.allMeet_nothing _)
  simp only [projectedBefore, Query.revised, Query.tokens,
    Source.isCombined_revised, Source.needsName_revised, Source.nameCount_revised, hq, ← hsource,
    Bool.false_eq_true, if_false]
  refine (Statement.eq_of_related (List.rel_append ?_ ?_)).symm
  · exact Statement.related_select likeness_eq.toCongruence distinct
      (List.forall₂_same.mpr fun _ _ => rfl) (hpieces _)
  · exact Statement.related_trailing likeness_eq.toCongruence reversed limit (hpieces _)

theorem has_projectedBefore {kind : EntryKind} (hkind : kind ≠ .select) :
    (q.projectedBefore log rest).has kind = ({ q with log := log ++ rest } : Query).has kind := by
  simp only [has, projectedBefore, List.any_append, Revision.any_kind_close _ hkind, List.any_map,
    Function.comp_def, Entry.kind_revised]

/-- Where the projection to all columns stands is not seen in the fault of a query. -/
theorem check_projectedBefore (hq : q.source.isCombined = false) :
    (q.projectedBefore log rest).check = ({ q with log := log ++ rest } : Query).check := by
  have hgroups : (q.projectedBefore log rest).checkGroups =
      ({ q with log := log ++ rest } : Query).checkGroups := by
    unfold checkGroups
    rw [has_projectedBefore (by decide), has_projectedBefore (by decide)]
    simp [projectedBefore, reference]
  have hchecks : Entry.checks (Revision.projecting.close (log.map (Entry.revised .projecting)) ++
      rest.map (Entry.revised .projecting)) = Entry.checks (log ++ rest) := by
    rw [Entry.checks_append, Entry.checks_close, ← Entry.checks_append, ← List.map_append,
      ← Entry.revisedLog_eq_map, Entry.checks_revisedLog]
  obtain ⟨source, aliasName, present, limit, distinct, reversed, driver⟩ := q
  have hop : source.setOp? = none := by simpa [Source.isCombined] using hq
  simp only [projectedBefore, Query.revised] at hgroups
  simp only [projectedBefore, Query.revised, Query.check,
    Source.setOp?_revised, Source.check_revised, hop, hgroups, hchecks]

/-- A conversion under explicit projections is written as one without them. -/
theorem write_membership?_projected (q : Query) :
    (q.projected.membership?.getD q.projected).write = (q.membership?.getD q).write := by
  have hwrite := q.write_projected
  rw [projected_eq_revised] at hwrite ⊢
  rw [membership?_revised]
  unfold membership?
  cases hcombined : q.source.isCombined with
  | true => exact hwrite
  | false =>
    cases takeFirst? (Entry.membership? q.reference) q.log with
    | none => exact hwrite
    | some found =>
      obtain ⟨cond, others⟩ := found
      have hrest : ∀ entry ∈ [Entry.filter cond], entry.kind ≠ .select := by simp [Entry.kind]
      change (q.projectedBefore others [.filter cond]).write =
        ({ q with log := others ++ [.filter cond] } : Query).write
      rw [write, write, check_projectedBefore hcombined, tokens_projectedBefore hcombined hrest]

/-- Explicit projections are made once, and they are not seen: not in the tokens of a query, in the
number of names that it takes, in its fault, or in its statement after a conversion. -/
theorem explicit_projections_unseen (q : Query) :
    q.projected.projected = q.projected ∧
      (∀ n, q.projected.tokens n = q.tokens n) ∧
      q.projected.nameCount = q.nameCount ∧
      q.projected.check = q.check ∧
      q.projected.write = q.write ∧
      q.compile = (q.membership?.getD q).write :=
  ⟨q.projected_projected, q.tokens_projected, q.nameCount_projected, q.check_projected,
    q.write_projected, q.write_membership?_projected⟩

end Query

end SqlTree
