import SqlTree.Proofs.Membership.Repeated
import SqlTree.Proofs.Membership.Shorter
import Mathlib.Data.List.Induction

/-!
# When a memory is up to date

A query is compiled with one existence test converted. A conversion in place of a query that
remembers its SQL converts that test for good, so compiling it anew would convert the next one, and
the memory is not emptied. Main statements: no other operation makes a memory late, and what is
answered from memory is what the query is compiled to exactly if no conversion in place found both
an SQL in memory and a second test that qualifies since the memory was last emptied.
-/

namespace SqlTree.Remembered

/-- What may be done to a query that remembers its SQL. -/
inductive Operation where
  /-- Copy it with its memory. -/
  | copy
  /-- Derive a new query from it; if that fails, it is kept. -/
  | derive (operation : Query → Except Error Query)
  /-- Project its rows. -/
  | select (items : List Projection)
  /-- Compile it. -/
  | compile
  /-- Make its projections explicit in place. -/
  | makeProjected
  /-- Convert its first qualifying existence test in place. -/
  | makeMembership

/-- The query at hand after an operation. -/
def apply (r : Remembered) : Operation → Remembered
  | .copy => r
  | .derive operation =>
    match r.derive operation with
    | .ok derived => derived
    | .error _ => r
  | .select items => r.select items
  | .compile => r.compile.2
  | .makeProjected => r.makeProjected
  | .makeMembership => r.makeMembership.2

/-- The query at hand after a sequence of operations. -/
def after (r : Remembered) (operations : List Operation) : Remembered := operations.foldl apply r

/-- A conversion would leave a test to convert, but the SQL is in memory. -/
def Outdates (r : Remembered) (operation : Operation) : Prop :=
  operation = .makeMembership ∧ r.sql.isSome = true ∧ 2 ≤ r.query.qualifying.length

/-- Some conversion in place found SQL in memory and a second test that qualifies, and the memory
was not emptied since. -/
def IsLate (r : Remembered) (operations : List Operation) : Prop :=
  ∃ before operation rest, operations = before ++ operation :: rest ∧
    (r.after before).Outdates operation ∧
    ∀ part, part <+: rest → (r.after (before ++ operation :: part)).sql.isSome = true

/-- What is remembered is what the query is compiled to. -/
def Fresh (r : Remembered) : Prop := ∀ sql, r.sql = some sql → r.query.compile = .ok sql

/-- What is remembered has more blanks than what the query is compiled to. -/
def Stale (r : Remembered) : Prop :=
  ∃ sql text, r.sql = some sql ∧ r.query.compile = .ok text ∧ Text.blanks text < Text.blanks sql

variable {r : Remembered}

theorem after_concat (operations : List Operation) (operation : Operation) :
    r.after (operations ++ [operation]) = (r.after operations).apply operation := by
  simp [after]

theorem Fresh.of_sql_eq_none (h : r.sql = none) : r.Fresh := by
  intro sql hsql
  rw [h] at hsql
  cases hsql

/-- A fresh memory answers as the query does. -/
theorem Fresh.compile_eq (h : r.Fresh) : r.compile.1 = r.query.compile := by
  unfold compile
  cases hsql : r.sql with
  | some sql => exact (h sql hsql).symm
  | none => cases r.query.compile <;> rfl

/-- A stale memory answers with other SQL. -/
theorem Stale.compile_ne (h : r.Stale) : r.compile.1 ≠ r.query.compile := by
  obtain ⟨sql, text, hsql, htext, hblanks⟩ := h
  have hanswer : r.compile.1 = .ok sql := by simp [compile, hsql]
  rw [hanswer, htext]
  rintro he
  cases he
  exact Nat.lt_irrefl _ hblanks

/-- Compiling fills the memory with what the query is compiled to, or leaves it. -/
theorem Fresh.compiled (h : r.Fresh) : r.compile.2.Fresh := by
  unfold compile
  cases hsql : r.sql with
  | some sql => exact h
  | none =>
    cases hcompile : r.query.compile with
    | error e => exact h
    | ok text =>
      intro sql hmemory
      obtain rfl : text = sql := Option.some.inj hmemory
      exact hcompile

/-- Explicit projections are not seen in the SQL. -/
theorem compile_makeProjected (r : Remembered) :
    r.makeProjected.query.compile = r.query.compile := by
  simp only [makeProjected, Query.compile, Query.prepared, Query.projected_projected]

/-- An operation that derives a new query starts with an empty memory. -/
theorem sql_apply_derive (r : Remembered) (operation : Query → Except Error Query) :
    (r.apply (.derive operation)).sql = none ∨ r.apply (.derive operation) = r := by
  simp only [apply, derive]
  cases operation r.query with
  | ok q => exact Or.inl rfl
  | error e => exact Or.inr rfl

theorem sql_apply_select (r : Remembered) (items : List Projection) :
    (r.apply (.select items)).sql = none ∨ r.apply (.select items) = r := by
  simp only [apply, select]
  split
  · exact Or.inr rfl
  · exact Or.inl rfl

/-- A conversion in place does not make a fresh memory late if it leaves no test to convert. -/
theorem Fresh.converted (h : r.Fresh) (hone : ¬ r.Outdates .makeMembership) :
    r.makeMembership.2.Fresh := by
  cases hmembership : r.query.membership? with
  | none => rwa [makeMembership_of_eq_none hmembership]
  | some q =>
    rw [makeMembership_of_eq_some hmembership]
    intro sql hsql
    obtain ⟨_, hleft⟩ := Query.qualifying_of_membership? hmembership
    have hlast : q.membership? = none := by
      refine Query.membership?_eq_none_of_qualifying_eq_nil ?_
      rw [hleft, ← List.length_eq_zero_iff, List.length_tail]
      have hfew : ¬ 2 ≤ r.query.qualifying.length := fun htwo =>
        hone ⟨rfl, Option.isSome_iff_exists.mpr ⟨sql, hsql⟩, htwo⟩
      omega
    exact (Query.compile_eq_of_membership?_eq_none hmembership hlast).trans (h sql hsql)

/-- No other operation makes a fresh memory late. -/
theorem Fresh.apply (h : r.Fresh) {operation : Operation} (hin : ¬ r.Outdates operation) :
    (r.apply operation).Fresh := by
  cases operation with
  | copy => exact h
  | derive operation =>
    rcases r.sql_apply_derive operation with hnone | hsame
    · exact .of_sql_eq_none hnone
    · rwa [hsame]
  | select items =>
    rcases r.sql_apply_select items with hnone | hsame
    · exact .of_sql_eq_none hnone
    · rwa [hsame]
  | compile => exact h.compiled
  | makeProjected =>
    intro sql hsql
    exact r.compile_makeProjected.trans (h sql hsql)
  | makeMembership => exact h.converted hin

/-- A conversion in place that leaves a test to convert makes a fresh memory stale. -/
theorem Fresh.stale_of_outdates (h : r.Fresh) {operation : Operation}
    (hout : r.Outdates operation) : (r.apply operation).Stale := by
  obtain ⟨rfl, hfilled, htwo⟩ := hout
  obtain ⟨sql, hsql⟩ := Option.isSome_iff_exists.mp hfilled
  have hsome : r.query.membership?.isSome = true := by
    rw [Query.membership?_isSome_iff, ← List.length_pos_iff]
    omega
  obtain ⟨q, hfirst⟩ := Option.isSome_iff_exists.mp hsome
  have hnext : q.membership?.isSome = true := by
    rw [Query.membership?_isSome_iff, (Query.qualifying_of_membership? hfirst).2,
      ← List.length_pos_iff, List.length_tail]
    omega
  obtain ⟨q', hsecond⟩ := Option.isSome_iff_exists.mp hnext
  obtain ⟨text, htext, hblanks⟩ := Query.exists_compile_of_membership? hfirst hsecond (h sql hsql)
  rw [Remembered.apply, makeMembership_of_eq_some hfirst]
  exact ⟨sql, text, hsql, htext, hblanks⟩

/-- A conversion in place of a query with a stale memory leaves as many blanks in what the query is
compiled to, or fewer. -/
theorem Stale.converted (h : r.Stale) : r.makeMembership.2.Stale := by
  obtain ⟨sql, text, hsql, htext, hblanks⟩ := h
  cases hfirst : r.query.membership? with
  | none =>
    rw [makeMembership_of_eq_none hfirst]
    exact ⟨sql, text, hsql, htext, hblanks⟩
  | some q =>
    rw [makeMembership_of_eq_some hfirst]
    cases hsecond : q.membership? with
    | none =>
      have hsame := Query.compile_eq_of_membership?_eq_none hfirst hsecond
      exact ⟨sql, text, hsql, hsame.trans htext, hblanks⟩
    | some q' =>
      obtain ⟨text', htext', hless⟩ := Query.exists_compile_of_membership? hfirst hsecond htext
      exact ⟨sql, text', hsql, htext', Nat.lt_trans hless hblanks⟩

/-- A stale memory stays stale as long as it is not emptied. -/
theorem Stale.apply (h : r.Stale) {operation : Operation}
    (hfilled : (r.apply operation).sql.isSome = true) : (r.apply operation).Stale := by
  cases operation with
  | copy => exact h
  | derive operation =>
    rcases r.sql_apply_derive operation with hnone | hsame
    · rw [hnone] at hfilled
      cases hfilled
    · rwa [hsame]
  | select items =>
    rcases r.sql_apply_select items with hnone | hsame
    · rw [hnone] at hfilled
      cases hfilled
    · rwa [hsame]
  | compile =>
    obtain ⟨sql, text, hsql, htext, hblanks⟩ := h
    have hkept : r.compile.2 = r := by simp [Remembered.compile, hsql]
    rw [Remembered.apply, hkept]
    exact ⟨sql, text, hsql, htext, hblanks⟩
  | makeProjected =>
    obtain ⟨sql, text, hsql, htext, hblanks⟩ := h
    exact ⟨sql, text, hsql, r.compile_makeProjected.trans htext, hblanks⟩
  | makeMembership => exact h.converted

/-- A memory is late after one more operation if it is filled then, and it was late before or the
operation has outdated it. -/
theorem isLate_concat_iff {operations : List Operation} {operation : Operation} :
    r.IsLate (operations ++ [operation]) ↔
      (r.after (operations ++ [operation])).sql.isSome = true ∧
        (r.IsLate operations ∨ (r.after operations).Outdates operation) := by
  constructor
  · rintro ⟨before, outdating, rest, he, hout, hfilled⟩
    have hlast := hfilled rest List.prefix_rfl
    rw [← he] at hlast
    refine ⟨hlast, ?_⟩
    rcases List.eq_nil_or_concat rest with rfl | ⟨front, last, rfl⟩
    · obtain ⟨rfl, hsame⟩ := List.append_inj' he rfl
      obtain rfl := List.singleton_injective hsame
      exact Or.inr hout
    · rw [List.concat_eq_append] at he hfilled
      rw [← List.cons_append, ← List.append_assoc] at he
      obtain ⟨rfl, -⟩ := List.append_inj' he rfl
      exact Or.inl ⟨before, outdating, front, rfl, hout, fun part hpart =>
        hfilled part (hpart.trans (List.prefix_append front [last]))⟩
  · rintro ⟨hlast, ⟨before, outdating, rest, rfl, hout, hfilled⟩ | hout⟩
    · refine ⟨before, outdating, rest ++ [operation], by simp, hout, fun part hpart => ?_⟩
      rcases List.prefix_concat_iff.mp hpart with rfl | hpart
      · simpa using hlast
      · exact hfilled part hpart
    · refine ⟨operations, operation, [], rfl, hout, fun part hpart => ?_⟩
      rw [List.prefix_nil.mp hpart]
      exact hlast

/-- After any operations on a query that was not compiled yet its memory is fresh, or late and
stale. -/
theorem fresh_or_stale_after (q : Query) (operations : List Operation) :
    ¬ (ofQuery q).IsLate operations ∧ ((ofQuery q).after operations).Fresh ∨
      (ofQuery q).IsLate operations ∧ ((ofQuery q).after operations).Stale := by
  induction operations using List.reverseRecOn with
  | nil =>
    refine Or.inl ⟨?_, .of_sql_eq_none rfl⟩
    rintro ⟨before, operation, rest, he, -⟩
    simp at he
  | append_singleton operations operation ih =>
    simp only [isLate_concat_iff, after_concat]
    cases hsql : (((ofQuery q).after operations).apply operation).sql with
    | none => exact Or.inl ⟨by simp, .of_sql_eq_none hsql⟩
    | some sql =>
      have hfilled : (((ofQuery q).after operations).apply operation).sql.isSome = true := by
        rw [hsql]
        rfl
      rcases ih with ⟨hlate, hfresh⟩ | ⟨hlate, hstale⟩
      · by_cases hout : ((ofQuery q).after operations).Outdates operation
        · exact Or.inr ⟨⟨rfl, Or.inr hout⟩, hfresh.stale_of_outdates hout⟩
        · exact Or.inl ⟨fun h => h.2.elim hlate hout, hfresh.apply hout⟩
      · exact Or.inr ⟨⟨rfl, Or.inl hlate⟩, hstale.apply hfilled⟩

/-- Whatever was done to a query, it answers with what it is compiled to, unless a conversion in
place found both an SQL in memory and a second existence test that qualifies, and the memory was not
emptied since. -/
theorem compile_eq_iff_not_isLate (q : Query) (operations : List Operation) :
    ((ofQuery q).after operations).compile.1 = ((ofQuery q).after operations).query.compile ↔
      ¬ (ofQuery q).IsLate operations := by
  rcases fresh_or_stale_after q operations with ⟨hlate, hfresh⟩ | ⟨hlate, hstale⟩
  · exact iff_of_true hfresh.compile_eq hlate
  · exact iff_of_false hstale.compile_ne fun h => h hlate

/-- A query with two existence tests is compiled with the first of them converted. When it is
converted in place, the other one would be converted too, but the SQL in memory stays. -/
theorem not_forall_compile_eq :
    matchingTwice.qualifying.length = 2 ∧
    ((ofQuery matchingTwice).after [.compile, .makeMembership]).compile.1 =
      .ok ("SELECT * FROM t1 WHERE (EXISTS (SELECT * FROM t3 WHERE (t3.a = 5) AND (t3.id = t1.id)))"
        ++ " AND (t1.id IN (SELECT t2.id FROM t2 WHERE (t2.a = 5)));") ∧
    ((ofQuery matchingTwice).after [.compile, .makeMembership]).query.compile =
      .ok ("SELECT * FROM t1 WHERE (t1.id IN (SELECT t2.id FROM t2 WHERE (t2.a = 5)))"
        ++ " AND (t1.id IN (SELECT t3.id FROM t3 WHERE (t3.a = 5)));") ∧
    ¬ ∀ (q : Query) (operations : List Operation),
      ((ofQuery q).after operations).compile.1 = ((ofQuery q).after operations).query.compile := by
  have hremembered : ((ofQuery matchingTwice).after [.compile, .makeMembership]).compile.1 =
      .ok ("SELECT * FROM t1 WHERE (EXISTS (SELECT * FROM t3 WHERE (t3.a = 5) AND (t3.id = t1.id)))"
        ++ " AND (t1.id IN (SELECT t2.id FROM t2 WHERE (t2.a = 5)));") := by
    decide +kernel
  have hwritten : ((ofQuery matchingTwice).after [.compile, .makeMembership]).query.compile =
      .ok ("SELECT * FROM t1 WHERE (t1.id IN (SELECT t2.id FROM t2 WHERE (t2.a = 5)))"
        ++ " AND (t1.id IN (SELECT t3.id FROM t3 WHERE (t3.a = 5)));") := by
    decide +kernel
  refine ⟨by decide +kernel, hremembered, hwritten, fun hall => ?_⟩
  have hsame := hall matchingTwice [.compile, .makeMembership]
  rw [hremembered, hwritten] at hsame
  exact absurd hsame (by decide +kernel)

end SqlTree.Remembered
