import SqlTree.Proofs.Membership.Projected
import SqlTree.Proofs.Writing.Congruence
import SqlTree.Proofs.Writing.Nameless

/-!
# Logs that interleave the same entries

A clause of a statement takes its parts from the entries of one kind, in the order of the log. Main
statements: the existence test that is converted, the faults of a log and the clauses of a statement
depend on the entries of each kind alone, so two queries whose logs interleave the same entries are
compiled to the same SQL, or neither is compiled.
-/

namespace SqlTree

/-- The entries of one kind, in their order. -/
def Entry.ofKind (kind : EntryKind) (log : List Entry) : List Entry :=
  log.filter fun entry => entry.kind == kind

/-- Two logs have the same entries of each kind in the same order, interleaved in one way or
another. -/
def Entry.Interleaved (log log' : List Entry) : Prop :=
  ∀ kind, Entry.ofKind kind log = Entry.ofKind kind log'

/-- Two queries differ at most in how their logs interleave the same entries, and in their
drivers. -/
structure Query.Interleaved (q q' : Query) : Prop where
  source : q.source = q'.source
  aliasName : q.aliasName = q'.aliasName
  log : Entry.Interleaved q.log q'.log
  limit : q.limit = q'.limit
  distinct : q.distinct = q'.distinct
  reversed : q.reversed = q'.reversed

/-- The clause that entries of the kind contribute to. -/
def EntryKind.clause : EntryKind → Clause
  | .select => .projection
  | .filter => .filter
  | .whereExists => .existence
  | .group => .grouping
  | .having => .having
  | .order => .ordering
  | .join => .join

theorem EntryKind.clause_injective {kind kind' : EntryKind} (h : kind.clause = kind'.clause) :
    kind = kind' := by
  revert h
  cases kind <;> cases kind' <;> decide

theorem EntryKind.exists_clause_eq (clause : Clause) :
    ∃ kind : EntryKind, kind.clause = clause := by
  cases clause with
  | projection => exact ⟨.select, rfl⟩
  | join => exact ⟨.join, rfl⟩
  | existence => exact ⟨.whereExists, rfl⟩
  | filter => exact ⟨.filter, rfl⟩
  | grouping => exact ⟨.group, rfl⟩
  | having => exact ⟨.having, rfl⟩
  | ordering => exact ⟨.order, rfl⟩

/-- The other elements of a kind are the same if an element of another kind was taken, and one less
if one of that kind was. -/
theorem takeFirst?_filter {α β : Type} {f : α → Option β} {p : α → Bool}
    (hp : ∀ a, (f a).isSome = true → p a = true) (l : List α) :
    takeFirst? f (l.filter p) =
      (takeFirst? f l).map (Prod.map id (List.filter p)) := by
  induction l with
  | nil => rfl
  | cons a rest ih =>
    cases ha : f a with
    | some b =>
      have hkeep : p a = true := hp a (by rw [ha]; rfl)
      simp [takeFirst?, ha, hkeep]
    | none =>
      by_cases hkeep : p a = true
      · simp [takeFirst?, ha, hkeep, ih, Option.map_map, Function.comp_def]
      · simp only [takeFirst?, ha, List.filter_cons_of_neg hkeep, ih, Option.map_map]
        congr 1
        funext found
        obtain ⟨b, others⟩ := found
        simp [hkeep]

namespace Entry

theorem mem_ofKind_iff {kind : EntryKind} {entry : Entry} {log : List Entry} :
    entry ∈ ofKind kind log ↔ entry ∈ log ∧ entry.kind = kind := by
  simp [ofKind]

theorem ofKind_append (kind : EntryKind) (log log' : List Entry) :
    ofKind kind (log ++ log') = ofKind kind log ++ ofKind kind log' :=
  List.filter_append log log'

namespace Interleaved

variable {log log' : List Entry} (h : Interleaved log log')
include h

theorem mem_iff (entry : Entry) : entry ∈ log ↔ entry ∈ log' := by
  have hkind : entry ∈ ofKind entry.kind log ↔ entry ∈ ofKind entry.kind log' := by
    rw [h entry.kind]
  simpa only [mem_ofKind_iff, and_true] using hkind

/-- Whether some entry is as asked does not depend on the order of the log. -/
theorem any_eq (p : Entry → Bool) : log.any p = log'.any p := by
  rw [Bool.eq_iff_iff, List.any_eq_true, List.any_eq_true]
  simp only [h.mem_iff]

/-- The entries may be replaced by others of their kinds. -/
theorem map {f : Entry → Entry} (hf : ∀ entry, (f entry).kind = entry.kind) :
    Interleaved (log.map f) (log'.map f) := by
  have hmap (log : List Entry) (kind : EntryKind) :
      ofKind kind (log.map f) = (ofKind kind log).map f := by
    simp only [ofKind, List.filter_map, Function.comp_def, hf]
  intro kind
  rw [hmap, hmap, h kind]

theorem append (last : List Entry) : Interleaved (log ++ last) (log' ++ last) := by
  intro kind
  rw [ofKind_append, ofKind_append, h kind]

theorem withSelect : Interleaved (Entry.withSelect log) (Entry.withSelect log') := by
  unfold Entry.withSelect
  rw [← h.any_eq]
  split
  · exact h
  · exact h.append _

/-- A search for an entry of one kind finds the same in both logs, and leaves the same entries of
each kind. -/
theorem takeFirst? {β : Type} {f : Entry → Option β} {kind : EntryKind}
    (hf : ∀ entry, (f entry).isSome = true → entry.kind = kind) :
    (takeFirst? f log = none ∧ takeFirst? f log' = none) ∨
      ∃ b others others', takeFirst? f log = some (b, others) ∧
        takeFirst? f log' = some (b, others') ∧ Interleaved others others' := by
  have hfind (log : List Entry) : SqlTree.takeFirst? f (ofKind kind log) =
      (SqlTree.takeFirst? f log).map (Prod.map id (ofKind kind)) :=
    takeFirst?_filter (fun entry hentry => beq_iff_eq.mpr (hf entry hentry)) log
  have hothers {log others : List Entry} {b : β} {kind' : EntryKind} (hkind : kind' ≠ kind)
      (htake : SqlTree.takeFirst? f log = some (b, others)) :
      ofKind kind' others = ofKind kind' log := by
    obtain ⟨before, entry, after, rfl, _, hentry, rfl⟩ := takeFirst?_eq_some_iff.mp htake
    have hne : (entry.kind == kind') = false := by
      rw [hf entry (by rw [hentry]; rfl)]
      exact beq_eq_false_iff_ne.mpr hkind.symm
    simp [ofKind, hne]
  have hsame := hfind log
  rw [h kind, hfind log'] at hsame
  cases htake : SqlTree.takeFirst? f log with
  | none =>
    rw [htake, Option.map_none, Option.map_eq_none_iff] at hsame
    exact .inl ⟨rfl, hsame⟩
  | some found =>
    obtain ⟨b, others⟩ := found
    rw [htake, Option.map_some, Option.map_eq_some_iff] at hsame
    obtain ⟨⟨b', others'⟩, htake', he⟩ := hsame
    obtain ⟨rfl, hkept⟩ := Prod.mk.inj he
    refine .inr ⟨_, others, others', rfl, htake', fun kind' => ?_⟩
    by_cases hkind : kind' = kind
    · rw [hkind, hkept]
    · rw [hothers hkind htake, hothers hkind htake', h kind']

end Interleaved

/-- A log can be written if its entries can. -/
theorem checks_eq_ok_iff {log : List Entry} :
    checks log = .ok () ↔ ∀ entry ∈ log, entry.check = .ok () := by
  induction log with
  | nil => simp [checks]
  | cons entry rest ih =>
    rw [checks, List.forall_mem_cons, ← ih]
    cases entry.check <;> simp [bind, Except.bind]

/-- The log of a set operation can be written if it holds orderings that can. -/
theorem checkOrders_eq_ok_iff {op : SetOp} {log : List Entry} :
    checkOrders op log = .ok () ↔ ∀ entry ∈ log, entry.kind = .order ∧ entry.check = .ok () := by
  induction log with
  | nil => simp [checkOrders]
  | cons entry rest ih =>
    rw [checkOrders, List.forall_mem_cons, ← ih]
    by_cases hkind : entry.kind = .order
    · cases entry.check <;> simp [hkind, bind, Except.bind]
    · simp [hkind]

theorem nameCounts_eq_zero_iff {log : List Entry} :
    nameCounts log = 0 ↔ ∀ entry ∈ log, entry.nameCount = 0 := by
  induction log with
  | nil => simp [nameCounts]
  | cons entry rest ih => rw [nameCounts, Nat.add_eq_zero_iff, List.forall_mem_cons, ih]

/-- An entry contributes to the clause of its kind. -/
theorem clause_of_mem_piece {entry : Entry} {n : Nat} {piece : Piece}
    (h : piece ∈ entry.piece n) : piece.clause = entry.kind.clause := by
  cases entry with
  | select items =>
    rw [Entry.piece] at h
    induction items generalizing n with
    | nil => cases h
    | cons item rest ih =>
      rw [Projection.pieces, List.mem_cons] at h
      rcases h with rfl | h
      · cases item
        simp only [Projection.piece]
        rfl
      · exact ih h
  | _ =>
    rw [Entry.piece, List.mem_singleton] at h
    subst h
    rfl

/-- An entry contributes to no clause of another kind. -/
theorem select_piece_eq_nil {entry : Entry} {kind : EntryKind} (h : entry.kind ≠ kind) (n : Nat) :
    Piece.select kind.clause (entry.piece n) = [] :=
  List.filterMap_eq_nil_iff.mpr fun _ hpiece => if_neg fun hclause =>
    h (EntryKind.clause_injective ((clause_of_mem_piece hpiece).symm.trans hclause))

/-- A clause without names of derived tables is written from the entries of its kind. -/
theorem select_pieces_eq (kind : EntryKind) {log : List Entry} (h : nameCounts log = 0) (n : Nat) :
    Piece.select kind.clause (pieces n log) =
      (ofKind kind log).flatMap fun entry => Piece.select kind.clause (entry.piece 0) := by
  induction log generalizing n with
  | nil => rfl
  | cons entry rest ih =>
    rw [nameCounts, Nat.add_eq_zero_iff] at h
    rw [pieces, Piece.select_append, ih h.2, piece_congr entry n 0 h.1]
    by_cases hkind : entry.kind = kind
    · simp [ofKind, hkind]
    · simp [ofKind, hkind, select_piece_eq_nil hkind]

end Entry

/-- The clauses up to the filters of groups are made of what the pieces contribute to each. -/
theorem Statement.select_congr {pieces pieces' : List Piece}
    (h : ∀ clause, Piece.select clause pieces = Piece.select clause pieces') (distinct : Bool)
    (source : List String) : select distinct source pieces = select distinct source pieces' := by
  simp only [select, h]

theorem Statement.trailing_congr {pieces pieces' : List Piece}
    (h : ∀ clause, Piece.select clause pieces = Piece.select clause pieces') (reversed : Bool)
    (limit : Option Nat) : trailing reversed limit pieces = trailing reversed limit pieces' := by
  simp only [trailing, h]

namespace Query.Interleaved

variable {q q' : Query} (h : q.Interleaved q')
include h

theorem reference_eq : q.reference = q'.reference := by
  rw [reference, reference, h.source, h.aliasName]

theorem has_eq (kind : EntryKind) : q.has kind = q'.has kind := h.log.any_eq _

/-- Explicit projections are made alike. -/
theorem projected : q.projected.Interleaved q'.projected := by
  obtain ⟨source, aliasName, log, limit, distinct, reversed, driver⟩ := q
  obtain ⟨source', aliasName', log', limit', distinct', reversed', driver'⟩ := q'
  obtain ⟨rfl, rfl, hlog, rfl, rfl, rfl⟩ := h
  simp only [Query.projected]
  refine ⟨rfl, rfl, ?_, rfl, rfl, rfl⟩
  split
  · exact hlog
  · rw [Entry.projectedLog_eq_map, Entry.projectedLog_eq_map]
    exact (hlog.map Entry.kind_projected).withSelect

/-- The same existence test is converted in both queries, or none is in either. -/
theorem getD_membership? :
    (q.membership?.getD q).Interleaved (q'.membership?.getD q') := by
  unfold membership?
  rw [← h.source, ← h.reference_eq]
  cases q.source.isCombined with
  | true => simpa using h
  | false =>
    have hkind (entry : Entry) (hentry : (entry.membership? q.reference).isSome = true) :
        entry.kind = .whereExists := by
      obtain ⟨cond, hcond⟩ := Option.isSome_iff_exists.mp hentry
      obtain ⟨sub, rfl⟩ := Entry.eq_whereExists_of_membership? hcond
      rfl
    rcases h.log.takeFirst? hkind with ⟨hnone, hnone'⟩ |
        ⟨cond, others, others', hfound, hfound', hothers⟩
    · simpa [hnone, hnone'] using h
    · simp only [Bool.false_eq_true, if_false, hfound, hfound', Option.bind_eq_bind,
        Option.bind_some, Option.pure_def, Option.getD_some]
      exact ⟨rfl, h.aliasName, hothers.append _, h.limit, h.distinct, h.reversed⟩

theorem prepared : q.prepared.Interleaved q'.prepared := h.projected.getD_membership?

/-- Both queries can be written, or neither can. -/
theorem check_eq_ok_iff : q.check = .ok () ↔ q'.check = .ok () := by
  have hgroups : q.checkGroups = q'.checkGroups := by
    rw [checkGroups, checkGroups, h.has_eq, h.has_eq, h.reference_eq]
  obtain ⟨source, aliasName, log, limit, distinct, reversed, driver⟩ := q
  obtain ⟨source', aliasName', log', limit', distinct', reversed', driver'⟩ := q'
  obtain ⟨rfl, rfl, hlog, rfl, rfl, rfl⟩ := h
  have hand {first second : Except Error Unit} :
      (first.bind fun _ => second) = .ok () ↔ first = .ok () ∧ second = .ok () := by
    cases first <;> simp [Except.bind]
  simp only [Query.check, hgroups]
  cases source.setOp? with
  | some op =>
    simp only [bind, hand, Entry.checkOrders_eq_ok_iff, hlog.mem_iff]
  | none =>
    simp only [bind, hand, Entry.checks_eq_ok_iff, hlog.mem_iff]

theorem nameCount_eq_zero_iff : q.nameCount = 0 ↔ q'.nameCount = 0 := by
  obtain ⟨source, aliasName, log, limit, distinct, reversed, driver⟩ := q
  obtain ⟨source', aliasName', log', limit', distinct', reversed', driver'⟩ := q'
  obtain ⟨rfl, rfl, hlog, rfl, rfl, rfl⟩ := h
  simp only [Query.nameCount, Nat.add_eq_zero_iff, Entry.nameCounts_eq_zero_iff, hlog.mem_iff]

/-- Without names of derived tables both queries have the same tokens. -/
theorem tokens_eq (hnames : q.nameCount = 0) (n : Nat) : q.tokens n = q'.tokens n := by
  have hnames' := h.nameCount_eq_zero_iff.mp hnames
  obtain ⟨source, aliasName, log, limit, distinct, reversed, driver⟩ := q
  obtain ⟨source', aliasName', log', limit', distinct', reversed', driver'⟩ := q'
  obtain ⟨rfl, rfl, hlog, rfl, rfl, rfl⟩ := h
  simp only [Query.nameCount, Nat.add_eq_zero_iff] at hnames hnames'
  have hpieces (n : Nat) (clause : Clause) :
      Piece.select clause (Entry.pieces n log) = Piece.select clause (Entry.pieces n log') := by
    obtain ⟨kind, rfl⟩ := EntryKind.exists_clause_eq clause
    rw [Entry.select_pieces_eq kind hnames.2, Entry.select_pieces_eq kind hnames'.2, hlog kind]
  simp only [Query.tokens, hnames.2, hnames'.2, Statement.select_congr (hpieces _),
    Statement.trailing_congr (hpieces _)]

/-- The order of entries matters only within one clause: of two queries whose logs interleave the
same entries one is compiled if the other is, and to the same SQL if no derived table is named. -/
theorem compile_alike :
    ((∃ e, q.compile = .error e) ↔ ∃ e, q'.compile = .error e) ∧
      (q.prepared.nameCount = 0 → ∀ sql, q.compile = .ok sql ↔ q'.compile = .ok sql) := by
  have hcheck := h.prepared.check_eq_ok_iff
  have herror (q : Query) : (∃ e, q.compile = .error e) ↔ ¬ q.prepared.check = .ok () := by
    simp only [compile, write_eq_error_iff]
    cases q.prepared.check <;> simp
  constructor
  · rw [herror, herror, hcheck]
  · intro hnames sql
    rw [compile, compile, write_eq_ok_iff, write_eq_ok_iff, hcheck, h.prepared.tokens_eq hnames]

end Query.Interleaved

/-- A filter, an ordering and a projection on either side of an existence test that is converted,
and a set operation that is filtered before or after it is ordered. -/
theorem Query.Interleaved.compile_alike_converted :
    let t : Query := .ofTable "t"
    let s : Query := .ofTable "s"
    let kept : Entry := .filter ((t.column "a").combine .gt (.literal (.int 1)))
    let ordered : Entry := .order (t.column "b")
    let items : Entry := .select [⟨.column (t.column "c"), none⟩]
    let sub : Query := { s with log := [
      .filter ((s.column "x").combine .eq (.literal (.int 5))),
      .filter ((s.column "id").combine .eq (.column (t.column "id")))] }
    let q : Query := { t with log := [kept, .whereExists sub, ordered, items] }
    let q' : Query := { t with log := [items, .whereExists sub, ordered, kept] }
    let both : Query := .combine .union t s
    let u : Query := { both with log := [ordered, kept] }
    let u' : Query := { both with log := [kept, ordered] }
    let sql := "SELECT t.c FROM t WHERE (t.a > 1) AND " ++
      "(t.id IN (SELECT s.id FROM s WHERE (s.x = 5))) ORDER BY t.b ASC;"
    (q.Interleaved q' ∧ q.prepared.nameCount = 0 ∧ q.compile = .ok sql ∧ q'.compile = .ok sql) ∧
      u.Interleaved u' ∧ (∃ e, u.compile = .error e) ∧ ∃ e, u'.compile = .error e := by
  intro t s kept ordered items sub q q' both u u' sql
  have hq : q.Interleaved q' := ⟨rfl, rfl, fun kind => by cases kind <;> rfl, rfl, rfl, rfl⟩
  have hu : u.Interleaved u' := ⟨rfl, rfl, fun kind => by cases kind <;> rfl, rfl, rfl, rfl⟩
  have hnames : q.prepared.nameCount = 0 := by decide +kernel
  have hsql : q.compile = .ok sql := by decide +kernel
  have herror : u.compile = .error (.entryOnCombination .filter .union) := by decide +kernel
  exact ⟨⟨hq, hnames, hsql, ((Query.Interleaved.compile_alike hq).2 hnames sql).mp hsql⟩,
    hu, ⟨_, herror⟩, (Query.Interleaved.compile_alike hu).1.mp ⟨_, herror⟩⟩

end SqlTree
