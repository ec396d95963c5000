import SqlTree.Proofs.Clauses.Pieces
import SqlTree.Proofs.Ordering.Keys
import SqlTree.Proofs.Writing.Projection
import Mathlib.Data.List.DropRight

/-!
# Reversing an ordered query

A query is reversed by turning round one flag, and its statement has one direction, behind the last
key. By the rule of the language that direction belongs to the last key alone. Main statements:
reversing an ordered query turns the order of its rows round, and the last rows are those at the end
of the sequence that the first rows are at the front of, exactly if the query has a single key.
-/

namespace SqlTree

/-- How a statement ends: the keys that it orders its rows by, and how many of them it keeps. -/
structure Ending where
  keys : List SortKey
  limit : Option Nat

namespace Ending

/-- The number behind `LIMIT`. -/
def readLimit (tokens : List String) : Option Nat :=
  if tokens.head? = some "LIMIT" then
    tokens[1]?.map fun number => Nat.ofDigitChars 10 number.toList 0
  else none

/-- Read the clauses that order and limit a statement. -/
def read (tokens : List String) : Ending :=
  let ordering :=
    if tokens.head? = some "ORDER BY" then SortKey.read tokens.tail else ([], tokens)
  ⟨ordering.1, readLimit ordering.2⟩

/-- The rows that a statement yields, of those that its other clauses yield. -/
def selected {ρ α : Type} [LinearOrder α] (value : String → ρ → α) (ending : Ending)
    (rows : List ρ) : List ρ :=
  match ending.limit with
  | some n => (SortKey.arranged value ending.keys rows).take n
  | none => SortKey.arranged value ending.keys rows

end Ending

/-- The direction of a statement. -/
def Direction.ofReversed (reversed : Bool) : Direction := if reversed then descending else ascending

theorem Direction.ofReversed_not (reversed : Bool) :
    ofReversed (!reversed) = (ofReversed reversed).opposite := by
  cases reversed <;> rfl

/-- The one direction of a statement is read as that of its last key. -/
theorem Ending.read_trailing (reversed : Bool) (limit : Option Nat) {pieces : List Piece}
    {texts : List String} (h : Piece.select .ordering pieces = texts.map ([·])) :
    read (Statement.trailing reversed limit pieces) =
      ⟨SortKey.directedLast (.ofReversed reversed) texts, limit⟩ := by
  let cut : List String := match limit with
    | some n => ["LIMIT", toString n]
    | none => []
  have hcut : cut.head? ≠ some "," ∧ cut.head? ≠ some "ORDER BY" ∧ readLimit cut = limit := by
    cases limit with
    | none => simp [cut, readLimit]
    | some n => simp [cut, readLimit]
  have hword : (if reversed then "DESC" else "ASC") =
      (Direction.ofReversed reversed).keyword := by
    cases reversed <;> rfl
  cases texts with
  | nil =>
    have htrailing : Statement.trailing reversed limit pieces = cut := by
      simp only [Statement.trailing, h, Statement.list, cut]
      cases limit <;> rfl
    rw [htrailing, read, if_neg hcut.2.1, SortKey.directedLast]
    exact congrArg (Ending.mk []) hcut.2.2
  | cons text texts =>
    have htrailing : Statement.trailing reversed limit pieces =
        "ORDER BY" :: ([","].intercalate ((text :: texts).map ([·])) ++
          (Direction.ofReversed reversed).keyword :: cut) := by
      simp only [Statement.trailing, h, Statement.list, Statement.separated, cut, hword]
      cases limit <;> simp
    rw [htrailing, read, List.head?_cons, if_pos rfl, List.tail_cons,
      SortKey.read_directedLast _ hcut.1 (List.cons_ne_nil _ _)]
    exact congrArg (Ending.mk _) hcut.2.2

/-- What a log contributes to the ordering are single texts, one for each of its orderings. -/
theorem Entry.exists_select_ordering (n : Nat) (log : List Entry) :
    ∃ texts : List String, Piece.select .ordering (pieces n log) = texts.map ([·]) ∧
      texts.length = (ofKind .order log).length := by
  induction log generalizing n with
  | nil => exact ⟨[], rfl, rfl⟩
  | cons entry rest ih =>
    obtain ⟨texts, hselect, hlength⟩ := ih (n + entry.nameCount)
    rw [pieces, Piece.select_append, hselect]
    by_cases hkind : entry.kind = .order
    · cases entry with
      | order c =>
        have hcons : ofKind .order (.order c :: rest) = .order c :: ofKind .order rest := rfl
        exact ⟨c.sql n :: texts, by simp [piece, Piece.select], by simp [hcons, hlength]⟩
      | _ => cases hkind
    · have hnone : Piece.select .ordering (entry.piece n) = [] := select_piece_eq_nil hkind n
      exact ⟨texts, by rw [hnone, List.nil_append], by simpa [ofKind, hkind] using hlength⟩

namespace Query

/-- The query in the form in which it is written. -/
def written (q : Query) : Query := q.membership?.getD q

/-- The tokens that decide which rows a query has, before they are ordered and limited. -/
def opening (q : Query) : List String := q.written.leading 0

/-- The tokens that order and limit the rows of a query. -/
def closing (q : Query) : List String :=
  Statement.trailing q.written.reversed q.written.limit (q.written.pieces 0)

/-- How the statement of a query ends. -/
def ending (q : Query) : Ending := .read q.closing

/-- The rows of a query in its order, if all are kept. -/
def arranged {ρ α : Type} [LinearOrder α] (value : String → ρ → α) (q : Query) (rows : List ρ) :
    List ρ :=
  SortKey.arranged value q.ending.keys rows

/-- The query in this direction and with this limit. -/
def withEnding (q : Query) (reversed : Bool) (limit : Option Nat) : Query :=
  { q with reversed := reversed, limit := limit }

variable {q : Query}

/-- A statement is the tokens that decide which rows it has and those that order and limit them. -/
theorem eq_of_compile_eq_ok {sql : String} (h : q.compile = .ok sql) :
    sql = Statement.text (q.opening ++ q.closing) ++ ";" := by
  have hcompile : q.compile = (q.membership?.getD q).write := write_membership?_projected q
  rw [hcompile, write_eq_ok_iff] at h
  rw [h.2, tokens_eq_leading]
  rfl

/-- The conversion of a subquery looks at neither the direction nor the limit. -/
theorem written_withEnding (q : Query) (reversed : Bool) (limit : Option Nat) :
    (q.withEnding reversed limit).written = q.written.withEnding reversed limit := by
  have hmembership : (q.withEnding reversed limit).membership? =
      q.membership?.map fun converted => converted.withEnding reversed limit := by
    unfold membership?
    cases hq : q.source.isCombined with
    | true => simp [withEnding, hq]
    | false =>
      have htake :
          takeFirst? (Entry.membership? (q.withEnding reversed limit).reference)
              (q.withEnding reversed limit).log =
            takeFirst? (Entry.membership? q.reference) q.log := rfl
      rw [htake]
      cases takeFirst? (Entry.membership? q.reference) q.log <;> simp [withEnding, hq]
  rw [written, written, hmembership]
  cases q.membership? <;> rfl

/-- A query has the same rows in both directions and with every limit. -/
theorem opening_withEnding (q : Query) (reversed : Bool) (limit : Option Nat) :
    (q.withEnding reversed limit).opening = q.opening := by
  rw [opening, written_withEnding]
  rfl

/-- The conversion of a subquery keeps the orderings. -/
theorem ofKind_order_written (q : Query) :
    Entry.ofKind .order q.written.log = Entry.ofKind .order q.log := by
  unfold written
  cases hmembership : q.membership? with
  | none => rfl
  | some q' =>
    obtain ⟨before, sub, after, cond, _, hlog, _, rfl⟩ := converted?_of_membership? hmembership
    simp [Entry.ofKind, hlog, Entry.kind]

/-- The keys of a query are the texts of its orderings, and the direction is that of the last. -/
theorem exists_ending_withEnding (q : Query) : ∃ texts : List String,
    texts.length = (Entry.ofKind .order q.log).length ∧
      ∀ reversed limit, (q.withEnding reversed limit).ending =
        ⟨SortKey.directedLast (.ofReversed reversed) texts, limit⟩ := by
  obtain ⟨texts, hselect, hlength⟩ := Entry.exists_select_ordering
    (if q.written.source.isCombined then 0 else 0 + ((q.written.source.needsName
      q.written.aliasName).toNat + q.written.source.nameCount)) q.written.log
  refine ⟨texts, by rw [hlength, ofKind_order_written], fun reversed limit => ?_⟩
  rw [ending, closing, written_withEnding]
  exact Ending.read_trailing reversed limit hselect

/-- The order of a query is turned round by reversing it, and its last rows are those at the end of
the sequence that its first rows are at the front of, in the opposite order. The rows are always
those of the query, and they have different values of the keys. -/
structure ReversesOrder (q : Query) : Prop where
  reverse_opening : q.reverse.opening = q.opening
  reverse : ∀ {ρ α : Type} [LinearOrder α] (value : String → ρ → α) (rows : List ρ),
    (rows.map (SortKey.values value q.ending.keys)).Nodup →
      q.reverse.arranged value rows = (q.arranged value rows).reverse
  rows : q.limit = none → ∀ k : Int64, 0 < k.toInt → ∃ first last : Query,
    q.rows .unbounded (.excluded k) = .ok first ∧ q.rows (.included (-k)) .unbounded = .ok last ∧
      first.opening = q.opening ∧ last.opening = q.opening ∧
      ∀ {ρ α : Type} [LinearOrder α] (value : String → ρ → α) (rows : List ρ),
        (rows.map (SortKey.values value q.ending.keys)).Nodup →
          first.ending.selected value rows = (q.arranged value rows).take k.toInt.toNat ∧
          last.ending.selected value rows = ((q.arranged value rows).rtake k.toInt.toNat).reverse
  row : q.limit = none → ∃ last : Query, q.row (-1) = .ok last ∧ last.opening = q.opening ∧
    ∀ {ρ α : Type} [LinearOrder α] (value : String → ρ → α) (rows : List ρ),
      (rows.map (SortKey.values value q.ending.keys)).Nodup →
        last.ending.selected value rows = (q.arranged value rows).rtake 1

theorem take_eq_ok {n : Int64} (hlimit : q.limit = none) (hn : 0 < n.toInt) :
    q.take n = .ok (q.withEnding q.reversed (some n.toInt.toNat)) := by
  simp [take, hlimit, Int.not_lt.mpr (Int.le_of_lt hn), withEnding]

theorem withEnding_self (q : Query) : q.withEnding q.reversed q.limit = q := by
  cases q
  rfl

theorem reverse_eq_withEnding (q : Query) : q.reverse = q.withEnding (!q.reversed) q.limit := rfl

/-- Of a query with this limit the first rows in its order are selected. -/
theorem selected_withEnding {ρ α : Type} [LinearOrder α] (value : String → ρ → α)
    (reversed : Bool) (n : Nat) (rows : List ρ) :
    (q.withEnding reversed (some n)).ending.selected value rows =
      ((q.withEnding reversed q.limit).arranged value rows).take n := by
  obtain ⟨texts, _, hending⟩ := q.exists_ending_withEnding
  rw [arranged, hending, hending]
  rfl

theorem toInt_neg_of_pos {k : Int64} (hk : 0 < k.toInt) : (-k).toInt = -k.toInt := by
  have hlt := k.toInt_lt
  rw [Int64.toInt_neg]
  exact Int.bmod_eq_of_le (by omega) (by omega)

/-- The last rows are the first ones of the reversed query. -/
theorem rows_neg_eq_ok {k : Int64} (hlimit : q.limit = none) (hk : 0 < k.toInt) :
    q.rows (.included (-k)) .unbounded =
      .ok (q.withEnding (!q.reversed) (some k.toInt.toNat)) := by
  have hneg := toInt_neg_of_pos hk
  have hlt := k.toInt_lt
  have hle : ¬ 0 ≤ (-k).toInt := by omega
  have hmin : -k ≠ Int64.minValue := by
    intro he
    rw [he] at hneg
    have hvalue : Int64.minValue.toInt = -2 ^ 63 := rfl
    omega
  simp only [rows, hle, hmin, if_false, Int64.neg_neg]
  exact take_eq_ok (show q.reverse.limit = none from hlimit) hk

theorem row_neg_one_eq_ok (hlimit : q.limit = none) :
    q.row (-1) = .ok (q.withEnding (!q.reversed) (some 1)) := by
  have hne : (-1 : Int64) ≠ 0 := by decide
  rw [row, if_neg hne, if_pos rfl]
  exact take_eq_ok (show q.reverse.limit = none from hlimit) (by decide)

/-- A query with one key is reversed as it should be. -/
theorem reversesOrder_of_length_eq_one (h : (Entry.ofKind .order q.log).length = 1) :
    q.ReversesOrder := by
  obtain ⟨texts, hlength, hending⟩ := q.exists_ending_withEnding
  obtain ⟨text, rfl⟩ := List.length_eq_one_iff.mp (hlength.trans h)
  have hkeys : q.reverse.ending.keys = q.ending.keys.map SortKey.opposite := by
    rw [reverse_eq_withEnding, hending, Direction.ofReversed_not]
    have hself := hending q.reversed q.limit
    rw [withEnding_self] at hself
    rw [hself]
    rfl
  have hreverse {ρ α : Type} [LinearOrder α] (value : String → ρ → α) (rows : List ρ)
      (hrows : (rows.map (SortKey.values value q.ending.keys)).Nodup) :
      q.reverse.arranged value rows = (q.arranged value rows).reverse := by
    rw [arranged, hkeys, SortKey.arranged_opposite value hrows]
    rfl
  have hlast {ρ α : Type} [LinearOrder α] (value : String → ρ → α) (rows : List ρ)
      (hrows : (rows.map (SortKey.values value q.ending.keys)).Nodup) (n : Nat) :
      (q.withEnding (!q.reversed) (some n)).ending.selected value rows =
        ((q.arranged value rows).rtake n).reverse := by
    rw [selected_withEnding, ← reverse_eq_withEnding, hreverse value rows hrows,
      List.rtake_eq_reverse_take_reverse, List.reverse_reverse]
  refine ⟨opening_withEnding q _ _, hreverse, fun hlimit k hk => ?_, fun hlimit => ?_⟩
  · refine ⟨q.withEnding q.reversed (some k.toInt.toNat),
      q.withEnding (!q.reversed) (some k.toInt.toNat), ?_, ?_, opening_withEnding q _ _,
      opening_withEnding q _ _, fun value rows hrows => ⟨?_, ?_⟩⟩
    · simp only [rows, hk, if_true]
      exact take_eq_ok hlimit hk
    · exact rows_neg_eq_ok hlimit hk
    · rw [selected_withEnding, withEnding_self]
    · exact hlast value rows hrows _
  · refine ⟨q.withEnding (!q.reversed) (some 1), row_neg_one_eq_ok hlimit,
      opening_withEnding q _ _, fun value rows hrows => ?_⟩
    rw [hlast value rows hrows, List.rtake_eq_reverse_take_reverse, List.reverse_reverse]
    cases (q.arranged value rows).reverse <;> rfl

/-- Whatever the direction behind the last of several keys, the first key is ascending. -/
theorem exists_keys_withEnding (h : 2 ≤ (Entry.ofKind .order q.log).length) (reversed : Bool) :
    ∃ text rest, (q.withEnding reversed q.limit).ending.keys = ⟨text, .ascending⟩ :: rest := by
  obtain ⟨texts, hlength, hending⟩ := q.exists_ending_withEnding
  rw [hending]
  match texts, hlength with
  | [], hlength | [_], hlength =>
    simp only [List.length_nil, List.length_singleton] at hlength
    omega
  | text :: next :: rest, _ => exact ⟨text, _, rfl⟩

/-- Rows that grow in all keys are in the order of the first key if that is ascending. -/
theorem arranged_of_ascending {text : String} {rest : List SortKey}
    (hkeys : q.ending.keys = ⟨text, .ascending⟩ :: rest) :
    ([0, 1].map (SortKey.values (fun _ (r : Nat) => r) q.ending.keys)).Nodup ∧
      q.arranged (fun _ (r : Nat) => r) [0, 1] = [0, 1] := by
  have hvalues : ([0, 1].map (SortKey.values (fun _ (r : Nat) => r) q.ending.keys)).Nodup := by
    simp [hkeys, SortKey.values]
  refine ⟨hvalues, (SortKey.eq_arranged_of_pairwise _ hvalues (List.Perm.refl _) ?_).symm⟩
  simp [hkeys, SortKey.precedes, Direction.less]

/-- A query with several keys is not reversed as it should be: rows that grow in all keys are in
the same order in both directions. -/
theorem not_reversesOrder_of_two_le (h : 2 ≤ (Entry.ofKind .order q.log).length) :
    ¬ q.ReversesOrder := by
  intro hreverses
  obtain ⟨text, rest, hkeys⟩ := exists_keys_withEnding h q.reversed
  rw [withEnding_self] at hkeys
  obtain ⟨text', rest', hkeys'⟩ := exists_keys_withEnding h (!q.reversed)
  rw [← reverse_eq_withEnding] at hkeys'
  obtain ⟨hvalues, harranged⟩ := arranged_of_ascending hkeys
  have hreverse := hreverses.reverse (fun _ (r : Nat) => r) [0, 1] hvalues
  rw [(arranged_of_ascending hkeys').2, harranged] at hreverse
  exact absurd hreverse (by decide)

/-- The order of an ordered query is turned round by reversing it, and its last rows are those at
the end of its order, exactly if it is ordered by a single key. The keys are those of the statement:
of every query with the same rows it is the tokens that decide these and then those that the keys
are read from. -/
theorem reversesOrder_iff (h : q.has .order = true) :
    (∀ (other : Query) (sql : String), other.opening = q.opening → other.compile = .ok sql →
      sql = Statement.text (q.opening ++ other.closing) ++ ";") ∧
    (q.ReversesOrder ↔ (Entry.ofKind .order q.log).length = 1) := by
  have hpos : 0 < (Entry.ofKind .order q.log).length := by
    obtain ⟨entry, hentry, hkind⟩ := List.any_eq_true.mp h
    refine List.length_pos_of_mem (Entry.mem_ofKind_iff.mpr ⟨hentry, ?_⟩)
    exact beq_iff_eq.mp hkind
  refine ⟨fun other sql hopening hcompile => ?_, fun hreverses => ?_,
    reversesOrder_of_length_eq_one⟩
  · rw [← hopening]
    exact eq_of_compile_eq_ok hcompile
  · by_contra hne
    exact not_reversesOrder_of_two_le (by omega) hreverses

/-- The table `t1` ordered by one of its columns. -/
def orderedOnce : Query := (ofTable "t1").push (.order ((ofTable "t1").column "a"))

/-- A query with one key has its last row at the end of its order, and the key is read from what
stands behind `SELECT * FROM t1`. -/
theorem reversesOrder_orderedOnce :
    orderedOnce.has .order = true ∧
      orderedOnce.reverse.compile = .ok "SELECT * FROM t1 ORDER BY t1.a DESC;" ∧
      "SELECT * FROM t1 ORDER BY t1.a DESC;" =
        Statement.text (orderedOnce.opening ++ orderedOnce.reverse.closing) ++ ";" ∧
      orderedOnce.reverse.closing = ["ORDER BY", "t1.a", "DESC"] ∧
      orderedOnce.ReversesOrder := by
  have hcompile : orderedOnce.reverse.compile = .ok "SELECT * FROM t1 ORDER BY t1.a DESC;" := by
    decide +kernel
  obtain ⟨hstatement, hreverses⟩ := reversesOrder_iff (q := orderedOnce) rfl
  exact ⟨rfl, hcompile, hstatement orderedOnce.reverse _ rfl hcompile, by decide +kernel,
    hreverses.mpr rfl⟩

/-- The same table ordered by a second column. -/
def orderedTwice : Query := orderedOnce.push (.order ((ofTable "t1").column "b"))

/-- Reversing a query with two keys turns round the direction of the second one only. -/
theorem not_forall_reversesOrder :
    (orderedTwice.compile = .ok "SELECT * FROM t1 ORDER BY t1.a , t1.b ASC;" ∧
      orderedTwice.ending.keys = [⟨"t1.a", .ascending⟩, ⟨"t1.b", .ascending⟩] ∧
      orderedTwice.reverse.compile = .ok "SELECT * FROM t1 ORDER BY t1.a , t1.b DESC;" ∧
      orderedTwice.reverse.ending.keys = [⟨"t1.a", .ascending⟩, ⟨"t1.b", .descending⟩]) ∧
    ¬ ∀ q : Query, q.has .order = true → q.ReversesOrder := by
  refine ⟨⟨by decide +kernel, by decide +kernel, by decide +kernel, by decide +kernel⟩,
    fun hall => ?_⟩
  have hkeys : 2 ≤ (Entry.ofKind .order orderedTwice.log).length := by decide
  exact not_reversesOrder_of_two_le hkeys (hall orderedTwice rfl)

end Query

end SqlTree
