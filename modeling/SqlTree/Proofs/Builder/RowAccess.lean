import SqlTree.Proofs.Builder.Call

/-!
# Access to the rows of a query

Rows are asked for by a limit, by a position or by a range, all of them with signed numbers of 64
bits. Main statement: a request is granted exactly if it addresses rows at one of the two ends and
the query has no limit yet, and nothing but the limit and the direction is changed then; a request
of another form is refused as such whatever the limit is, and of the others the limit is reported
first.
-/

namespace SqlTree

/-- A request for some of the rows of a query. -/
inductive RowRequest where
  /-- So many rows at the front. -/
  | take (n : Int64)
  /-- One row by its position. -/
  | row (position : Int64)
  /-- The rows between two ends. -/
  | rows (first last : RowBound)
  deriving DecidableEq, Repr

/-- Whether the error says that rows are not addressed in this way. -/
def Error.isUnsupportedAccess : Error → Bool
  | .unsupportedRow _ | .unsupportedRows _ _ | .tailTooLong _ => true
  | _ => false

/-- The query cut to so many rows at its front or, if it is turned round for that, at its end. A
query is cut at most once. -/
def Query.cut (q : Query) (fromEnd : Bool) (count : Nat) : Except Error Query :=
  match q.limit with
  | some present => .error (.limitAlreadySet present)
  | none => .ok { q with limit := some count, reversed := q.reversed ^^ fromEnd }

namespace RowRequest

/-- What the query answers to the request. -/
def result (q : Query) : RowRequest → Except Error Query
  | .take n => q.take n
  | .row position => q.row position
  | .rows first last => q.rows first last

@[simp] theorem result_take (q : Query) (n : Int64) : (RowRequest.take n).result q = q.take n :=
  rfl

/-- The request addresses so many rows at the front or at the end: a limit that is not negative, the
first or the last row, the rows before a positive end, or those from a negative start that has an
opposite. -/
inductive Addresses : RowRequest → Bool → Nat → Prop where
  | take {n : Int64} (hn : 0 ≤ n) : Addresses (.take n) false n.toInt.natAbs
  | first : Addresses (.row 0) false 1
  | last : Addresses (.row (-1)) true 1
  | leading {k : Int64} (hk : 0 < k) :
      Addresses (.rows .unbounded (.excluded k)) false k.toInt.natAbs
  | trailing {k : Int64} (hleast : Int64.minValue < k) (hk : k < 0) :
      Addresses (.rows (.included k) .unbounded) true k.toInt.natAbs

/-- The request is refused for its form, with the error that tells the form. -/
inductive Unsupported : RowRequest → Error → Prop where
  | row {position : Int64} (hfirst : position ≠ 0) (hlast : position ≠ -1) :
      Unsupported (.row position) (.unsupportedRow position.toInt)
  | rows {first last : RowBound}
      (hform : ∀ fromEnd count, ¬ Addresses (.rows first last) fromEnd count)
      (hleast : ¬ (first = .included Int64.minValue ∧ last = .unbounded)) :
      Unsupported (.rows first last) (.unsupportedRows first last)
  | tail : Unsupported (.rows (.included Int64.minValue) .unbounded)
      (.tailTooLong Int64.minValue.toInt)

end RowRequest

namespace Query

variable {q q' : Query} {e : Error}

theorem cut_eq_ok_iff {fromEnd : Bool} {count : Nat} :
    q.cut fromEnd count = .ok q' ↔
      q.limit = none ∧ q' = { q with limit := some count, reversed := q.reversed ^^ fromEnd } := by
  unfold cut
  cases q.limit <;> simp [eq_comm]

theorem cut_eq_error_iff {fromEnd : Bool} {count : Nat} :
    q.cut fromEnd count = .error e ↔
      ∃ present, q.limit = some present ∧ e = .limitAlreadySet present := by
  unfold cut
  cases q.limit <;> simp [eq_comm]

/-- A limit that is not negative cuts the query at its front. -/
theorem take_eq_cut {n : Int64} (hn : 0 ≤ n) : q.take n = q.cut false n.toInt.natAbs := by
  have hsign : 0 ≤ n.toInt := Int64.le_iff_toInt_le.mp hn
  have hcount : n.toInt.toNat = n.toInt.natAbs := by omega
  unfold take cut
  cases q.limit with
  | some present => rfl
  | none => simp [Int.not_lt.mpr hsign, hcount]

/-- A limit of the reversed query cuts the query at its end. -/
theorem reverse_take_eq_cut {n : Int64} (hn : 0 ≤ n) :
    q.reverse.take n = q.cut true n.toInt.natAbs := by
  rw [take_eq_cut hn]
  unfold cut reverse
  cases q.limit <;> simp

/-- A limit that is there already is reported before the sign of the new one. -/
theorem take_of_neg {n : Int64} (hn : n < 0) :
    q.take n = .error (q.limit.elim (.negativeLimit n.toInt) .limitAlreadySet) := by
  have hsign : n.toInt < 0 := Int64.lt_iff_toInt_lt.mp hn
  unfold take
  cases q.limit with
  | some present => rfl
  | none => simp [hsign]

end Query

/-- A negative number has an opposite unless it is the least one. -/
theorem toInt_neg_of_minValue_lt {k : Int64} (hleast : Int64.minValue < k) :
    (-k).toInt = -k.toInt := by
  have hlower : -2 ^ 63 < k.toInt := by
    simpa [Int64.toInt_minValue] using Int64.lt_iff_toInt_lt.mp hleast
  have hupper := k.toInt_lt
  rw [Int64.toInt_neg]
  exact Int.bmod_eq_of_le (by omega) (by omega)

namespace RowRequest

variable {q : Query} {request : RowRequest} {e : Error} {fromEnd : Bool} {count : Nat}

/-- Rows that are addressed are given, if the query is not limited yet. -/
theorem Addresses.result_eq (h : request.Addresses fromEnd count) :
    request.result q = q.cut fromEnd count := by
  cases h with
  | take hn => exact Query.take_eq_cut hn
  | first => exact Query.take_eq_cut (by decide)
  | last => exact Query.reverse_take_eq_cut (by decide)
  | @leading k hk =>
    have hsign : 0 < k.toInt := Int64.lt_iff_toInt_lt.mp hk
    have htake : q.take k = q.cut false k.toInt.natAbs :=
      Query.take_eq_cut (Int64.le_iff_toInt_le.mpr (Int.le_of_lt hsign))
    simpa [result, Query.rows, hsign] using htake
  | @trailing k hleast hk =>
    have hsign : k.toInt < 0 := Int64.lt_iff_toInt_lt.mp hk
    have hneg := toInt_neg_of_minValue_lt hleast
    have hne : k ≠ Int64.minValue := (Int64.ne_of_lt hleast).symm
    have hopposite : 0 ≤ -k := by
      rw [Int64.le_iff_toInt_le, hneg]
      exact Int.neg_nonneg_of_nonpos (Int.le_of_lt hsign)
    have htake : q.reverse.take (-k) = q.cut true k.toInt.natAbs := by
      rw [Query.reverse_take_eq_cut hopposite, hneg, Int.natAbs_neg]
    simpa [result, Query.rows, Int.not_le.mpr hsign, hne] using htake

/-- A refused request gets its error, whether the query is limited or not. -/
theorem Unsupported.result_eq (h : request.Unsupported e) : request.result q = .error e := by
  cases h with
  | row hfirst hlast => simp [result, Query.row, hfirst, hlast]
  | tail => rfl
  | @rows first last hform hleast =>
    change q.rows first last = _
    unfold Query.rows
    split
    · rename_i k
      have hk : ¬ 0 < k.toInt := fun hpos =>
        hform _ _ (.leading (Int64.lt_iff_toInt_lt.mpr hpos))
      rw [if_neg hk]
    · rename_i k
      have hne : k ≠ Int64.minValue := by
        rintro rfl
        exact hleast ⟨rfl, rfl⟩
      have hk : 0 ≤ k.toInt := Int.not_lt.mp fun hneg =>
        hform _ _ (.trailing (Int64.lt_of_le_of_ne k.minValue_le hne.symm)
          (Int64.lt_iff_toInt_lt.mpr hneg))
      rw [if_pos hk]
    · rfl

/-- A request that is refused for its form addresses no rows. -/
theorem Unsupported.not_addresses (h : request.Unsupported e) :
    ¬ request.Addresses fromEnd count := by
  cases h with
  | row hfirst hlast =>
    intro haddresses
    cases haddresses with
    | first => exact hfirst rfl
    | last => exact hlast rfl
  | rows hform _ => exact hform _ _
  | tail =>
    intro haddresses
    cases haddresses with
    | trailing hleast _ => exact absurd hleast (by decide)

/-- A request addresses rows, or is refused for its form, or is a limit below zero. -/
theorem addresses_or_unsupported (request : RowRequest) :
    (∃ fromEnd count, request.Addresses fromEnd count) ∨ (∃ e, request.Unsupported e) ∨
      ∃ n, request = .take n ∧ n < 0 := by
  by_cases haddresses : ∃ fromEnd count, request.Addresses fromEnd count
  · exact .inl haddresses
  refine .inr ?_
  cases request with
  | take n =>
    refine .inr ⟨n, rfl, Int64.not_le.mp fun hn => haddresses ⟨_, _, .take hn⟩⟩
  | row position =>
    refine .inl ⟨_, .row ?_ ?_⟩
    · rintro rfl
      exact haddresses ⟨_, _, .first⟩
    · rintro rfl
      exact haddresses ⟨_, _, .last⟩
  | rows first last =>
    by_cases hleast : first = .included Int64.minValue ∧ last = .unbounded
    · obtain ⟨rfl, rfl⟩ := hleast
      exact .inl ⟨_, .tail⟩
    · exact .inl ⟨_, .rows (fun fromEnd count h => haddresses ⟨fromEnd, count, h⟩) hleast⟩

/-- No number of rows that is addressed is too large for the numbers of the request. -/
theorem Addresses.count_le (h : request.Addresses fromEnd count) :
    (count : Int) ≤ Int64.maxValue.toInt := by
  cases h with
  | first => decide
  | last => decide
  | @take n hn =>
    have hsign : 0 ≤ n.toInt := Int64.le_iff_toInt_le.mp hn
    have hbound := n.toInt_le
    omega
  | @leading k hk =>
    have hbound := k.toInt_le
    have hsign : 0 < k.toInt := Int64.lt_iff_toInt_lt.mp hk
    omega
  | @trailing k hleast hk =>
    have hsign : k.toInt < 0 := Int64.lt_iff_toInt_lt.mp hk
    have hbound := (-k).toInt_le
    rw [toInt_neg_of_minValue_lt hleast] at hbound
    omega

theorem Unsupported.isUnsupportedAccess_eq (h : request.Unsupported e) :
    e.isUnsupportedAccess = true := by
  cases h <;> rfl

/-- A request is granted if it addresses rows of a query without a limit. -/
theorem result_eq_ok_iff {q' : Query} :
    request.result q = .ok q' ↔ q.limit = none ∧ ∃ fromEnd count,
      request.Addresses fromEnd count ∧
        q' = { q with limit := some count, reversed := q.reversed ^^ fromEnd } := by
  constructor
  · intro hresult
    obtain ⟨fromEnd, count, haddresses⟩ | ⟨e, hunsupported⟩ | ⟨n, rfl, hn⟩ :=
      addresses_or_unsupported request
    · rw [haddresses.result_eq, Query.cut_eq_ok_iff] at hresult
      exact ⟨hresult.1, fromEnd, count, haddresses, hresult.2⟩
    · rw [hunsupported.result_eq] at hresult
      cases hresult
    · rw [result_take, Query.take_of_neg hn] at hresult
      cases hresult
  · rintro ⟨hlimit, fromEnd, count, haddresses, hq'⟩
    rw [haddresses.result_eq]
    exact Query.cut_eq_ok_iff.mpr ⟨hlimit, hq'⟩

/-- A request that is not granted is refused for its form, or for the limit of the query, or for its
sign, in this order. -/
theorem result_eq_error_iff :
    request.result q = .error e ↔ request.Unsupported e ∨
      (∃ present, q.limit = some present ∧ e = .limitAlreadySet present ∧
        ∀ e', ¬ request.Unsupported e') ∨
      q.limit = none ∧ ∃ n, request = .take n ∧ n < 0 ∧ e = .negativeLimit n.toInt := by
  constructor
  · intro hresult
    obtain ⟨fromEnd, count, haddresses⟩ | ⟨e', hunsupported⟩ | ⟨n, rfl, hn⟩ :=
      addresses_or_unsupported request
    · rw [haddresses.result_eq, Query.cut_eq_error_iff] at hresult
      obtain ⟨present, hlimit, he⟩ := hresult
      exact .inr (.inl ⟨present, hlimit, he, fun e' h => h.not_addresses haddresses⟩)
    · rw [hunsupported.result_eq] at hresult
      exact .inl (Except.error.inj hresult ▸ hunsupported)
    · rw [result_take, Query.take_of_neg hn] at hresult
      obtain rfl := Except.error.inj hresult
      cases hlimit : q.limit with
      | none => exact .inr (.inr ⟨rfl, n, rfl, hn, rfl⟩)
      | some present => exact .inr (.inl ⟨present, rfl, rfl, nofun⟩)
  · rintro (hunsupported | ⟨present, hlimit, rfl, hsupported⟩ | ⟨hlimit, n, rfl, hn, rfl⟩)
    · exact hunsupported.result_eq
    · obtain ⟨fromEnd, count, haddresses⟩ | ⟨e', hunsupported⟩ | ⟨n, rfl, hn⟩ :=
        addresses_or_unsupported request
      · rw [haddresses.result_eq]
        exact Query.cut_eq_error_iff.mpr ⟨present, hlimit, rfl⟩
      · exact absurd hunsupported (hsupported e')
      · rw [result_take, Query.take_of_neg hn, hlimit]
        rfl
    · rw [result_take, Query.take_of_neg hn, hlimit]
      rfl

/-- Access to rows is exact. A request is granted exactly if it addresses rows at one of the two
ends and the query is not limited yet; the limit and the direction are all that is changed, and no
number is too large. A request is refused for its form first; of the others a limit that is there is
reported first, and then a limit below zero. -/
theorem result_exact (q : Query) (request : RowRequest) :
    (∀ q', request.result q = .ok q' ↔ q.limit = none ∧ ∃ fromEnd count,
      request.Addresses fromEnd count ∧
        q' = { q with limit := some count, reversed := q.reversed ^^ fromEnd }) ∧
    (∀ e, request.result q = .error e ↔ request.Unsupported e ∨
      (∃ present, q.limit = some present ∧ e = .limitAlreadySet present ∧
        ∀ e', ¬ request.Unsupported e') ∨
      q.limit = none ∧ ∃ n, request = .take n ∧ n < 0 ∧ e = .negativeLimit n.toInt) ∧
    (∀ fromEnd count, request.Addresses fromEnd count →
      (count : Int) ≤ Int64.maxValue.toInt) ∧
    ∀ e, request.Unsupported e → e.isUnsupportedAccess = true := by
  refine ⟨fun q' => result_eq_ok_iff, fun e => result_eq_error_iff, ?_, ?_⟩
  · intro fromEnd count haddresses
    exact haddresses.count_le
  · intro e hunsupported
    exact hunsupported.isUnsupportedAccess_eq

end RowRequest

end SqlTree
