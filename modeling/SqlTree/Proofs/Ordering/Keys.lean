import Mathlib.Data.List.Nodup
import Mathlib.Data.List.Perm.Basic
import Mathlib.Order.Lattice

/-!
# Rows in order

An ordering is a list of keys, each with a direction. It is read from tokens by the rule of the
language: a direction belongs to the key right before it, and a key without one is ascending. Rows
are compared by the first key in which they differ. Main statement: rows with different values of
the keys are arranged in one way only, and in the opposite way if the direction of every key is
turned round.
-/

namespace SqlTree

/-- Which values of a key come first. -/
inductive Direction where
  | ascending | descending
  deriving DecidableEq, Repr

namespace Direction

/-- The other direction. -/
def opposite : Direction → Direction
  | ascending => descending
  | descending => ascending

/-- The word that stands behind a key. -/
def keyword : Direction → String
  | ascending => "ASC"
  | descending => "DESC"

/-- Whether the first value comes strictly before the second one. -/
def less {α : Type} [LinearOrder α] (direction : Direction) (a b : α) : Bool :=
  match direction with
  | ascending => decide (a < b)
  | descending => decide (b < a)

section Less

variable {α : Type} [LinearOrder α] {direction : Direction} {a b c : α}

theorem less_trans (hab : direction.less a b = true) (hbc : direction.less b c = true) :
    direction.less a c = true := by
  cases direction <;> simp only [less, decide_eq_true_eq] at hab hbc ⊢
  · exact lt_trans hab hbc
  · exact lt_trans hbc hab

theorem ne_of_less (h : direction.less a b = true) : a ≠ b := by
  rintro rfl
  cases direction <;> exact lt_irrefl a (of_decide_eq_true h)

theorem less_asymm (hab : direction.less a b = true) : direction.less b a = false :=
  Bool.eq_false_iff.mpr fun hba => ne_of_less (less_trans hab hba) rfl

theorem less_or_less (direction : Direction) (h : a ≠ b) :
    (direction.less a b || direction.less b a) = true := by
  cases direction <;> simp only [less, Bool.or_eq_true, decide_eq_true_eq]
  · exact lt_or_gt_of_ne h
  · exact (lt_or_gt_of_ne h).symm

theorem less_opposite (direction : Direction) (a b : α) :
    direction.opposite.less a b = direction.less b a := by
  cases direction <;> rfl

end Less

end Direction

/-- A key that rows are ordered by: the text of an expression and a direction. -/
structure SortKey where
  text : String
  direction : Direction
  deriving DecidableEq, Repr

namespace SortKey

/-- Read the keys behind `ORDER BY`, with what follows the last one. -/
def read : List String → List SortKey × List String
  | text :: "," :: rest => (⟨text, .ascending⟩ :: (read rest).1, (read rest).2)
  | text :: "ASC" :: "," :: rest => (⟨text, .ascending⟩ :: (read rest).1, (read rest).2)
  | text :: "DESC" :: "," :: rest => (⟨text, .descending⟩ :: (read rest).1, (read rest).2)
  | text :: "ASC" :: rest => ([⟨text, .ascending⟩], rest)
  | text :: "DESC" :: rest => ([⟨text, .descending⟩], rest)
  | text :: rest => ([⟨text, .ascending⟩], rest)
  | [] => ([], [])

/-- The key in the other direction. -/
def opposite (key : SortKey) : SortKey := ⟨key.text, key.direction.opposite⟩

/-- The keys of an ordering with one direction written behind the last of them. -/
def directedLast (direction : Direction) : List String → List SortKey
  | [] => []
  | [text] => [⟨text, direction⟩]
  | text :: next :: rest => ⟨text, .ascending⟩ :: directedLast direction (next :: rest)

/-- What is read behind `ORDER BY` if one direction is written, behind the last key. -/
theorem read_directedLast (direction : Direction) {rest : List String}
    (hrest : rest.head? ≠ some ",") {texts : List String} (htexts : texts ≠ []) :
    read ([","].intercalate (texts.map ([·])) ++ direction.keyword :: rest) =
      (directedLast direction texts, rest) := by
  induction texts with
  | nil => exact absurd rfl htexts
  | cons text texts ih =>
    cases texts with
    | nil =>
      cases rest with
      | nil => cases direction <;> simp [read, directedLast, Direction.keyword]
      | cons token rest =>
        have htoken : token ≠ "," := by simpa using hrest
        cases direction <;> simp [read, directedLast, Direction.keyword, htoken]
    | cons next texts =>
      have hnext := ih (List.cons_ne_nil next texts)
      simp only [List.map_cons, List.intercalate_cons_cons, List.cons_append, List.nil_append]
        at hnext ⊢
      rw [read, hnext, directedLast]

section Arranged

variable {ρ α : Type} [LinearOrder α] (value : String → ρ → α) {keys : List SortKey} {r s : ρ}

/-- The values of the keys in a row. -/
def values (keys : List SortKey) (r : ρ) : List α := keys.map fun key => value key.text r

/-- Whether a row comes before another one or has the same values of all keys. -/
def precedes : List SortKey → ρ → ρ → Bool
  | [], _, _ => true
  | key :: rest, r, s =>
    if value key.text r = value key.text s then precedes rest r s
    else key.direction.less (value key.text r) (value key.text s)

/-- The rows in the order of the keys. -/
def arranged (keys : List SortKey) (rows : List ρ) : List ρ :=
  rows.mergeSort (precedes value keys)

theorem precedes_total (keys : List SortKey) (r s : ρ) :
    (precedes value keys r s || precedes value keys s r) = true := by
  induction keys with
  | nil => rfl
  | cons key rest ih =>
    unfold precedes
    by_cases h : value key.text r = value key.text s
    · rw [if_pos h, if_pos h.symm, ih]
    · rw [if_neg h, if_neg (Ne.symm h)]
      exact key.direction.less_or_less h

theorem precedes_trans (keys : List SortKey) (r s t : ρ) (hrs : precedes value keys r s = true)
    (hst : precedes value keys s t = true) : precedes value keys r t = true := by
  induction keys with
  | nil => rfl
  | cons key rest ih =>
    unfold precedes at hrs hst ⊢
    by_cases h : value key.text r = value key.text s
    · rw [if_pos h] at hrs
      rw [h]
      split <;> rename_i h'
      · rw [if_pos h'] at hst
        exact ih hrs hst
      · rwa [if_neg h'] at hst
    · rw [if_neg h] at hrs
      by_cases h' : value key.text s = value key.text t
      · rw [← h', if_neg h]
        exact hrs
      · rw [if_neg h'] at hst
        have hrt := Direction.less_trans hrs hst
        rw [if_neg (Direction.ne_of_less hrt)]
        exact hrt

/-- Rows that come before each other have the same values of all keys. -/
theorem values_eq_of_precedes (hrs : precedes value keys r s = true)
    (hsr : precedes value keys s r = true) : values value keys r = values value keys s := by
  induction keys with
  | nil => rfl
  | cons key rest ih =>
    unfold precedes at hrs hsr
    by_cases h : value key.text r = value key.text s
    · rw [if_pos h] at hrs
      rw [if_pos h.symm] at hsr
      simp only [values, List.map_cons, h] at ih ⊢
      rw [ih hrs hsr]
    · rw [if_neg h] at hrs
      rw [if_neg (Ne.symm h)] at hsr
      rw [Direction.less_asymm hrs] at hsr
      cases hsr

/-- With the directions turned round, rows compare the other way round. -/
theorem precedes_opposite (keys : List SortKey) (r s : ρ) :
    precedes value (keys.map opposite) r s = precedes value keys s r := by
  induction keys with
  | nil => rfl
  | cons key rest ih =>
    rw [List.map_cons, precedes, precedes, ih, opposite, Direction.less_opposite]
    exact if_congr eq_comm rfl rfl

theorem arranged_perm (keys : List SortKey) (rows : List ρ) :
    (arranged value keys rows).Perm rows := List.mergeSort_perm rows _

theorem pairwise_arranged (keys : List SortKey) (rows : List ρ) :
    (arranged value keys rows).Pairwise fun r s => precedes value keys r s = true :=
  List.pairwise_mergeSort (precedes_trans value keys) (precedes_total value keys) rows

/-- Rows with different values of the keys are arranged in one way only. -/
theorem eq_arranged_of_pairwise {rows sorted : List ρ}
    (hrows : (rows.map (values value keys)).Nodup) (hperm : sorted.Perm rows)
    (hsorted : sorted.Pairwise fun r s => precedes value keys r s = true) :
    sorted = arranged value keys rows := by
  refine List.Perm.eq_of_pairwise (fun r s hr hs hrs hsr => ?_) hsorted
    (pairwise_arranged value keys rows) (hperm.trans (arranged_perm value keys rows).symm)
  exact List.inj_on_of_nodup_map hrows (hperm.mem_iff.mp hr)
    ((arranged_perm value keys rows).mem_iff.mp hs) (values_eq_of_precedes value hrs hsr)

/-- With all directions turned round, rows with different values of the keys are arranged in the
opposite order. -/
theorem arranged_opposite {rows : List ρ} (hrows : (rows.map (values value keys)).Nodup) :
    arranged value (keys.map opposite) rows = (arranged value keys rows).reverse := by
  have hvalues : values value (keys.map opposite) = values (ρ := ρ) value keys := by
    funext r
    simp [values, opposite, Function.comp_def]
  refine (eq_arranged_of_pairwise value (hvalues ▸ hrows)
    ((List.reverse_perm _).trans (arranged_perm value keys rows)) ?_).symm
  rw [List.pairwise_reverse]
  simp only [precedes_opposite]
  exact pairwise_arranged value keys rows

end Arranged

end SortKey

end SqlTree
