import Mathlib.Data.List.Basic

/-!
# Three-valued truth

A condition over values that may be missing is true, false or unknown, and a row is kept only if it
is true. Main statements: a conjunction is true exactly when both of its parts are, and a disjunction
when one of them is.
-/

namespace SqlTree

/-- What a condition comes to. -/
inductive Truth where
  | no | unknown | yes
  deriving DecidableEq, Repr

namespace Truth

/-- Both hold: one that fails decides. -/
def and : Truth → Truth → Truth
  | .no, _ => .no
  | .unknown, .no => .no
  | .unknown, _ => .unknown
  | .yes, t => t

/-- One of them holds: one that does decides. -/
def or : Truth → Truth → Truth
  | .yes, _ => .yes
  | .unknown, .yes => .yes
  | .unknown, _ => .unknown
  | .no, t => t

/-- The truth of what is known. -/
def ofBool : Bool → Truth
  | true => .yes
  | false => .no

/-- One of the parts holds. -/
def any (parts : List Truth) : Truth := parts.foldr or .no

/-- The equality of two values: nothing is known of a missing one. -/
def equal {α : Type} [DecidableEq α] : Option α → Option α → Truth
  | some a, some b => ofBool (a = b)
  | _, _ => .unknown

theorem and_eq_yes_iff {s t : Truth} : s.and t = .yes ↔ s = .yes ∧ t = .yes := by
  cases s <;> cases t <;> simp [and]

theorem or_eq_yes_iff {s t : Truth} : s.or t = .yes ↔ s = .yes ∨ t = .yes := by
  cases s <;> cases t <;> simp [or]

theorem ofBool_eq_yes_iff {b : Bool} : ofBool b = .yes ↔ b = true := by
  cases b <;> simp [ofBool]

/-- A disjunction is true exactly when one of its parts is. -/
theorem any_eq_yes_iff {parts : List Truth} : any parts = .yes ↔ .yes ∈ parts := by
  induction parts with
  | nil => simp [any]
  | cons t rest ih =>
    rw [List.mem_cons, ← ih, eq_comm (a := Truth.yes)]
    exact or_eq_yes_iff

theorem equal_comm {α : Type} [DecidableEq α] {x y : Option α} : equal x y = equal y x := by
  cases x <;> cases y <;> simp [equal, eq_comm]

end Truth

end SqlTree
