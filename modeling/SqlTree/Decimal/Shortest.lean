import SqlTree.Decimal.Binary64

/-!
# The shortest decimal that reads back

The magnitude of a binary number is written with the fewest digits for which reading to nearest
gives the number back. Grids of decimal multiples are tried from coarse to fine; on the first one
that meets the rounding interval the nearer neighbour is taken, and a tie is broken as told.
-/

namespace SqlTree.Decimal

/-- Which of two decimals is taken that lie equally far from the number. -/
inductive Tie where
  | away
  | even
  deriving DecidableEq, Repr

/-- The decimal `digits * 10 ^ exponent`. -/
structure Scaled where
  digits : Nat
  exponent : Int
  deriving DecidableEq, Repr

/-- The numbers that round to a binary number, as multiples of a quarter of its last place. -/
structure Interval where
  low : Nat
  value : Nat
  high : Nat
  /-- Whether the ends belong to the interval. -/
  closed : Bool
  deriving DecidableEq, Repr

namespace Binary64

/-- The rounding interval: half-way to the neighbours, ends included for an even significand. -/
def interval (x : Binary64) : Interval where
  low := 4 * x.significand - if x.isBinadeStart then 1 else 2
  value := 4 * x.significand
  high := 4 * x.significand + 2
  closed := x.significand % 2 == 0

end Binary64

/-- The interval in a finer unit. -/
def Interval.scale (i : Interval) (factor : Nat) : Interval :=
  { i with low := i.low * factor, value := i.value * factor, high := i.high * factor }

/-- Whether a number belongs to the interval. -/
def Interval.contains (i : Interval) (n : Nat) : Bool :=
  if i.closed then i.low ≤ n && n ≤ i.high else i.low < n && n < i.high

/-- The multiple of `step` inside the interval that is nearest to its value, as a factor of
`step`. -/
def Interval.nearest? (i : Interval) (step : Nat) (tie : Tie) : Option Nat :=
  let below := i.value / step
  match i.contains (below * step), i.contains ((below + 1) * step) with
  | false, false => none
  | true, false => some below
  | false, true => some (below + 1)
  | true, true =>
    let up := match tie with
      | .away => true
      | .even => below % 2 == 1
    match compare (2 * (i.value - below * step)) step with
    | .lt => some below
    | .gt => some (below + 1)
    | .eq => some (if up then below + 1 else below)

/-- The shortest decimal on the grid of multiples of `10 ^ exponent`, if the grid meets the
rounding interval. -/
def Binary64.onGrid? (x : Binary64) (tie : Tie) (exponent : Int) : Option Nat :=
  let quarter := x.exponent - 2
  let unit := Nat.pow 2 quarter.toNat * Nat.pow 10 (-exponent).toNat
  let step := Nat.pow 10 exponent.toNat * Nat.pow 2 (-quarter).toNat
  (x.interval.scale unit).nearest? step tie

/-- The first hit on the grids below `10 ^ exponent`, `grids` of them being tried. -/
def Binary64.firstOnGrid (x : Binary64) (tie : Tie) (exponent : Int) : (grids : Nat) → Scaled
  | 0 => ⟨0, 0⟩
  | grids + 1 =>
    match x.onGrid? tie exponent with
    | some digits => ⟨digits, exponent⟩
    | none => x.firstOnGrid tie (exponent - 1) grids

/-- An exponent whose power of ten exceeds the magnitude, by less than three digits. -/
def Binary64.decimalBound (x : Binary64) : Int :=
  (Int.ofNat x.significand.log2 + x.exponent + 1) * 30103 / 100000 + 1

/-- The shortest decimal that reads back as the magnitude of a number. -/
def Binary64.shortest (x : Binary64) (tie : Tie) : Scaled :=
  if x.significand = 0 then ⟨0, 0⟩ else x.firstOnGrid tie x.decimalBound 21

end SqlTree.Decimal
