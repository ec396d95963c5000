/-!
# Binary floating point numbers

A 64-bit binary floating point number is kept as its bit pattern and read as a sign and a magnitude
`significand * 2 ^ exponent`.
-/

namespace SqlTree.Decimal

/-- The bit pattern of a 64-bit binary floating point number. -/
structure Binary64 where
  bits : UInt64
  deriving DecidableEq, Repr, Inhabited

namespace Binary64

/-- Whether the sign bit is set. -/
def isNegative (x : Binary64) : Bool := x.bits.toNat / Nat.pow 2 63 == 1

/-- The biased exponent. -/
def exponentField (x : Binary64) : Nat := x.bits.toNat / Nat.pow 2 52 % Nat.pow 2 11

/-- The stored bits of the significand. -/
def fraction (x : Binary64) : Nat := x.bits.toNat % Nat.pow 2 52

/-- Neither an infinity nor not-a-number. -/
def isFinite (x : Binary64) : Bool := x.exponentField != 2047

/-- The significand, with the leading bit that only subnormal numbers lack. -/
def significand (x : Binary64) : Nat :=
  if x.exponentField = 0 then x.fraction else Nat.pow 2 52 + x.fraction

/-- The power of two that the significand is scaled by. -/
def exponent (x : Binary64) : Int := Int.ofNat (max 1 x.exponentField) - 1075

/-- Whether the next number below lies half as far away as the next number above. -/
def isBinadeStart (x : Binary64) : Bool := x.fraction == 0 && 2 ≤ x.exponentField

end Binary64

end SqlTree.Decimal
