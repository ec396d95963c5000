import SqlTree.Decimal.Shortest

/-!
# Decimal notation

The two ways to write a decimal: with all its places, or as a significand and a power of ten.
-/

namespace SqlTree.Decimal

/-- The digit zero, repeated. -/
def zeros (n : Nat) : List Char := List.replicate n '0'

/-- The number padded with zeros to at least the given width. -/
def padded (width n : Nat) : String := String.ofList ((toString n).toList.leftpad width '0')

namespace Scaled

/-- The significant digits. -/
def digitChars (d : Scaled) : List Char := (toString d.digits).toList

/-- The number of digits before the point; zero or less for a decimal below one tenth. -/
def pointPosition (d : Scaled) : Int := Int.ofNat d.digitChars.length + d.exponent

/-- Whether the decimal has no places after the point. -/
def isWhole (d : Scaled) : Bool := 0 ≤ d.exponent

/-- All places written out, with a point only where places follow it. -/
def positional (d : Scaled) : String :=
  let digits := d.digitChars
  let before := d.pointPosition.toNat
  if d.isWhole then String.ofList (digits ++ zeros d.exponent.toNat)
  else if 0 < d.pointPosition then
    String.ofList (digits.take before ++ '.' :: digits.drop before)
  else String.ofList ('0' :: '.' :: zeros (-d.pointPosition).toNat ++ digits)

/-- One digit before the point and a signed exponent without padding. -/
def scientific (d : Scaled) : String :=
  let power := d.pointPosition - 1
  let mantissa := match d.digitChars with
    | [] => []
    | [c] => [c]
    | c :: rest => c :: '.' :: rest
  String.ofList mantissa ++ (if power < 0 then "e-" else "e+") ++ toString power.natAbs

end Scaled

end SqlTree.Decimal
