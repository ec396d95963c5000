/-!
# Hexadecimal numbers

Digits of base sixteen in either case, and the characters that they number.
-/

namespace SqlTree.Text

/-- The value of a hexadecimal digit. -/
def hexValue? (c : Char) : Option Nat :=
  if '0' ≤ c && c ≤ '9' then some (c.toNat - '0'.toNat)
  else if 'a' ≤ c && c ≤ 'f' then some (c.toNat - 'a'.toNat + 10)
  else if 'A' ≤ c && c ≤ 'F' then some (c.toNat - 'A'.toNat + 10)
  else none

/-- The character with the given hexadecimal number, if it is one. -/
def codePoint? (digits : List Char) : Option Char := do
  let values ← digits.mapM hexValue?
  let n := values.foldl (fun n v => n * 16 + v) 0
  if n.isValidChar then some (Char.ofNat n) else none

end SqlTree.Text
