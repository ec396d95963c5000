import SqlTree.Text.CodePoint

/-!
# Blanks

The blanks are the 25 characters with the property White_Space.
-/

namespace SqlTree.Text

/-- The blanks. -/
def blankRanges : List (Nat × Nat) :=
  [(0x9, 0xD), (0x20, 0x20), (0x85, 0x85), (0xA0, 0xA0), (0x1680, 0x1680), (0x2000, 0x200A),
   (0x2028, 0x2029), (0x202F, 0x202F), (0x205F, 0x205F), (0x3000, 0x3000)]

/-- Whether a character is a blank. -/
def isBlank (c : Char) : Bool := inRanges blankRanges c.toNat

/-- A text without the blanks in front of it. -/
def trimStart (text : List Char) : List Char := text.dropWhile isBlank

/-- A text without the blanks around it. -/
def trim (text : List Char) : List Char := (trimStart (trimStart text).reverse).reverse

end SqlTree.Text
