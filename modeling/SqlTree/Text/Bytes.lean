/-!
# Byte offsets

Offsets into a text count the bytes of its UTF-8 form. A text is cut at an offset only between two
characters.
-/

namespace SqlTree.Text

/-- The number of bytes of a text. -/
def byteSize : List Char → Nat
  | [] => 0
  | c :: rest => c.utf8Size + byteSize rest

/-- The text before and behind a byte offset, unless the offset is inside a character or past the
end. -/
def splitAtByte? : Nat → List Char → Option (List Char × List Char)
  | 0, text => some ([], text)
  | _, [] => none
  | n, c :: rest =>
    if c.utf8Size ≤ n then
      (splitAtByte? (n - c.utf8Size) rest).map fun (before, behind) => (c :: before, behind)
    else none

/-- The text from a byte offset on. -/
def fromByte? (start : Nat) (text : List Char) : Option (List Char) :=
  (splitAtByte? start text).map Prod.snd

/-- The text between two byte offsets. -/
def betweenBytes? (start stop : Nat) (text : List Char) : Option (List Char) := do
  let behind ← fromByte? start text
  let (between, _) ← splitAtByte? (stop - start) behind
  return between

end SqlTree.Text
