/-!
# Plain identifiers

A plain identifier is spelled the same with and without quotes: lower-case letters, digits and
underscores of ASCII, not starting with a digit.
-/

namespace SqlTree.Text

/-- Whether an identifier can start with the character and stay plain. -/
def isPlainStart (c : Char) : Bool := c.isLower || c == '_'

/-- Whether an identifier can go on with the character and stay plain. -/
def isPlainPart (c : Char) : Bool := isPlainStart c || c.isDigit

/-- Whether the name is a plain identifier. -/
def isPlainIdentifier (name : String) : Bool :=
  match name.toList with
  | [] => false
  | c :: rest => isPlainStart c && rest.all isPlainPart

end SqlTree.Text
