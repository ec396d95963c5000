/-!
# Places in a pattern

Lines and columns are counted from one, and columns in characters.
-/

namespace SqlTree.Pattern

/-- A place in a pattern. -/
structure Place where
  line : Nat
  column : Nat
  deriving DecidableEq, Repr

/-- The place in front of a pattern. -/
def Place.first : Place := ⟨1, 1⟩

/-- The place behind a character. -/
def Place.next (p : Place) (c : Char) : Place :=
  if c = '\n' then ⟨p.line + 1, 1⟩ else ⟨p.line, p.column + 1⟩

/-- The part of a pattern between two places. -/
structure Span where
  start : Place
  stop : Place
  deriving DecidableEq, Repr

/-- Whether a part ends in the line it starts in. -/
def Span.isOnOneLine (s : Span) : Bool := s.start.line == s.stop.line

/-- The number of columns that mark a part of one line; an empty part is marked too. -/
def Span.width (s : Span) : Nat := max 1 (s.stop.column - s.start.column)

end SqlTree.Pattern
