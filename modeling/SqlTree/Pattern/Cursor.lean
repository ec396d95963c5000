import SqlTree.Pattern.Fault
import SqlTree.Text.Blank

/-!
# Reading a pattern

A cursor stands in front of the characters that are still to be read. Where the flag for extended
patterns is set, blanks and comments between the parts are passed over.
-/

namespace SqlTree.Pattern

/-- Where a reader stands. -/
structure Cursor where
  rest : List Char
  place : Place
  /-- Whether blanks and comments are passed over. -/
  extended : Bool
  /-- The names of groups so far. -/
  names : List (List Char × Span)

/-- The cursor in front of a pattern. -/
def Cursor.ofText (pattern : List Char) : Cursor := ⟨pattern, .first, false, []⟩

/-- Pass one character. -/
def Cursor.bump (c : Cursor) : Cursor :=
  match c.rest with
  | [] => c
  | x :: rest => { c with rest := rest, place := c.place.next x }

/-- Pass blanks and comments, which end with their line. -/
def skipFrom (inComment : Bool) : List Char → Place → List Char × Place
  | [], place => ([], place)
  | x :: rest, place =>
    if inComment then skipFrom (x != '\n') rest (place.next x)
    else if Text.isBlank x then skipFrom false rest (place.next x)
    else if x = '#' then skipFrom true rest (place.next x)
    else (x :: rest, place)

/-- Pass what stands between two parts. -/
def Cursor.skip (c : Cursor) : Cursor :=
  if c.extended then
    let (rest, place) := skipFrom false c.rest c.place
    { c with rest := rest, place := place }
  else c

/-- Pass one character and what stands behind it. -/
def Cursor.forward (c : Cursor) : Cursor := c.bump.skip

/-- Readers either yield a value and move the cursor or fail. -/
abbrev Reader (α : Type) := StateT Cursor (Except Fault) α

/-- Fail with a reason. -/
def fail {α : Type} (reason : Reason) (span : Span) : Reader α := throw ⟨reason, span, none⟩

/-- What is still to be read. -/
def ahead : Reader (List Char) := return (← get).rest

/-- The place of the cursor. -/
def here : Reader Place := return (← get).place

/-- The next character as a part. -/
def nextSpan (c : Char) : Reader Span := return ⟨← here, (← here).next c⟩

/-- Pass a number of characters. -/
def bump (n : Nat) : Reader Unit := modify (Nat.repeat Cursor.bump n)

/-- Pass what stands between two parts. -/
def skip : Reader Unit := modify Cursor.skip

/-- Pass one character and what stands behind it. -/
def forward : Reader Unit := modify Cursor.forward

/-- Pass the next character as a part, and what stands behind it. -/
def take (c : Char) : Reader Span := do
  let span ← nextSpan c
  forward
  return span

/-- Read characters while they pass a test, each with its part; at most `fuel` many. -/
def takeWhileFrom (p : Char → Bool) : Nat → Reader (List (Char × Span))
  | 0 => return []
  | fuel + 1 => do
    match ← ahead with
    | [] => return []
    | c :: _ =>
      if p c then
        let span ← take c
        return (c, span) :: (← takeWhileFrom p fuel)
      else return []

/-- Read characters while they pass a test. -/
def takeWhile (p : Char → Bool) : Reader (List (Char × Span)) := do
  takeWhileFrom p (← ahead).length

end SqlTree.Pattern
