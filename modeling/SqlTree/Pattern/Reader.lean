import SqlTree.Pattern.Bracketed
import SqlTree.Pattern.Group

/-!
# Reading patterns

A pattern is read from left to right with the groups that are still open. Main definition: `read`,
which yields the tree of a pattern or its first fault. Patterns stand in braces and between commas,
so a count of repetitions, which needs a closing brace, is never closed.
-/

namespace SqlTree.Pattern

/-- The branches of a group so far. -/
structure Branches where
  /-- The finished branches, the last one first. -/
  finished : List Node
  /-- The place in front of the first branch. -/
  first : Place
  /-- The parts of the branch that is read, the last one first. -/
  parts : List Node
  /-- The place in front of the branch that is read. -/
  start : Place

/-- The branches in front of a first part. -/
def Branches.none (place : Place) : Branches := ⟨[], place, [], place⟩

/-- One part more. -/
def Branches.push (b : Branches) (part : Node) : Branches := { b with parts := part :: b.parts }

/-- The branch that is read, as one pattern that ends at a place. -/
def Branches.branch (b : Branches) (stop : Place) : Node :=
  Node.join .sequence ⟨b.start, stop⟩ b.parts.reverse

/-- A new branch behind a mark of one column. -/
def Branches.next (b : Branches) (stop behind : Place) : Branches :=
  ⟨b.branch stop :: b.finished, b.first, [], behind⟩

/-- All branches as one pattern that ends at a place. -/
def Branches.node (b : Branches) (stop : Place) : Node :=
  Node.join .choice ⟨b.first, stop⟩ (b.branch stop :: b.finished).reverse

/-- A group that is not closed yet. -/
structure OpenGroup where
  /-- The parenthesis. -/
  opening : Span
  flags : List Char
  /-- Whether blanks and comments are passed over around the group. -/
  extended : Bool
  /-- The branches of the group around it. -/
  outer : Branches

/-- What a mark of repetition at a place applies to, and the branches without it. -/
def repeatable (b : Branches) (mark : Place) : Reader (Node × Branches) :=
  match b.parts with
  | [] | .leaf (.flags _) _ :: _ => fail .nothingToRepeat ⟨mark, mark⟩
  | part :: parts => return (part, { b with parts := parts })

/-- A repetition by a question mark, an asterisk or a plus, and the mark for reluctance. -/
def readRepetition (b : Branches) : Reader Branches := do
  let (part, before) ← repeatable b (← here)
  bump 1
  if (← ahead).head? = some '?' then bump 1
  return before.push (.branch .repeated [part] ⟨part.span.start, ← here⟩)

/-- A count of repetitions, which is never closed. -/
def readCount {α : Type} (b : Branches) : Reader α := do
  let start ← here
  let _ ← repeatable b start
  forward
  if (← ahead).isEmpty then fail .unclosedCount ⟨start, ← here⟩
  let _ ← takeWhile Text.isBlank
  let first ← here
  let digits ← takeWhile Char.isDigit
  let span := ⟨first, ← here⟩
  let _ ← takeWhile Text.isBlank
  let value := digits.foldl (fun n d => n * 10 + (d.1.toNat - '0'.toNat)) 0
  if (← ahead).isEmpty then fail .unclosedCount ⟨start, ← here⟩
  else if digits.isEmpty then fail .missingCount span
  else if Nat.pow 2 32 ≤ value then fail .badDecimal span
  else fail .unclosedCount ⟨start, ← here⟩

/-- A part that is neither a group nor a class nor a repetition. -/
def readLeaf (c : Char) : Reader Node := do
  if c = '\\' then
    let (leaf, span) ← readEscape
    return .leaf leaf span
  else
    let span ← nextSpan c
    bump 1
    if c = '.' then return .leaf .anyCharacter span
    else if c = '^' || c = '$' then return .leaf .anchor span
    else return .leaf (.literal ⟨c, false, span⟩) span

/-- The rest of a pattern; each step reads a part or a mark. -/
def readFrom : Nat → List OpenGroup → Branches → Reader Node
  | 0, _, b => return b.node (← here)
  | fuel + 1, groups, b => do
    skip
    let place ← here
    match ← ahead with
    | [] =>
      match groups with
      | [] => return b.node place
      | g :: _ => fail .unclosedGroup g.opening
    | '(' :: _ =>
      let opening ← nextSpan '('
      let extended := (← get).extended
      let opened ← readParenthesis opening
      match opened with
      | .flags flags =>
        modify fun c => { c with extended := (flagState? 'x' flags).getD extended }
        readFrom fuel groups (b.push (.leaf (.flags flags) ⟨place, ← here⟩))
      | .group flags =>
        modify fun c => { c with extended := (flagState? 'x' flags).getD extended }
        readFrom fuel (⟨opening, flags, extended, b⟩ :: groups) (.none (← here))
    | ')' :: _ =>
      match groups with
      | [] => fail .unopenedGroup (← nextSpan ')')
      | g :: groups =>
        bump 1
        modify fun c => { c with extended := g.extended }
        let span := ⟨g.opening.start, ← here⟩
        readFrom fuel groups (g.outer.push (.branch (.group g.flags) [b.node place] span))
    | '|' :: _ =>
      bump 1
      readFrom fuel groups (b.next place (← here))
    | '[' :: _ => readFrom fuel groups (b.push (← readClass))
    | '?' :: _ | '*' :: _ | '+' :: _ => readFrom fuel groups (← readRepetition b)
    | '\x7b' :: _ => readCount b
    | c :: _ => readFrom fuel groups (b.push (← readLeaf c))

/-- The tree of a pattern, or its first fault. -/
def read (pattern : List Char) : Except Fault Node := do
  let (node, _) ← (readFrom (pattern.length + 1) [] (.none .first)).run (.ofText pattern)
  match node.tooDeep? nestingLimit with
  | some span => throw ⟨.nestedTooDeep, span, none⟩
  | none => return node

end SqlTree.Pattern
