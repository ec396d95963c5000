import SqlTree.Query.Build

/-!
# From existence to membership

A test that a subquery has a row for the present row becomes a test that a column of the present
row is among the values of the subquery. A subquery qualifies when one of its filters compares one
of its own columns with a literal and another one compares a column of the outer query with one of
its own. The latter filter goes; the subquery yields its own side of it; the outer side is tested.
-/

namespace SqlTree

/-- The first element that `f` accepts, with what `f` makes of it and with the other elements. -/
def takeFirst? {α β : Type} (f : α → Option β) : List α → Option (β × List α)
  | [] => none
  | a :: rest =>
    match f a with
    | some b => some (b, rest)
    | none => (takeFirst? f rest).map fun (b, others) => (b, a :: others)

/-- The two sides of a plain equality: no function and no test for null is applied to it. -/
def Column.equality? : Column → Option (Operand × Operand)
  | ⟨.binary .eq left right, [], none⟩ => some (left, right)
  | _ => none

/-- Whether the operand is a literal. -/
def Operand.isLiteral : Operand → Bool
  | .literal _ => true
  | _ => false

/-- Whether the operand is a bare column drawn from the query referred to. -/
def Operand.isColumnOf (owner : Reference) : Operand → Bool
  | .column c => c.isBare && c.base.owner? == some owner
  | _ => false

/-- The operand as a column, if it is a bare one drawn from the query referred to. -/
def Operand.columnOf? (owner : Reference) : Operand → Option Column
  | .column c => if c.isBare && c.base.owner? == some owner then some c else none
  | _ => none

namespace Entry

/-- The condition of a filter. -/
def filter? : Entry → Option Column
  | .filter cond => some cond
  | _ => none

/-- Whether the entry compares a column of the query referred to with a literal. -/
def isSelective (inner : Reference) (entry : Entry) : Bool :=
  match entry.filter?.bind Column.equality? with
  | some (left, right) =>
    (left.isColumnOf inner && right.isLiteral) || (left.isLiteral && right.isColumnOf inner)
  | none => false

/-- The outer and the inner column of an entry that compares the two. -/
def correlation? (outer inner : Reference) (entry : Entry) : Option (Column × Column) := do
  let (left, right) ← entry.filter?.bind Column.equality?
  (do return (← left.columnOf? outer, ← right.columnOf? inner)) <|>
    (do return (← right.columnOf? outer, ← left.columnOf? inner))

/-- The membership test that takes the place of a subquery, if the subquery qualifies. -/
def membership? (outer : Reference) : Entry → Option Column
  | .whereExists sub =>
    let inner := sub.reference
    if outer.qualifier.isSome && inner.qualifier.isSome && outer != inner &&
        sub.log.any (isSelective inner) then do
      let ((outerColumn, innerColumn), others) ← takeFirst? (correlation? outer inner) sub.log
      let kept := others.filter fun entry => entry.kind != .select
      let values := { sub with log := kept ++ [.select [⟨.column innerColumn, none⟩]] }
      return outerColumn.combine .isIn (.query values)
    else none
  | _ => none

end Entry

/-- The query with its first qualifying existence test turned into a membership test, which stands
last in the log. Set operations have no filters of their own. -/
def Query.membership? (q : Query) : Option Query :=
  if q.source.isCombined then none
  else do
    let (cond, others) ← takeFirst? (Entry.membership? q.reference) q.log
    return { q with log := others ++ [.filter cond] }

end SqlTree
