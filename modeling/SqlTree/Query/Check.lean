import SqlTree.Error
import SqlTree.Query.Basic

/-!
# Statements that cannot be written

Two faults keep a query from having a statement: groups are filtered although there are none, and a
set operation has an entry other than an ordering. The parts of a query are looked at in the order
in which their texts are made, so of several faults the first one made is reported.
-/

namespace SqlTree

/-- Groups are filtered only if there are groups. -/
def Query.checkGroups (q : Query) : Except Error Unit :=
  if q.has .having && !q.has .group then .error (.havingWithoutGroup q.reference.text) else .ok ()

mutual

/-- Whether the statement of a query can be written. -/
def Query.check : Query → Except Error Unit
  | ⟨source, aliasName, log, limit, distinct, reversed, driver⟩ =>
    match source.setOp? with
    | some op => do
      Entry.checkOrders op log
      source.check
    | none => do
      Query.checkGroups ⟨source, aliasName, log, limit, distinct, reversed, driver⟩
      source.check
      Entry.checks log

/-- Whether the source of a query can be written. -/
def Query.checkSource : Query → Except Error Unit
  | ⟨source, _, _, _, _, _, _⟩ => source.check

/-- Whether the queries of a source can be written. -/
def Source.check : Source → Except Error Unit
  | .named _ => .ok ()
  | .derived q => q.check
  | .combined _ left right => do
    left.check
    right.check

/-- Whether an entry can be written. The projections of a join target that only projects are not. -/
def Entry.check : Entry → Except Error Unit
  | .select items => Projection.checks items
  | .filter cond => cond.check
  | .whereExists sub => sub.check
  | .group c => c.check
  | .having cond => cond.check
  | .order c => c.check
  | .join target => if target.onlyProjects then target.checkSource else target.check
  | .joinOn target cond => do
    if target.onlyProjects then target.checkSource else target.check
    cond.check

/-- Whether the entries of a log can be written. -/
def Entry.checks : List Entry → Except Error Unit
  | [] => .ok ()
  | entry :: rest => do
    entry.check
    Entry.checks rest

/-- Whether a log holds orderings only, and they can be written. -/
def Entry.checkOrders (op : SetOp) : List Entry → Except Error Unit
  | [] => .ok ()
  | entry :: rest =>
    if entry.kind == .order then do
      entry.check
      Entry.checkOrders op rest
    else .error (.entryOnCombination entry.kind op)

/-- Whether a projected expression can be written. -/
def Projection.check : Projection → Except Error Unit
  | ⟨expr, _⟩ => expr.check

/-- Whether projected expressions can be written. -/
def Projection.checks : List Projection → Except Error Unit
  | [] => .ok ()
  | item :: rest => do
    item.check
    Projection.checks rest

/-- Whether a column expression can be written. -/
def Column.check : Column → Except Error Unit
  | ⟨base, _, _⟩ => base.check

/-- Whether the operands of an operator can be written. -/
def Base.check : Base → Except Error Unit
  | .named _ _ => .ok ()
  | .binary _ left right => do
    left.check
    right.check

/-- Whether an operand can be written. -/
def Operand.check : Operand → Except Error Unit
  | .column c => c.check
  | .literal _ => .ok ()
  | .query q => q.check

end

end SqlTree
