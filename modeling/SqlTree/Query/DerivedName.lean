import SqlTree.Query.Basic
import SqlTree.Text.Quoted

/-!
# Names of derived tables

A derived table without a name of its own is given one: `sq1`, `sq2` and so on through a statement.
How many names a part of a query takes depends on that part alone, so the number at which each part
starts is known before its text is written.
-/

namespace SqlTree

/-- The name of the derived table with the given number, counted from zero. -/
def derivedName (n : Nat) : String := "sq" ++ toString (n + 1)

/-- Whether the source is a derived table that is left without a name by the alias of its query. -/
def Source.needsName (source : Source) (aliasName : Option String) : Bool :=
  aliasName.isNone && !source.isNamed && !source.isCombined

/-- Whether the query is left without a name when it is nested as the target of a join. -/
def Query.needsName (q : Query) : Bool := q.reference.qualifier.isNone

mutual

/-- How many names the statement of a query takes. -/
def Query.nameCount : Query → Nat
  | ⟨source, aliasName, log, _, _, _, _⟩ =>
    (source.needsName aliasName).toNat + source.nameCount + Entry.nameCounts log

/-- How many names the source of a query takes. -/
def Query.sourceNameCount : Query → Nat
  | ⟨source, aliasName, _, _, _, _, _⟩ =>
    (source.needsName aliasName).toNat + source.nameCount

/-- How many names the queries of a source take; an arm of a set operation that orders or limits its
own rows takes one for itself. -/
def Source.nameCount : Source → Nat
  | .named _ => 0
  | .derived q => q.nameCount
  | .combined _ left right =>
    left.cutsRows.toNat + left.nameCount + (right.cutsRows.toNat + right.nameCount)

/-- How many names the text of an entry takes. The target of a join that only projects is joined by
its source alone. -/
def Entry.nameCount : Entry → Nat
  | .select items => Projection.nameCounts items
  | .filter cond => cond.nameCount
  | .whereExists sub => sub.nameCount
  | .group c => c.nameCount
  | .having cond => cond.nameCount
  | .order c => c.nameCount
  | .join target =>
    if target.onlyProjects then target.sourceNameCount
    else target.needsName.toNat + target.nameCount
  | .joinOn target cond =>
    (if target.onlyProjects then target.sourceNameCount
      else target.needsName.toNat + target.nameCount) + cond.nameCount

/-- How many names the texts of a log take. -/
def Entry.nameCounts : List Entry → Nat
  | [] => 0
  | entry :: rest => entry.nameCount + Entry.nameCounts rest

/-- How many names the text of a projected expression takes. -/
def Projection.nameCount : Projection → Nat
  | ⟨expr, _⟩ => expr.nameCount

/-- How many names the texts of projected expressions take. -/
def Projection.nameCounts : List Projection → Nat
  | [] => 0
  | item :: rest => item.nameCount + Projection.nameCounts rest

/-- How many names the text of a column expression takes. -/
def Column.nameCount : Column → Nat
  | ⟨base, _, _⟩ => base.nameCount

/-- How many names the text of a base takes. -/
def Base.nameCount : Base → Nat
  | .named _ _ => 0
  | .binary _ left right => left.nameCount + right.nameCount

/-- How many names the text of an operand takes. -/
def Operand.nameCount : Operand → Nat
  | .column c => c.nameCount
  | .literal _ => 0
  | .query q => q.nameCount

end

end SqlTree
