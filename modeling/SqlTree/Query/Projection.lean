import SqlTree.Query.Basic

/-!
# Making projections explicit

A query that projects nothing yields all columns. Here that is written into its log, and into the
log of every query below it.
-/

namespace SqlTree

/-- The projection to all columns. -/
def Entry.selectAll : Entry := .select [⟨.column ⟨.named starName none, [], none⟩, none⟩]

/-- The log with a projection to all columns at its end unless it has a projection. -/
def Entry.withSelect (log : List Entry) : List Entry :=
  if log.any fun entry => entry.kind == .select then log else log ++ [.selectAll]

mutual

/-- The query with an explicit projection in itself and in every query below it. A set operation
takes its projection from its arms, and nothing but its arms is changed. -/
def Query.projected : Query → Query
  | ⟨source, aliasName, log, limit, distinct, reversed, driver⟩ =>
    ⟨source.projected, aliasName,
      if source.isCombined then log else Entry.withSelect (Entry.projectedLog log),
      limit, distinct, reversed, driver⟩

/-- The source with explicit projections in the queries it is made of. -/
def Source.projected : Source → Source
  | .named name => .named name
  | .derived q => .derived q.projected
  | .combined op left right => .combined op left.projected right.projected

/-- The entry with explicit projections in the queries that it holds. -/
def Entry.projected : Entry → Entry
  | .select items => .select (Projection.projectedItems items)
  | .filter cond => .filter cond.projected
  | .whereExists sub => .whereExists sub.projected
  | .group c => .group c.projected
  | .having cond => .having cond.projected
  | .order c => .order c.projected
  | .join target => .join target.projected
  | .joinOn target cond => .joinOn target.projected cond.projected

/-- The log with explicit projections in the queries that its entries hold. -/
def Entry.projectedLog : List Entry → List Entry
  | [] => []
  | entry :: rest => entry.projected :: Entry.projectedLog rest

/-- The projected expression with explicit projections in its subqueries. -/
def Projection.projected : Projection → Projection
  | ⟨expr, aliasName⟩ => ⟨expr.projected, aliasName⟩

/-- The projected expressions with explicit projections in their subqueries. -/
def Projection.projectedItems : List Projection → List Projection
  | [] => []
  | item :: rest => item.projected :: Projection.projectedItems rest

/-- The column expression with explicit projections in its subqueries. -/
def Column.projected : Column → Column
  | ⟨base, functions, nullTest⟩ => ⟨base.projected, functions, nullTest⟩

/-- The base with explicit projections in its subqueries. -/
def Base.projected : Base → Base
  | .named name owner => .named name owner
  | .binary op left right => .binary op left.projected right.projected

/-- The operand with explicit projections in its subqueries. -/
def Operand.projected : Operand → Operand
  | .column c => .column c.projected
  | .literal v => .literal v
  | .query q => .query q.projected

end

end SqlTree
