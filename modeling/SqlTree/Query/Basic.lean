import SqlTree.Literal
import SqlTree.Operator
import SqlTree.Query.Kind

/-!
# Queries and column expressions

A query takes rows from a source and keeps a log of what is done to them, in the order in which it
was asked for. Columns refer to the query they are drawn from by a name only. The types are plain
data: any tree can be written down, and what the builders guarantee is stated about the builders.
-/

namespace SqlTree

/-- What a column knows of the query it is drawn from: the name of its table and its alias. -/
structure Reference where
  name : Option String
  aliasName : Option String
  deriving DecidableEq, Repr

/-- The name that qualifies columns: the alias if there is one, else the name of the table. -/
def Reference.qualifier (r : Reference) : Option String := r.aliasName <|> r.name

/-- The reference in messages and outlines. -/
def Reference.text (r : Reference) : String := r.qualifier.getD "<subquery>"

/-- The name that stands for all columns. -/
def starName : String := "*"

mutual

/-- A column expression: a base, the functions applied to it, innermost first, and a test for
null. -/
structure Column where
  base : Base
  functions : List Func
  nullTest : Option NullTest

/-- What the functions of a column expression are applied to. -/
inductive Base where
  /-- A column by name, drawn from a query if it has an owner. -/
  | named (name : String) (owner : Option Reference)
  /-- Two operands joined by an operator. -/
  | binary (op : BinaryOp) (left right : Operand)

/-- One side of an operator, or a projected expression. -/
inductive Operand where
  | column (column : Column)
  | literal (value : Literal)
  | query (query : Query)

/-- Where the rows of a query come from. -/
inductive Source where
  /-- A table of the database. -/
  | named (name : String)
  /-- The rows of another query. -/
  | derived (query : Query)
  /-- The rows of two queries joined by a set operator. -/
  | combined (op : SetOp) (left right : Query)

/-- A projected expression and the alias it is given. -/
structure Projection where
  expr : Operand
  aliasName : Option String

/-- An entry in the log of a query. -/
inductive Entry where
  /-- The rows are projected to these expressions. -/
  | select (items : List Projection)
  /-- Rows are kept that meet the condition. -/
  | filter (cond : Column)
  /-- Rows are kept for which the query has a row. -/
  | whereExists (sub : Query)
  /-- Rows are grouped by the column. -/
  | group (column : Column)
  /-- Groups are kept that meet the condition. -/
  | having (cond : Column)
  /-- Rows are ordered by the column. -/
  | order (column : Column)
  /-- Rows are paired with those of another query. -/
  | join (target : Query)
  /-- Rows are paired with those of another query that meet the condition. -/
  | joinOn (target : Query) (cond : Column)

/-- A query. -/
structure Query where
  source : Source
  aliasName : Option String
  log : List Entry
  limit : Option Nat
  distinct : Bool
  reversed : Bool
  /-- The driver that runs the query, by its handle. -/
  driver : Option String

end

namespace Entry

/-- The kind of an entry. -/
def kind : Entry → EntryKind
  | .select _ => .select
  | .filter _ => .filter
  | .whereExists _ => .whereExists
  | .group _ => .group
  | .having _ => .having
  | .order _ => .order
  | .join _ => .join
  | .joinOn _ _ => .join

end Entry

namespace Source

/-- The name of the table, if the source is one. -/
def name? : Source → Option String
  | .named name => some name
  | _ => none

/-- The set operator, if the source is a set operation. -/
def setOp? : Source → Option SetOp
  | .combined op _ _ => some op
  | _ => none

/-- Whether the source is a table of the database. -/
def isNamed (s : Source) : Bool := s.name?.isSome

/-- Whether the source is a set operation. -/
def isCombined (s : Source) : Bool := s.setOp?.isSome

end Source

namespace Query

/-- Whether the log has an entry of the kind. -/
def has (q : Query) (kind : EntryKind) : Bool := q.log.any fun entry => entry.kind == kind

/-- The reference that columns drawn from the query carry. -/
def reference (q : Query) : Reference := ⟨q.source.name?, q.aliasName⟩

/-- Whether the query orders or limits its own rows. -/
def cutsRows (q : Query) : Bool := q.limit.isSome || q.has .order

/-- Whether the query does nothing to its rows but project them. -/
def onlyProjects (q : Query) : Bool :=
  !q.source.isCombined && q.limit.isNone && !q.distinct &&
    q.log.all fun entry => entry.kind == .select

end Query

namespace Base

/-- The name of a column; an operator has none. -/
def columnName : Base → String
  | .named name _ => name
  | .binary _ _ _ => ""

/-- The query that a column is drawn from. -/
def owner? : Base → Option Reference
  | .named _ owner => owner
  | .binary _ _ _ => none

/-- The operator and its operands. -/
def binary? : Base → Option (BinaryOp × Operand × Operand)
  | .named _ _ => none
  | .binary op left right => some (op, left, right)

end Base

namespace Column

/-- Whether the expression is a column that stands for all columns. -/
def isStar (c : Column) : Bool := c.base.columnName == starName

/-- The aggregate applied to the expression itself. -/
def aggregate? (c : Column) : Option Aggregate := c.functions.findSome? Func.aggregate?

/-- The functions of one value applied to the expression itself, innermost first. -/
def unaries (c : Column) : List Unary := c.functions.filterMap Func.unary?

/-- Whether the expression is a single column by name and nothing else. -/
def isBare (c : Column) : Bool :=
  c.base.binary?.isNone && c.functions.isEmpty && c.nullTest.isNone && !c.isStar

end Column

mutual

/-- Whether an aggregate is applied in the expression; subqueries are not entered. -/
def Column.containsAggregate : Column → Bool
  | ⟨base, functions, _⟩ =>
    (functions.findSome? Func.aggregate?).isSome || base.containsAggregate

/-- Whether an aggregate is applied below an operator. -/
def Base.containsAggregate : Base → Bool
  | .named _ _ => false
  | .binary _ left right => left.containsAggregate || right.containsAggregate

/-- Whether an aggregate is applied in an operand. -/
def Operand.containsAggregate : Operand → Bool
  | .column c => c.containsAggregate
  | .literal _ => false
  | .query _ => false

end

end SqlTree
