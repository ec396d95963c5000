import SqlTree.Error
import SqlTree.Query.Describe

/-!
# Building columns and queries

Every operation gives a new value. An operation that would break a rule of the language fails: a
second aggregate or test for null, a repeated function, an aggregate in a clause over single rows, a
second limit, and access to rows other than the first or the last ones.
-/

namespace SqlTree

/-- The operator that a token was read as, or the error that the token names none. -/
def Error.orUnknown {α : Type} (token : String) : Option α → Except Error α
  | some op => .ok op
  | none => .error (.unknownOperator token)

/-- The aggregate that a token names. -/
def Aggregate.ofToken (token : String) : Except Error Aggregate :=
  Error.orUnknown token (Aggregate.ofToken? token)

/-- The function of one value that a token names. -/
def Unary.ofToken (token : String) : Except Error Unary :=
  Error.orUnknown token (Unary.ofToken? token)

/-- The operator that a token names. -/
def BinaryOp.ofToken (token : String) : Except Error BinaryOp :=
  Error.orUnknown token (BinaryOp.ofToken? token)

namespace Column

/-- A column by name that is drawn from no query in particular. -/
def ofName (name : String) : Column := ⟨.named name none, [], none⟩

/-- The column that stands for all columns. -/
def star : Column := ofName starName

/-- A column by name that is drawn from a query. -/
def ownedBy (owner : Reference) (name : String) : Column := ⟨.named name (some owner), [], none⟩

/-- Two operands joined by an operator. -/
def ofBinary (op : BinaryOp) (left right : Operand) : Column :=
  ⟨.binary op left right, [], none⟩

/-- The expression as the left side of an operator. -/
def combine (c : Column) (op : BinaryOp) (other : Operand) : Column := ofBinary op (.column c) other

/-- The test that the expression lies between two operands. -/
def between (c : Column) (low high : Operand) : Column :=
  c.combine .between (.column (ofBinary .and low high))

/-- The expression with one more function around it. -/
def applyFunc (c : Column) (f : Func) : Column := { c with functions := c.functions ++ [f] }

/-- Apply an aggregate; an expression carries at most one. -/
def withAggregate (c : Column) (f : Aggregate) : Except Error Column :=
  match c.aggregate? with
  | some present => .error (.secondAggregate f c.describe present)
  | none => .ok (c.applyFunc (.aggregate f))

/-- Apply a function of one value; an expression carries each at most once. -/
def withUnary (c : Column) (f : Unary) : Except Error Column :=
  if c.functions.contains (.unary f) then .error (.repeatedUnary f c.describe)
  else .ok (c.applyFunc (.unary f))

/-- Apply a test for null; an expression carries at most one. -/
def withNullTest (c : Column) (test : NullTest) : Except Error Column :=
  match c.nullTest with
  | some _ => .error (.secondNullTest c.describe)
  | none => .ok { c with nullTest := some test }

/-- Apply the aggregate that a token names. -/
def withAggregateToken (c : Column) (token : String) : Except Error Column := do
  c.withAggregate (← Aggregate.ofToken token)

/-- Apply the function of one value that a token names. -/
def withUnaryToken (c : Column) (token : String) : Except Error Column := do
  c.withUnary (← Unary.ofToken token)

/-- Join two operands by the operator that a token names. -/
def ofBinaryToken (token : String) (left right : Operand) : Except Error Column := do
  return ofBinary (← BinaryOp.ofToken token) left right

/-- Join the expression with an operand by the operator that a token names. -/
def combineToken (c : Column) (token : String) (other : Operand) : Except Error Column :=
  ofBinaryToken token (.column c) other

/-- The expression, if a clause over single rows may hold it. -/
def forClause (clause : RowClause) (c : Column) : Except Error Column :=
  if c.containsAggregate then .error (.aggregateIn clause c.describe) else .ok c

end Column

namespace Query

/-- A query over the rows of a source, with nothing done to them. -/
def ofSource (source : Source) : Query := ⟨source, none, [], none, false, false, none⟩

/-- All rows of a table. -/
def ofTable (name : String) : Query := ofSource (.named name)

/-- All rows of a table under an alias. -/
def ofTableAs (name aliasName : String) : Query := { ofTable name with aliasName := some aliasName }

/-- The rows of another query, run by the driver of that query. -/
def ofQuery (q : Query) : Query := { ofSource (.derived q) with driver := q.driver }

/-- The rows of two queries joined by a set operator, run by the driver of the left one. -/
def combine (op : SetOp) (left right : Query) : Query :=
  { ofSource (.combined op left right) with driver := left.driver }

/-- A column of the query by name. -/
def column (q : Query) (name : String) : Column := .ownedBy q.reference name

/-- The number of rows of the query. -/
def rowCount (q : Query) : Column := (q.column starName).applyFunc (.aggregate .count)

/-- The query under an alias. Columns drawn from it before keep the name they know. -/
def withAlias (q : Query) (aliasName : String) : Query := { q with aliasName := some aliasName }

/-- The query with the driver that runs it. -/
def withDriver (q : Query) (driver : String) : Query := { q with driver := some driver }

/-- The query with one more entry in its log. -/
def push (q : Query) (entry : Entry) : Query := { q with log := q.log ++ [entry] }

/-- Project the rows; an empty list of expressions changes nothing. -/
def select (q : Query) (items : List Projection) : Query :=
  if items.isEmpty then q else q.push (.select items)

/-- Project the rows to columns without aliases. -/
def selectColumns (q : Query) (columns : List Column) : Query :=
  q.select (columns.map fun c => ⟨.column c, none⟩)

/-- Project the rows to one column under an alias. -/
def selectAs (q : Query) (aliasName : String) (c : Column) : Query :=
  q.select [⟨.column c, some aliasName⟩]

/-- Keep the rows that meet a condition. -/
def filter (q : Query) (cond : Column) : Except Error Query := do
  return q.push (.filter (← cond.forClause .filter))

/-- Keep the rows for which another query has a row. -/
def whereExists (q sub : Query) : Query := q.push (.whereExists sub)

/-- Group the rows by a column. -/
def groupBy (q : Query) (c : Column) : Except Error Query := do
  return q.push (.group (← c.forClause .grouping))

/-- Keep the groups that meet a condition, which may hold aggregates. -/
def having (q : Query) (cond : Column) : Query := q.push (.having cond)

/-- Order the rows by a column. -/
def orderBy (q : Query) (c : Column) : Except Error Query := do
  return q.push (.order (← c.forClause .ordering))

/-- Pair the rows with those of another query. -/
def join (q target : Query) : Query := q.push (.join target)

/-- Pair the rows with those of another query that meet a condition. -/
def joinOn (q target : Query) (cond : Column) : Except Error Query := do
  return q.push (.joinOn target (← cond.forClause .join))

/-- Drop duplicate rows. -/
def dedup (q : Query) : Query := { q with distinct := true }

/-- Turn the order of the rows round. -/
def reverse (q : Query) : Query := { q with reversed := !q.reversed }

/-- Keep the first rows. A query is limited at most once. -/
def take (q : Query) (n : Int64) : Except Error Query :=
  match q.limit with
  | some present => .error (.limitAlreadySet present)
  | none =>
    if n.toInt < 0 then .error (.negativeLimit n.toInt)
    else .ok { q with limit := some n.toInt.toNat }

/-- The first row at position 0 and the last row at position -1. -/
def row (q : Query) (position : Int64) : Except Error Query :=
  if position = 0 then q.take 1
  else if position = -1 then q.reverse.take 1
  else .error (.unsupportedRow position.toInt)

/-- The first rows up to a positive end, or the last rows from a negative start. The least position
has no opposite and addresses more rows than can be counted. -/
def rows (q : Query) (first last : RowBound) : Except Error Query :=
  match first, last with
  | .unbounded, .excluded k =>
    if 0 < k.toInt then q.take k else .error (.unsupportedRows first last)
  | .included k, .unbounded =>
    if 0 ≤ k.toInt then .error (.unsupportedRows first last)
    else if k = Int64.minValue then .error (.tailTooLong k.toInt)
    else q.reverse.take (-k)
  | _, _ => .error (.unsupportedRows first last)

end Query

end SqlTree
