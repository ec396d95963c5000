import SqlTree.Query.Membership
import SqlTree.Query.Projection

/-!
# Calls of the builders

A program makes columns and queries by calls: each takes values that were made before and makes a
new one, or fails and makes nothing. Main statements: when the calls that can fail succeed, and what
they make then.
-/

namespace SqlTree

/-- A call that makes a column expression: a builder, or the pass over column expressions. -/
inductive Column.Call where
  | named (name : String)
  | star
  | drawn (q : Query) (name : String)
  | rowCount (q : Query)
  | binary (op : BinaryOp) (left right : Operand)
  | binaryToken (token : String) (left right : Operand)
  | combine (c : Column) (op : BinaryOp) (other : Operand)
  | combineToken (c : Column) (token : String) (other : Operand)
  | between (c : Column) (low high : Operand)
  | aggregate (c : Column) (f : Aggregate)
  | aggregateToken (c : Column) (token : String)
  | unary (c : Column) (f : Unary)
  | unaryToken (c : Column) (token : String)
  | nullTest (c : Column) (test : NullTest)
  | projected (c : Column)

namespace Column.Call

/-- The values that the call works on. -/
def arguments : Column.Call → List Operand
  | .named _ | .star => []
  | .drawn q _ | .rowCount q => [.query q]
  | .binary _ left right | .binaryToken _ left right => [left, right]
  | .combine c _ other | .combineToken c _ other => [.column c, other]
  | .between c low high => [.column c, low, high]
  | .aggregate c _ | .aggregateToken c _ | .unary c _ | .unaryToken c _ | .nullTest c _
  | .projected c => [.column c]

/-- The expression that the call makes, or why it fails. -/
def result : Column.Call → Except Error Column
  | .named name => .ok (ofName name)
  | .star => .ok Column.star
  | .drawn q name => .ok (q.column name)
  | .rowCount q => .ok q.rowCount
  | .binary op left right => .ok (ofBinary op left right)
  | .binaryToken token left right => ofBinaryToken token left right
  | .combine c op other => .ok (c.combine op other)
  | .combineToken c token other => c.combineToken token other
  | .between c low high => .ok (c.between low high)
  | .aggregate c f => c.withAggregate f
  | .aggregateToken c token => c.withAggregateToken token
  | .unary c f => c.withUnary f
  | .unaryToken c token => c.withUnaryToken token
  | .nullTest c test => c.withNullTest test
  | .projected c => .ok c.projected

end Column.Call

/-- A call that makes a query: a builder, or a pass over queries. -/
inductive Query.Call where
  | table (name : String)
  | tableAs (name aliasName : String)
  | derived (q : Query)
  | combined (op : SetOp) (left right : Query)
  | withAlias (q : Query) (aliasName : String)
  | withDriver (q : Query) (driver : String)
  | select (q : Query) (items : List Projection)
  | selectColumns (q : Query) (columns : List Column)
  | selectAs (q : Query) (aliasName : String) (c : Column)
  | filter (q : Query) (cond : Column)
  | whereExists (q sub : Query)
  | groupBy (q : Query) (c : Column)
  | having (q : Query) (cond : Column)
  | orderBy (q : Query) (c : Column)
  | join (q target : Query)
  | joinOn (q target : Query) (cond : Column)
  | take (q : Query) (n : Int64)
  | dedup (q : Query)
  | reverse (q : Query)
  | row (q : Query) (position : Int64)
  | rows (q : Query) (first last : RowBound)
  | projected (q : Query)
  | converted (q : Query)

namespace Query.Call

/-- The values that the call works on. -/
def arguments : Query.Call → List Operand
  | .table _ | .tableAs _ _ => []
  | .derived q | .withAlias q _ | .withDriver q _ | .take q _ | .dedup q | .reverse q | .row q _
  | .rows q _ _ | .projected q | .converted q => [.query q]
  | .combined _ left right => [.query left, .query right]
  | .select q items => .query q :: items.map Projection.expr
  | .selectColumns q columns => .query q :: columns.map Operand.column
  | .selectAs q _ c | .filter q c | .groupBy q c | .having q c | .orderBy q c =>
    [.query q, .column c]
  | .whereExists q sub => [.query q, .query sub]
  | .join q target => [.query q, .query target]
  | .joinOn q target cond => [.query q, .query target, .column cond]

/-- The query that the call makes, or why it fails. -/
def result : Query.Call → Except Error Query
  | .table name => .ok (ofTable name)
  | .tableAs name aliasName => .ok (ofTableAs name aliasName)
  | .derived q => .ok (ofQuery q)
  | .combined op left right => .ok (combine op left right)
  | .withAlias q aliasName => .ok (q.withAlias aliasName)
  | .withDriver q driver => .ok (q.withDriver driver)
  | .select q items => .ok (q.select items)
  | .selectColumns q columns => .ok (q.selectColumns columns)
  | .selectAs q aliasName c => .ok (q.selectAs aliasName c)
  | .filter q cond => q.filter cond
  | .whereExists q sub => .ok (q.whereExists sub)
  | .groupBy q c => q.groupBy c
  | .having q cond => .ok (q.having cond)
  | .orderBy q c => q.orderBy c
  | .join q target => .ok (q.join target)
  | .joinOn q target cond => q.joinOn target cond
  | .take q n => q.take n
  | .dedup q => .ok q.dedup
  | .reverse q => .ok q.reverse
  | .row q position => q.row position
  | .rows q first last => q.rows first last
  | .projected q => .ok q.projected
  | .converted q => .ok (q.membership?.getD q)

end Query.Call

/-- A call of a program. A literal is there for the asking. -/
inductive Call where
  | literal (value : Literal)
  | column (call : Column.Call)
  | query (call : Query.Call)

namespace Call

/-- The values that the call works on. -/
def arguments : Call → List Operand
  | .literal _ => []
  | .column call => call.arguments
  | .query call => call.arguments

/-- What the call makes, or why it fails. -/
def result : Call → Except Error Operand
  | .literal value => .ok (.literal value)
  | .column call => call.result.map .column
  | .query call => call.result.map .query

/-- The values after the call: a call that fails adds nothing to them. -/
def after (made : List Operand) (call : Call) : List Operand :=
  match call.result with
  | .ok value => value :: made
  | .error _ => made

end Call

/-- The values are those that some sequence of calls makes, each on values made before it. -/
inductive Made : List Operand → Prop where
  | start : Made []
  | call {made : List Operand} {call : Call} (h : Made made)
      (harguments : ∀ argument ∈ call.arguments, argument ∈ made) : Made (call.after made)

theorem Except.map_eq_ok_iff {ε α β : Type} {f : α → β} {x : Except ε α} {b : β} :
    x.map f = .ok b ↔ ∃ a, x = .ok a ∧ f a = b := by
  cases x <;> simp [Except.map]

namespace Column

/-- An aggregate is applied only to an expression without one. -/
theorem withAggregate_eq_ok_iff {c c' : Column} {f : Aggregate} :
    c.withAggregate f = .ok c' ↔ c.aggregate? = none ∧ c' = c.applyFunc (.aggregate f) := by
  unfold withAggregate
  cases c.aggregate? <;> simp [eq_comm]

/-- A function of one value is applied only to an expression without it. -/
theorem withUnary_eq_ok_iff {c c' : Column} {f : Unary} :
    c.withUnary f = .ok c' ↔ .unary f ∉ c.functions ∧ c' = c.applyFunc (.unary f) := by
  unfold withUnary
  by_cases h : Func.unary f ∈ c.functions <;> simp [h, eq_comm]

/-- A test for null is applied only to an expression without one. -/
theorem withNullTest_eq_ok_iff {c c' : Column} {test : NullTest} :
    c.withNullTest test = .ok c' ↔ c.nullTest = none ∧ c' = { c with nullTest := some test } := by
  unfold withNullTest
  cases c.nullTest <;> simp [eq_comm]

theorem withAggregateToken_eq_ok_iff {c c' : Column} {token : String} :
    c.withAggregateToken token = .ok c' ↔
      ∃ f, Aggregate.ofToken? token = some f ∧ c.withAggregate f = .ok c' := by
  unfold withAggregateToken Aggregate.ofToken
  cases Aggregate.ofToken? token <;> simp [Error.orUnknown, bind, Except.bind]

theorem withUnaryToken_eq_ok_iff {c c' : Column} {token : String} :
    c.withUnaryToken token = .ok c' ↔
      ∃ f, Unary.ofToken? token = some f ∧ c.withUnary f = .ok c' := by
  unfold withUnaryToken Unary.ofToken
  cases Unary.ofToken? token <;> simp [Error.orUnknown, bind, Except.bind]

theorem ofBinaryToken_eq_ok_iff {token : String} {left right : Operand} {c : Column} :
    ofBinaryToken token left right = .ok c ↔
      ∃ op, BinaryOp.ofToken? token = some op ∧ c = ofBinary op left right := by
  unfold ofBinaryToken BinaryOp.ofToken
  cases BinaryOp.ofToken? token <;>
    simp [Error.orUnknown, bind, Except.bind, pure, Except.pure, eq_comm]

/-- A clause over single rows takes an expression only if no aggregate is applied in it. -/
theorem forClause_bind_eq_ok_iff {clause : RowClause} {c : Column} {push : Column → Query}
    {q : Query} :
    (c.forClause clause).bind (fun cond => .ok (push cond)) = .ok q ↔
      c.containsAggregate = false ∧ q = push c := by
  unfold forClause
  cases c.containsAggregate <;> simp [Except.bind, eq_comm]

end Column

namespace Query

/-- A query is limited only if it was not, and by a number of rows that is not negative. -/
theorem take_eq_ok_iff {q q' : Query} {n : Int64} :
    q.take n = .ok q' ↔
      q.limit = none ∧ 0 ≤ n.toInt ∧ q' = { q with limit := some n.toInt.toNat } := by
  unfold take
  cases q.limit with
  | some present => simp
  | none =>
    by_cases h : n.toInt < 0
    · have hn : ¬ 0 ≤ n.toInt := by omega
      simp [h, hn]
    · have hn : 0 ≤ n.toInt := by omega
      simp [h, hn, eq_comm]

/-- A single row is taken from the front of the query or from the front of the reversed query. -/
theorem take_of_row_eq_ok {q q' : Query} {position : Int64} (h : q.row position = .ok q') :
    q.take 1 = .ok q' ∨ q.reverse.take 1 = .ok q' := by
  unfold row at h
  split at h
  · exact .inl h
  · split at h
    · exact .inr h
    · cases h

/-- Rows are taken from the front of the query or from the front of the reversed query. -/
theorem take_of_rows_eq_ok {q q' : Query} {first last : RowBound}
    (h : q.rows first last = .ok q') :
    ∃ n, q.take n = .ok q' ∨ q.reverse.take n = .ok q' := by
  unfold rows at h
  split at h
  · split at h
    · exact ⟨_, .inl h⟩
    · cases h
  · split at h
    · cases h
    · split at h
      · cases h
      · exact ⟨_, .inr h⟩
  · cases h

end Query

end SqlTree
