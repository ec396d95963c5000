/-!
# Operators

The functions, operators and tests of column expressions, the set operators, and the tokens that
name them. Tokens are read without regard to the case of ASCII letters.
-/

namespace SqlTree

/-- A function over the rows of a group. -/
inductive Aggregate where
  | sum | avg | count | first | last | max | min
  deriving DecidableEq, Repr

/-- A function of one value. -/
inductive Unary where
  | abs | ceil | floor | round | not
  deriving DecidableEq, Repr

/-- A function applied to a column expression. -/
inductive Func where
  | aggregate (function : Aggregate)
  | unary (function : Unary)
  deriving DecidableEq, Repr

/-- An operator between two operands. -/
inductive BinaryOp where
  | add | sub | mul | div | mod | concat | or | and
  | eq | ne | lt | gt | le | ge | isIn | between | like
  deriving DecidableEq, Repr

/-- A test for null. -/
inductive NullTest where
  | isNull | isNotNull
  deriving DecidableEq, Repr

/-- An operator between the results of two queries. -/
inductive SetOp where
  | union | intersect | except
  deriving DecidableEq, Repr

/-- The name of the function in a statement. -/
def Aggregate.name : Aggregate → String
  | .sum => "SUM"
  | .avg => "AVG"
  | .count => "COUNT"
  | .first => "FIRST"
  | .last => "LAST"
  | .max => "MAX"
  | .min => "MIN"

/-- The aggregate that a token names. -/
def Aggregate.ofToken? (token : String) : Option Aggregate :=
  match token.toLower with
  | "sum" => some .sum
  | "avg" => some .avg
  | "count" => some .count
  | "first" => some .first
  | "last" => some .last
  | "max" => some .max
  | "min" => some .min
  | _ => none

/-- The name of the function in a statement. -/
def Unary.name : Unary → String
  | .abs => "ABS"
  | .ceil => "CEIL"
  | .floor => "FLOOR"
  | .round => "ROUND"
  | .not => "NOT"

/-- The function that a token names. -/
def Unary.ofToken? (token : String) : Option Unary :=
  match token.toLower with
  | "abs" => some .abs
  | "ceil" => some .ceil
  | "floor" => some .floor
  | "round" => some .round
  | "not" => some .not
  | _ => none

/-- The name of the function in a statement. -/
def Func.name : Func → String
  | .aggregate f => f.name
  | .unary f => f.name

/-- The aggregate, if the function is one. -/
def Func.aggregate? : Func → Option Aggregate
  | .aggregate f => some f
  | .unary _ => none

/-- The function of one value, if the function is one. -/
def Func.unary? : Func → Option Unary
  | .aggregate _ => none
  | .unary f => some f

/-- The word for the operator in descriptions. -/
def BinaryOp.name : BinaryOp → String
  | .add => "add"
  | .sub => "sub"
  | .mul => "mul"
  | .div => "div"
  | .mod => "mod"
  | .concat => "concat"
  | .or => "or"
  | .and => "and"
  | .eq => "eq"
  | .ne => "ne"
  | .lt => "lt"
  | .gt => "gt"
  | .le => "le"
  | .ge => "ge"
  | .isIn => "in"
  | .between => "between"
  | .like => "like"

/-- The operator in a statement. Addition and concatenation share one symbol. -/
def BinaryOp.symbol : BinaryOp → String
  | .add => "+"
  | .sub => "-"
  | .mul => "*"
  | .div => "/"
  | .mod => "MOD"
  | .concat => "+"
  | .or => "OR"
  | .and => "AND"
  | .eq => "="
  | .ne => "<>"
  | .lt => "<"
  | .gt => ">"
  | .le => "<="
  | .ge => ">="
  | .isIn => "IN"
  | .between => "BETWEEN"
  | .like => "LIKE"

/-- Whether the operator is written as a function call rather than between its operands. -/
def BinaryOp.isFunction (op : BinaryOp) : Bool := op == .mod

/-- Whether the operator compares its operands by equality or order. -/
def BinaryOp.isComparison : BinaryOp → Bool
  | .eq | .ne | .lt | .gt | .le | .ge => true
  | _ => false

/-- The operator that a token names, by word or by symbol. -/
def BinaryOp.ofToken? (token : String) : Option BinaryOp :=
  match token.toLower with
  | "add" | "+" => some .add
  | "sub" | "-" => some .sub
  | "mul" | "*" => some .mul
  | "div" | "/" => some .div
  | "mod" | "%" => some .mod
  | "concat" => some .concat
  | "or" => some .or
  | "and" => some .and
  | "eq" | "=" | "==" => some .eq
  | "ne" | "<>" | "!=" => some .ne
  | "lt" | "<" => some .lt
  | "gt" | ">" => some .gt
  | "le" | "<=" => some .le
  | "ge" | ">=" => some .ge
  | "in" => some .isIn
  | "between" => some .between
  | "like" => some .like
  | _ => none

/-- The text of the test, which follows the tested expression. -/
def NullTest.text : NullTest → String
  | .isNull => "IS NULL"
  | .isNotNull => "IS NOT NULL"

/-- The operator in a statement. -/
def SetOp.name : SetOp → String
  | .union => "UNION"
  | .intersect => "INTERSECT"
  | .except => "EXCEPT"

end SqlTree
