import SqlTree.Query.DerivedName
import SqlTree.Query.Statement
import SqlTree.Text.Identifier

/-!
# The text of queries

The tokens of a query are made from those of its parts. The number `n` of a text is the number of
the first derived table that it may name: each part starts where the parts before it have ended.
-/

namespace SqlTree

/-- The qualifier as it stands before a column: an alias that is not plain has to be quoted. -/
def Reference.sql? (r : Reference) : Option String :=
  match r.aliasName with
  | some aliasName =>
    some (if Text.isPlainIdentifier aliasName then aliasName else Text.Quoted.identifier aliasName)
  | none => r.name

/-- A column by name, qualified if it has an owner that can be named; the star never is. -/
def Base.nameSql (name : String) (owner : Option Reference) : String :=
  if name = starName then name
  else match owner.bind Reference.sql? with
    | some qualifier => qualifier ++ "." ++ name
    | none => name

/-- A function around a text. It takes the place of parentheses that enclose the text. -/
def Func.applied (text : String) (f : Func) : String :=
  f.name ++ Text.parenthesized (Text.ungrouped text)

/-- A test for null behind a text. -/
def NullTest.applied (text : String) : Option NullTest → String
  | some test => text ++ " " ++ test.text
  | none => text

/-- Whether the base is an operator between its operands. -/
def Base.isInfix : Base → Bool
  | .named _ _ => false
  | .binary op _ _ => !op.isFunction

/-- Whether the base is a conjunction. -/
def Base.isConjunction : Base → Bool
  | .named _ _ => false
  | .binary op _ _ => op == .and

/-- A column expression by the text of its base: an operator is put in parentheses, then come the
functions and last the test for null. -/
def Column.around (base : Base) (functions : List Func) (nullTest : Option NullTest)
    (body : String) : String :=
  NullTest.applied
    (functions.foldl Func.applied (if base.isInfix then Text.parenthesized body else body)) nullTest

/-- An arm of a set operation by the tokens of its statement. An arm that orders or limits its own
rows is nested, as its clauses would otherwise bind to the whole. -/
def Query.armTokens (q : Query) (n : Nat) (statement : List String) : List String :=
  if q.cutsRows then
    ["SELECT", starName, "FROM", Statement.nested statement] ++ Statement.named (derivedName n)
  else statement

/-- The target of a join by the tokens of its statement, under the name that qualifies its
columns. -/
def Query.nestedTarget (q : Query) (n : Nat) (statement : List String) : List String :=
  Statement.nested statement :: Statement.named (q.reference.qualifier.getD (derivedName n))

mutual

/-- The tokens of a statement. -/
def Query.tokens (n : Nat) : Query → List String
  | ⟨source, aliasName, log, limit, distinct, reversed, _⟩ =>
    if source.isCombined then
      source.tokens (n + Entry.nameCounts log) aliasName ++
        Statement.trailing reversed limit (Entry.pieces n log)
    else
      let start := n + ((source.needsName aliasName).toNat + source.nameCount)
      let pieces := Entry.pieces start log
      Statement.select distinct (source.tokens n aliasName) pieces ++
        Statement.trailing reversed limit pieces

/-- The tokens that declare the source of a query. -/
def Query.sourceTokens (n : Nat) : Query → List String
  | ⟨source, aliasName, _, _, _, _, _⟩ => source.tokens n aliasName

/-- The tokens of a source: a table or a derived table with its name, or the two arms of a set
operation. -/
def Source.tokens (n : Nat) (aliasName : Option String) : Source → List String
  | .named name =>
    name :: match aliasName with
      | some a => Statement.named a
      | none => []
  | .derived q =>
    match aliasName with
    | some a => Statement.nested (q.tokens n) :: Statement.named a
    | none => Statement.nested (q.tokens (n + 1)) :: Statement.named (derivedName n)
  | .combined op left right =>
    let middle := n + (left.cutsRows.toNat + left.nameCount)
    left.armTokens n (left.tokens (n + left.cutsRows.toNat)) ++ [op.name] ++
      right.armTokens middle (right.tokens (middle + right.cutsRows.toNat))

/-- What an entry contributes to the clauses. -/
def Entry.piece (n : Nat) : Entry → List Piece
  | .select items => Projection.pieces n items
  | .filter cond => [⟨.filter, [Text.grouped (cond.sql n)]⟩]
  | .whereExists sub =>
    [⟨.existence, [Text.parenthesized ("EXISTS " ++ Statement.nested (sub.tokens n))]⟩]
  | .group c => [⟨.grouping, [c.sql n]⟩]
  | .having cond => [⟨.having, [Text.grouped (cond.sql n)]⟩]
  | .order c => [⟨.ordering, [c.sql n]⟩]
  | .join target =>
    [⟨.join, "INNER JOIN" ::
      if target.onlyProjects then target.sourceTokens n
      else target.nestedTarget n (target.tokens (n + target.needsName.toNat))⟩]
  | .joinOn target cond =>
    let names :=
      if target.onlyProjects then target.sourceNameCount
      else target.needsName.toNat + target.nameCount
    [⟨.join, "INNER JOIN" ::
      (if target.onlyProjects then target.sourceTokens n
        else target.nestedTarget n (target.tokens (n + target.needsName.toNat))) ++
      ["ON", cond.sql (n + names)]⟩]

/-- What the entries of a log contribute to the clauses. -/
def Entry.pieces (n : Nat) : List Entry → List Piece
  | [] => []
  | entry :: rest => entry.piece n ++ Entry.pieces (n + entry.nameCount) rest

/-- A projected expression with its alias. -/
def Projection.piece (n : Nat) : Projection → Piece
  | ⟨expr, aliasName⟩ =>
    ⟨.projection, expr.sql n :: match aliasName with
      | some a => Statement.named a
      | none => []⟩

/-- The projected expressions of one entry. -/
def Projection.pieces (n : Nat) : List Projection → List Piece
  | [] => []
  | item :: rest => item.piece n :: Projection.pieces (n + item.nameCount) rest

/-- The text of a column expression. -/
def Column.sql (n : Nat) : Column → String
  | ⟨base, functions, nullTest⟩ => Column.around base functions nullTest (base.body n)

/-- The text of a column expression as the right side of a range test: the bounds of a plain
conjunction stand without parentheses. -/
def Column.rangeSql (n : Nat) : Column → String
  | ⟨base, functions, nullTest⟩ =>
    if base.isConjunction && functions.isEmpty then base.body n
    else Column.around base functions nullTest (base.body n)

/-- The text of a base, an operator without the parentheses around it. -/
def Base.body (n : Nat) : Base → String
  | .named name owner => Base.nameSql name owner
  | .binary op left right =>
    let start := n + left.nameCount
    match op with
    | .mod => op.symbol ++ Text.parenthesized (left.sql n ++ " , " ++ right.sql start)
    | .between => left.sql n ++ " " ++ op.symbol ++ " " ++ right.rangeSql start
    | _ => left.sql n ++ " " ++ op.symbol ++ " " ++ right.sql start

/-- The text of an operand; a query is nested. -/
def Operand.sql (n : Nat) : Operand → String
  | .column c => c.sql n
  | .literal v => v.text
  | .query q => Statement.nested (q.tokens n)

/-- The text of an operand as the right side of a range test. -/
def Operand.rangeSql (n : Nat) : Operand → String
  | .column c => c.rangeSql n
  | .literal v => v.text
  | .query q => Statement.nested (q.tokens n)

end

end SqlTree
