import SqlTree.Query.Basic

/-!
# Descriptions of columns and outlines of queries

A column is described in one line, for messages; a query by an outline of its log, one line an entry
or a projected expression, indented by tabs.
-/

namespace SqlTree

/-- The part of a column's description after its base: aggregate, then functions of one value. -/
def Column.describeFunctions (functions : List Func) : String :=
  let aggregate := match functions.findSome? Func.aggregate? with
    | some f => " agg:" ++ f.name
    | none => ""
  let unaries := functions.filterMap Func.unary?
  let unary := if unaries.isEmpty then "" else " unary:" ++ ",".intercalate (unaries.map Unary.name)
  aggregate ++ unary

mutual

/-- A column in one line: its base, its functions and its operator. -/
def Column.describe : Column → String
  | ⟨base, functions, _⟩ =>
    base.describe ++ Column.describeFunctions functions ++
      match base with
      | .named _ _ => ""
      | .binary op _ _ => " binary:" ++ op.name

/-- A name with its qualifier, or the two operands. -/
def Base.describe : Base → String
  | .named name owner =>
    match owner.bind Reference.qualifier with
    | some qualifier => name ++ "(" ++ qualifier ++ ")"
    | none => name
  | .binary _ left right => "(" ++ left.describe ++ ", " ++ right.describe ++ ")"

/-- An operand in one line; a query by its reference only. -/
def Operand.describe : Operand → String
  | .column c => c.describe
  | .literal v => v.text
  | .query q => "<subquery " ++ q.reference.text ++ ">"

end

/-- A line of an outline, indented by `level` tabs. -/
def outlineLine (level : Nat) (text : String) : String :=
  String.ofList (List.replicate level '\t') ++ text ++ "\n"

/-- The line of a projected expression. -/
def Projection.outline (level : Nat) (p : Projection) : String :=
  outlineLine level <| match p.aliasName with
    | some aliasName => p.expr.describe ++ " as " ++ aliasName
    | none => p.expr.describe

/-- The line of a condition or an ordering. -/
def Column.outline (level : Nat) (c : Column) : String := outlineLine level c.describe

/-- The word for a source in outlines. -/
def Source.heading : Source → String
  | .named name => name
  | .derived _ => "<subquery>"
  | .combined op _ _ => op.name

mutual

/-- The outline of a query whose first line is indented by `level` tabs. -/
def Query.outline (level : Nat) : Query → String
  | ⟨source, aliasName, log, limit, distinct, reversed, _⟩ =>
    outlineLine level (source.heading ++ (aliasName.map (" as " ++ ·)).getD "") ++
      source.outline (level + 1) ++
      Entry.outlines (level + 1) log ++
      (if distinct then outlineLine (level + 1) "distinct" else "") ++
      (if reversed then outlineLine (level + 1) "reversed" else "") ++
      match limit with
      | some n => outlineLine (level + 1) ("limit: " ++ toString n)
      | none => ""

/-- The outlines of the queries that a source is made of. -/
def Source.outline (level : Nat) : Source → String
  | .named _ => ""
  | .derived q => q.outline level
  | .combined _ left right => left.outline level ++ right.outline level

/-- The outline of an entry: its kind and what it holds. -/
def Entry.outline (level : Nat) : Entry → String
  | .select items =>
    outlineLine level "select:" ++ String.join (items.map (Projection.outline (level + 1)))
  | .filter cond => outlineLine level "where:" ++ cond.outline (level + 1)
  | .whereExists sub => outlineLine level "where_exists:" ++ sub.outline (level + 1)
  | .group c => outlineLine level "group:" ++ c.outline (level + 1)
  | .having cond => outlineLine level "having:" ++ cond.outline (level + 1)
  | .order c => outlineLine level "order:" ++ c.outline (level + 1)
  | .join target => outlineLine level "join:" ++ target.outline (level + 1)
  | .joinOn target cond =>
    outlineLine level "join:" ++ target.outline (level + 1) ++
      outlineLine (level + 1) ("on " ++ cond.describe)

/-- The outlines of the entries of a log. -/
def Entry.outlines (level : Nat) : List Entry → String
  | [] => ""
  | entry :: rest => entry.outline level ++ Entry.outlines level rest

end

end SqlTree
