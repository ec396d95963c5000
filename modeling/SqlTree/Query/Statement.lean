import SqlTree.Query.Basic
import SqlTree.Text.Enclosed
import SqlTree.Text.Quoted

/-!
# Statements as lists of tokens

A statement is a list of tokens that are joined by single spaces; a nested statement is one token in
parentheses. Each entry of a log yields pieces of clauses, and the clauses stand in the order of the
language whatever the order of the log.
-/

namespace SqlTree

/-- The clauses that the entries of a log contribute to. -/
inductive Clause where
  | projection | join | existence | filter | grouping | having | ordering
  deriving DecidableEq, Repr

/-- The tokens that an entry contributes to a clause. -/
structure Piece where
  clause : Clause
  tokens : List String
  deriving DecidableEq, Repr

/-- What the pieces contribute to one clause. -/
def Piece.select (clause : Clause) (pieces : List Piece) : List (List String) :=
  pieces.filterMap fun p => if p.clause = clause then some p.tokens else none

namespace Statement

/-- Groups of tokens with a separator between them. -/
def separated (separator : String) (groups : List (List String)) : List String :=
  [separator].intercalate groups

/-- A statement as text. -/
def text (tokens : List String) : String := " ".intercalate tokens

/-- A statement as a single token. -/
def nested (tokens : List String) : String := Text.parenthesized (text tokens)

/-- The declaration of a correlation name. -/
def named (name : String) : List String := ["AS", Text.Quoted.identifier name]

/-- A condition over rows or groups: all parts have to hold. -/
def conditions (keyword : String) (conditions : List (List String)) : List String :=
  if conditions.isEmpty then [] else keyword :: separated "AND" conditions

/-- A clause that lists its parts. -/
def list (keyword : String) (parts : List (List String)) : List String :=
  if parts.isEmpty then [] else keyword :: separated "," parts

/-- The clauses of a statement up to those that order and limit it. Existence tests come before
other filters. -/
def select (distinct : Bool) (source : List String) (pieces : List Piece) : List String :=
  let items := Piece.select .projection pieces
  ["SELECT"] ++ (if distinct then ["DISTINCT"] else []) ++
    separated "," (if items.isEmpty then [[starName]] else items) ++
    ["FROM"] ++ source ++ (Piece.select .join pieces).flatten ++
    conditions "WHERE" (Piece.select .existence pieces ++ Piece.select .filter pieces) ++
    list "GROUP BY" (Piece.select .grouping pieces) ++
    conditions "HAVING" (Piece.select .having pieces)

/-- The clauses that order and limit a statement. The direction is written once, after the last
ordering. -/
def trailing (reversed : Bool) (limit : Option Nat) (pieces : List Piece) : List String :=
  let orders := Piece.select .ordering pieces
  list "ORDER BY" orders ++
    (if orders.isEmpty then [] else [if reversed then "DESC" else "ASC"]) ++
    match limit with
    | some n => ["LIMIT", toString n]
    | none => []

end Statement

end SqlTree
