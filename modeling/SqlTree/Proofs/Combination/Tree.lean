import SqlTree.Query.Compile
import Mathlib.Data.List.Basic

/-!
# The text of set operations

A tree of set operations over tables is written as its tables from left to right with its operators
between them. Main statements: every tree has a text, and two trees have the same text exactly when
they have the same tables and operators in a row, however these are nested.
-/

namespace SqlTree

/-- The name of a table that is a single token of a statement. -/
structure TableName where
  text : String
  blank_notMem : ' ' ∉ text.toList
  deriving DecidableEq

/-- Set operations over tables. -/
inductive SetTree where
  | table (name : TableName)
  | combine (op : SetOp) (left right : SetTree)

namespace SetTree

/-- The query that the builders make of a tree. -/
def toQuery : SetTree → Query
  | .table name => .ofTable name.text
  | .combine op left right => .combine op left.toQuery right.toQuery

/-- The first table. -/
def head : SetTree → TableName
  | .table name => name
  | .combine _ left _ => left.head

/-- The operators from left to right, each with the table that follows it. -/
def tail : SetTree → List (SetOp × TableName)
  | .table _ => []
  | .combine op left right => left.tail ++ (op, right.head) :: right.tail

/-- The operators from left to right. -/
def operators (t : SetTree) : List SetOp := t.tail.map Prod.fst

/-- The tables from left to right. -/
def names (t : SetTree) : List TableName := t.head :: t.tail.map Prod.snd

end SetTree

namespace TableName

/-- The tokens of the statement that yields the rows of a table. -/
def tokens (name : TableName) : List String := ["SELECT", starName, "FROM", name.text]

theorem text_injective {name other : TableName} (h : name.text = other.text) : name = other := by
  cases name
  cases other
  simp only at h
  subst h
  rfl

end TableName

/-- The tokens of a row of tables with operators between them. -/
def Combination.tokens (first : TableName) (rest : List (SetOp × TableName)) : List String :=
  first.tokens ++ rest.flatMap fun arm => arm.1.name :: arm.2.tokens

theorem SetOp.name_injective {op other : SetOp} (h : op.name = other.name) : op = other := by
  revert h
  cases op <;> cases other <;> decide

/-- The tokens tell the tables and the operators. -/
theorem Combination.tokens_injective {first first' : TableName}
    {rest rest' : List (SetOp × TableName)}
    (h : Combination.tokens first rest = Combination.tokens first' rest') :
    first = first' ∧ rest = rest' := by
  induction rest generalizing first first' rest' with
  | nil =>
    cases rest' with
    | nil =>
      simp only [Combination.tokens, TableName.tokens, List.flatMap_nil, List.append_nil,
        List.cons.injEq, true_and, and_true] at h
      exact ⟨TableName.text_injective h, rfl⟩
    | cons arm rest' => simp [Combination.tokens, TableName.tokens] at h
  | cons arm rest ih =>
    cases rest' with
    | nil => simp [Combination.tokens, TableName.tokens] at h
    | cons arm' rest' =>
      simp only [Combination.tokens, TableName.tokens, List.flatMap_cons, List.cons_append,
        List.nil_append, List.cons.injEq, true_and] at h
      obtain ⟨hfirst, hop, harm⟩ := h
      have hnext : Combination.tokens arm.2 rest = Combination.tokens arm'.2 rest' := by
        simpa only [Combination.tokens, TableName.tokens, List.cons_append, List.nil_append,
          List.cons.injEq, true_and] using harm
      obtain ⟨hname, hrest⟩ := ih hnext
      have harms : arm = arm' := Prod.ext (SetOp.name_injective hop) hname
      exact ⟨TableName.text_injective hfirst, by rw [harms, hrest]⟩

/-- A statement tells its tokens if none of them holds a blank. -/
theorem Statement.text_injective {tokens tokens' : List String} (hne : tokens ≠ [])
    (hne' : tokens' ≠ []) (hblank : ∀ token ∈ tokens, ' ' ∉ token.toList)
    (hblank' : ∀ token ∈ tokens', ' ' ∉ token.toList)
    (h : Statement.text tokens = Statement.text tokens') : tokens = tokens' := by
  have hsplit {ts : List String} (hts : ts ≠ []) (hb : ∀ token ∈ ts, ' ' ∉ token.toList) :
      ((Statement.text ts).split ' ').toList.map (·.copy) = ts := by
    have hsingleton : " " = String.singleton ' ' := rfl
    rw [Statement.text, hsingleton, String.toList_split_intercalate hb, if_neg hts]
  rw [← hsplit hne hblank, h, hsplit hne' hblank']

/-- The projections of a set operation are made explicit in its arms. -/
theorem Query.projected_combine (op : SetOp) (left right : Query) :
    (combine op left right).projected = combine op left.projected right.projected := by
  cases left
  simp [combine, ofSource, Query.projected, Source.projected, Source.isCombined, Source.setOp?]

/-- No token of a row of tables holds a blank. -/
theorem Combination.blank_notMem_of_mem_tokens {first : TableName}
    {rest : List (SetOp × TableName)} :
    ∀ token ∈ Combination.tokens first rest, ' ' ∉ token.toList := by
  have hname (name : TableName) : ∀ token ∈ name.tokens, ' ' ∉ token.toList := by
    intro token htoken
    simp only [TableName.tokens, List.mem_cons, List.not_mem_nil, or_false] at htoken
    rcases htoken with rfl | rfl | rfl | rfl
    · decide
    · decide
    · decide
    · exact name.blank_notMem
  have hop (op : SetOp) : ' ' ∉ op.name.toList := by
    cases op <;> decide
  intro token htoken
  rcases List.mem_append.mp htoken with hfirst | hrest
  · exact hname first token hfirst
  · obtain ⟨arm, _, harm⟩ := List.mem_flatMap.mp hrest
    rcases List.mem_cons.mp harm with rfl | hmem
    · exact hop arm.1
    · exact hname arm.2 token hmem

namespace SetTree

/-- The tokens of a tree do not show how it is nested. -/
def tokens (t : SetTree) : List String := Combination.tokens t.head t.tail

theorem tokens_combine (op : SetOp) (left right : SetTree) :
    (combine op left right).tokens = left.tokens ++ [op.name] ++ right.tokens := by
  simp [tokens, Combination.tokens, head, tail]

/-- Neither a table nor a set operation over tables orders or limits its rows. -/
theorem cutsRows_projected (t : SetTree) : t.toQuery.projected.cutsRows = false := by
  cases t with
  | table name => rfl
  | combine op left right =>
    rw [toQuery, Query.projected_combine]
    rfl

/-- The statement of a tree is the row of its tables and operators. -/
theorem tokens_projected (t : SetTree) (n : Nat) : t.toQuery.projected.tokens n = t.tokens := by
  induction t generalizing n with
  | table name => rfl
  | combine op left right hleft hright =>
    rw [toQuery, Query.projected_combine, tokens_combine]
    simp [Query.combine, Query.ofSource, Query.tokens, Source.isCombined, Source.setOp?,
      Source.tokens, Statement.trailing, Entry.pieces, Piece.select, Statement.list,
      Query.armTokens, cutsRows_projected, hleft, hright]

/-- A tree can be written. -/
theorem check_projected (t : SetTree) : t.toQuery.projected.check = .ok () := by
  induction t with
  | table name => rfl
  | combine op left right hleft hright =>
    rw [toQuery, Query.projected_combine]
    simp only [Query.combine, Query.ofSource, Query.check, Source.setOp?, Source.check,
      Entry.checkOrders, hleft, hright]
    rfl

/-- A tree has no existence test to convert. -/
theorem prepared_toQuery (t : SetTree) : t.toQuery.prepared = t.toQuery.projected := by
  cases t with
  | table name => rfl
  | combine op left right => rfl

/-- The SQL of a tree is the row of its tables and operators. -/
theorem compile_toQuery (t : SetTree) :
    t.toQuery.compile = .ok (Statement.text t.tokens ++ ";") := by
  rw [Query.compile, prepared_toQuery, Query.write, check_projected, tokens_projected]
  rfl

/-- Two trees have the same SQL exactly when they have the same tables and operators in a row. -/
theorem compile_eq_compile_iff {s t : SetTree} :
    s.toQuery.compile = t.toQuery.compile ↔ s.head = t.head ∧ s.tail = t.tail := by
  have hne (u : SetTree) : u.tokens ≠ [] := List.cons_ne_nil _ _
  constructor
  · intro h
    rw [compile_toQuery, compile_toQuery, Except.ok.injEq, String.append_left_inj] at h
    exact Combination.tokens_injective (Statement.text_injective (hne s) (hne t)
      Combination.blank_notMem_of_mem_tokens Combination.blank_notMem_of_mem_tokens h)
  · rintro ⟨hhead, htail⟩
    rw [compile_toQuery, compile_toQuery, tokens, tokens, hhead, htail]

end SetTree

end SqlTree
