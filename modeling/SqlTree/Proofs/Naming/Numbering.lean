import SqlTree.Proofs.Faults.IllFormed
import SqlTree.Proofs.Lexical.Statement
import SqlTree.Proofs.Naming.Given
import SqlTree.Proofs.Reading.Opening
import Mathlib.Algebra.Ring.Nat

/-!
# The numbers of derived tables

Every derived table that is written and has no name of its own is given one, and the names are
numbered in one row through the whole statement. Main statements: how many names a query takes is
the number of such tables in the statements that are written for it, and a compiled query gives the
names from the first to the last of these exactly once each, if no other name looks like them.
-/

namespace SqlTree

namespace Text

/-- Whether the name is `sq` with digits behind it. -/
def isNumbered (name : String) : Bool :=
  match name.toList with
  | 's' :: 'q' :: digits => !digits.isEmpty && digits.all Char.isDigit
  | _ => false

theorem isNumbered_derivedName (n : Nat) : isNumbered (derivedName n) = true := by
  have hlist : (derivedName n).toList = 's' :: 'q' :: (toString (n + 1)).toList := by
    rw [derivedName, String.toList_append]
    rfl
  have hdigits : (toString (n + 1)).toList.all Char.isDigit = true :=
    List.all_eq_true.mpr fun c hc => isDigit_of_mem_toString (n + 1) c hc
  have hne : (toString (n + 1)).toList.isEmpty = false := by
    rw [List.isEmpty_eq_false_iff]
    simp
  simp only [isNumbered, hlist, hdigits, hne]
  rfl

theorem ne_of_isNumbered {name other : String} (h : isNumbered name = true)
    (hother : isNumbered other = false) : other ≠ name := by
  rintro rfl
  rw [hother] at h
  cases h

theorem isPlainIdentifier_of_isNumbered {name : String} (h : isNumbered name = true) :
    isPlainIdentifier name = true := by
  unfold isNumbered at h
  split at h
  · rename_i digits hlist
    rw [Bool.and_eq_true, List.all_eq_true] at h
    have hparts : digits.all isPlainPart = true :=
      List.all_eq_true.mpr fun c hc => by simp [isPlainPart, h.2 c hc]
    simp only [isPlainIdentifier, hlist, List.all_cons, hparts]
    decide
  · cases h

/-- The names behind `AS` that look like those of derived tables are the first ones of these, each
of them once, and outside strings such names stand in quotes nowhere else. -/
def NumbersTables (count : Nat) (sql : String) : Prop :=
  ∃ lexemes, lexemes? sql.toList = some lexemes ∧
    ((lexemes.filterMap Lexeme.identifier?).filter isNumbered).Perm
      ((List.range count).map derivedName) ∧
    ∀ name, isNumbered name = true → Lexeme.OnlyGiven name lexemes

end Text

/-- How often a name is among so many names of derived tables from a number on. -/
def generated (name : String) (n count : Nat) : Nat :=
  ((List.range' n count).map derivedName).count name

theorem generated_zero (name : String) (n : Nat) : generated name n 0 = 0 := rfl

theorem generated_add (name : String) (n a b : Nat) :
    generated name n (a + b) = generated name n a + generated name (n + a) b := by
  have hrange : List.range' n (a + b) = List.range' n a ++ List.range' (n + a) b := by
    rw [List.range'_append_1]
  rw [generated, hrange, List.map_append, List.count_append]
  rfl

theorem generated_one (name : String) (n : Nat) :
    generated name n 1 = if derivedName n = name then 1 else 0 := by
  simp [generated, List.count_singleton]

/-! ### Tables without a name -/

/-- The arms of a set operation. -/
def Source.arms : Source → List Query
  | .combined _ left right => [left, right]
  | _ => []

namespace Query

/-- How many names a join target needs for what is written of it: itself, or its source if it does
nothing but project. -/
def unnamedTarget (target : Query) : Nat :=
  if target.onlyProjects then (target.source.needsName target.aliasName).toNat
  else target.needsName.toNat

/-- How many derived tables without a name a single statement has: its source, arms that order or
limit their rows, and join targets. -/
def unnamedTables (q : Query) : Nat :=
  (q.source.needsName q.aliasName).toNat + q.source.arms.countP cutsRows +
    ((q.log.filterMap Entry.target?).map unnamedTarget).sum

/-- The queries whose statements are written for a query, as often as they are. -/
def statements (q : Query) : List Query :=
  q :: (q.writtenQueries.attach.map fun sub => sub.1.statements).flatten
termination_by sizeOf q
decreasing_by exact sizeOf_lt_of_mem_writtenQueries sub.2

theorem statements_eq (q : Query) :
    q.statements = q :: (q.writtenQueries.map statements).flatten := by
  rw [statements, List.attach_map_val]

/-- The statements are those of the queries that are written for the query. -/
theorem mem_statements_iff {q sub : Query} : sub ∈ q.statements ↔ q.Writes sub := by
  induction q using inductionOnWritten with
  | step q ih =>
  rw [statements_eq, List.mem_cons, Writes, Relation.ReflTransGen.cases_head_iff, eq_comm]
  refine or_congr_right ?_
  simp only [List.mem_flatten, List.mem_map]
  constructor
  · rintro ⟨_, ⟨part, hpart, rfl⟩, hsub⟩
    exact ⟨part, hpart, (ih part hpart).mp hsub⟩
  · rintro ⟨part, hpart, hsub⟩
    exact ⟨part.statements, ⟨part, hpart, rfl⟩, (ih part hpart).mpr hsub⟩

/-- How many names queries take together. -/
def nameCounts (queries : List Query) : Nat := (queries.map nameCount).sum

theorem nameCounts_append (queries others : List Query) :
    nameCounts (queries ++ others) = nameCounts queries + nameCounts others := by
  simp [nameCounts]

end Query

/-- How many names the queries at the ends of expressions take together. -/
def Leaf.nameCounts (leaves : List Leaf) : Nat := Query.nameCounts (leaves.filterMap Leaf.query?)

theorem Leaf.nameCounts_append (leaves others : List Leaf) :
    nameCounts (leaves ++ others) = nameCounts leaves + nameCounts others := by
  rw [nameCounts, List.filterMap_append, Query.nameCounts_append]
  rfl

mutual

/-- An expression takes the names that the queries at its ends take. -/
theorem Column.nameCount_eq : ∀ c : Column, c.nameCount = Leaf.nameCounts c.leaves
  | ⟨base, _, _⟩ => by
    simp only [Column.nameCount, Column.leaves]
    exact Base.nameCount_eq base

theorem Base.nameCount_eq : ∀ b : Base, b.nameCount = Leaf.nameCounts b.leaves
  | .named _ _ => by
    simp only [Base.nameCount, Base.leaves]
    rfl
  | .binary _ left right => by
    simp only [Base.nameCount, Base.leaves, Leaf.nameCounts_append]
    rw [Operand.nameCount_eq left, Operand.nameCount_eq right]

theorem Operand.nameCount_eq : ∀ side : Operand, side.nameCount = Leaf.nameCounts side.leaves
  | .column c => by
    simp only [Operand.nameCount, Operand.leaves]
    exact Column.nameCount_eq c
  | .literal _ => by
    simp only [Operand.nameCount, Operand.leaves]
    rfl
  | .query q => by
    simp [Operand.nameCount, Operand.leaves, Leaf.nameCounts, Leaf.query?, Query.nameCounts]

end

theorem Projection.nameCounts_eq (items : List Projection) :
    nameCounts items = Leaf.nameCounts (items.flatMap fun item => item.expr.leaves) := by
  induction items with
  | nil => rfl
  | cons item rest ih =>
    obtain ⟨expr, aliasName⟩ := item
    rw [nameCounts, nameCount, ih, List.flatMap_cons, Leaf.nameCounts_append, Operand.nameCount_eq]

/-- A source takes a name for each arm that is nested, and those of its queries. -/
theorem Source.nameCount_eq (source : Source) :
    source.nameCount = source.arms.countP Query.cutsRows + Query.nameCounts source.queries := by
  cases source with
  | named name => rfl
  | derived q => simp [nameCount, arms, queries, Query.nameCounts]
  | combined op left right =>
    simp only [nameCount, arms, queries, Query.nameCounts, List.countP_cons, List.map_cons,
      List.sum_cons]
    cases left.cutsRows <;> cases right.cutsRows <;> simp <;> omega

/-- A join target takes a name for itself if it needs one, and those of what is written for it. -/
theorem Query.targetNameCount_eq (target : Query) :
    (if target.onlyProjects then target.sourceNameCount
      else target.needsName.toNat + target.nameCount) =
      target.unnamedTarget + nameCounts target.targetQueries := by
  unfold unnamedTarget targetQueries
  split
  · rename_i honly
    obtain ⟨source, aliasName, log, limit, distinct, reversed, driver⟩ := target
    -- a set operation does more than project
    have harms : source.arms = [] := by
      cases source with
      | combined op left right => cases honly
      | _ => rfl
    simp only [sourceNameCount, Source.nameCount_eq, harms, List.countP_nil, Nat.zero_add]
  · simp [nameCounts]

theorem Entry.nameCount_eq (entry : Entry) :
    entry.nameCount =
      (entry.target?.toList.map Query.unnamedTarget).sum +
        Query.nameCounts entry.writtenQueries := by
  cases entry with
  | select items =>
    rw [nameCount, Projection.nameCounts_eq]
    simp [target?, writtenQueries, leaves, Leaf.nameCounts]
  | filter c | group c | having c | order c =>
    rw [nameCount, Column.nameCount_eq]
    simp [target?, writtenQueries, leaves, Leaf.nameCounts]
  | whereExists sub =>
    simp [nameCount, target?, writtenQueries, leaves, Leaf.query?, Query.nameCounts]
  | join target =>
    rw [nameCount, Query.targetNameCount_eq]
    simp [target?, writtenQueries, leaves]
  | joinOn target cond =>
    rw [nameCount, Query.targetNameCount_eq, Column.nameCount_eq]
    simp [target?, writtenQueries, leaves, Leaf.nameCounts, Query.nameCounts_append]
    omega

theorem Entry.nameCounts_eq (log : List Entry) :
    nameCounts log = ((log.filterMap target?).map Query.unnamedTarget).sum +
      Query.nameCounts (log.flatMap writtenQueries) := by
  induction log with
  | nil => rfl
  | cons entry rest ih =>
    rw [nameCounts, ih, entry.nameCount_eq, List.flatMap_cons, Query.nameCounts_append,
      List.filterMap_cons]
    cases entry.target? with
    | none => simp; omega
    | some target => simp; omega

/-- A query takes a name for each table of its statement that has none, and those of the queries
that are written right below it. -/
theorem Query.nameCount_eq_add (q : Query) :
    q.nameCount = q.unnamedTables + nameCounts q.writtenQueries := by
  have hwritten : nameCounts q.writtenQueries =
      nameCounts q.source.queries + nameCounts (q.log.flatMap Entry.writtenQueries) :=
    nameCounts_append _ _
  have hcount : q.nameCount = (q.source.needsName q.aliasName).toNat + q.source.nameCount +
      Entry.nameCounts q.log := by
    cases q
    rw [nameCount]
  rw [hcount, hwritten, Source.nameCount_eq, Entry.nameCounts_eq, unnamedTables]
  omega

/-- A query takes as many names as there are tables without one in the statements that are written
for it. -/
theorem Query.nameCount_eq_sum (q : Query) :
    q.nameCount = (q.statements.map unnamedTables).sum := by
  induction q using inductionOnWritten with
  | step q ih =>
  have hbelow : q.writtenQueries.map nameCount =
      (q.writtenQueries.map statements).map fun written => (written.map unnamedTables).sum := by
    rw [List.map_map]
    exact List.map_congr_left ih
  rw [nameCount_eq_add, nameCounts, hbelow, statements_eq, List.map_cons, List.sum_cons,
    List.map_flatten, List.sum_flatten]
  simp only [List.map_map, Function.comp_def]

/-! ### Names that are given -/

/-- Names of tables and columns are as asked for, and no table and no alias has a name that looks
like that of a derived table. -/
def Demand.unnumbered (isName : String → Prop) : Demand where
  query q := (∀ name, q.reference.name = some name → isName name ∧ Text.isNumbered name = false) ∧
    ∀ given, q.reference.aliasName = some given → Text.isNumbered given = false
  entry entry := ∀ items, entry = .select items →
    ∀ item ∈ items, ∀ given, item.aliasName = some given → Text.isNumbered given = false
  column c := ∀ name owner, c.base = .named name owner →
    isName name ∧ ∀ r, owner = some r → ∀ table, r.name = some table → isName table
  literal _ := True

/-- The passes make no names and aliases, except for the star. -/
theorem Demand.stable_unnumbered {isName : String → Prop} (hstar : isName starName) :
    (unnumbered isName).Stable where
  query_congr q q' hreference _ hq := by
    simp only [unnumbered, hreference]
    exact hq
  entry_projected entry hentry items he item hitem given hgiven := by
    obtain ⟨items', item', he', hitem', hsame⟩ := Entry.exists_item_of_projected he hitem
    exact hentry items' he' item' hitem' given (hsame.trans hgiven)
  entry_yield c items he item hitem given hgiven := by
    cases he
    rw [List.mem_singleton.mp hitem] at hgiven
    cases hgiven
  entry_membership c values _ items he := by cases he
  column_projected _ hc name owner hbase := hc name owner (Column.base_eq_of_projected hbase)
  column_star name owner hbase := by
    cases hbase
    exact ⟨hstar, nofun⟩
  column_ofBinary op left right name owner hbase := by cases hbase

/-- The statement of the query, from whatever number on, gives the name as often as it is among the
names that the query takes. -/
def Query.GivesTaken (name : String) (q : Query) : Prop :=
  ∀ n, Statement.Gives name (generated name n q.nameCount) (q.tokens n)

section Given

variable {name : String}

/-- A column by name gives no name. -/
theorem Base.gives_nameSql (hname : Text.isNumbered name = true) {column : String}
    {owner : Option Reference} (hcolumn : Text.QuoteFree column)
    (howner : ∀ r, owner = some r → ∀ table, r.name = some table → Text.QuoteFree table) :
    Text.Gives name 0 (nameSql column owner) := by
  unfold nameSql
  split
  · exact .of_quoteFree hcolumn
  · split
    · rename_i qualifier hqualifier
      obtain ⟨r, hr, hsql⟩ := Option.bind_eq_some_iff.mp hqualifier
      have hgives : Text.Gives name 0 qualifier := by
        unfold Reference.sql? at hsql
        split at hsql
        · rename_i given _
          obtain rfl := Option.some.inj hsql
          split
          · rename_i hplain
            exact .of_unmarked (Text.unmarked_of_isPlainIdentifier hplain)
          · rename_i hplain
            refine .identifier ?_
            rintro rfl
            exact hplain (Text.isPlainIdentifier_of_isNumbered hname)
        · exact .of_quoteFree (howner r hr qualifier hsql)
      exact hgives.joined "." (by decide) (by decide) (.of_quoteFree hcolumn)
    · exact .of_quoteFree hcolumn

theorem Column.gives_around {count : Nat} {body : String} (base : Base) (functions : List Func)
    (nullTest : Option NullTest) (h : Text.Gives name count body) :
    Text.Gives name count (around base functions nullTest body) := by
  have hfunctions : ∀ (functions : List Func) {text : String}, Text.Gives name count text →
      Text.Gives name count (functions.foldl Func.applied text) := by
    intro functions
    induction functions with
    | nil => exact fun htext => htext
    | cons f rest ih =>
      exact fun htext => ih (htext.ungrouped.parenthesized.prepended f.unmarked_name
        f.name_ne_empty)
  have hall : Text.Gives name count
      (functions.foldl Func.applied (if base.isInfix then Text.parenthesized body else body)) := by
    refine hfunctions functions ?_
    split
    · exact h.parenthesized
    · exact h
  unfold around
  cases nullTest with
  | none => exact hall
  | some test =>
    exact hall.joined " " (by decide) (by decide) (.of_unmarked test.unmarked_text)

mutual

/-- Nothing is given in a literal. -/
theorem Literal.gives_text : ∀ v : Literal, Text.Gives name 0 v.text
  | .null => by
    simp only [Literal.text]
    exact .of_unmarked (by decide)
  | .bool value => by
    cases value <;> simp only [Literal.text] <;> exact .of_unmarked (by decide)
  | .int n => by
    simp only [Literal.text]
    exact .of_unmarked (Text.unmarked_toString_int n)
  | .float x => by
    simp only [Literal.text]
    exact .of_unmarked (Text.unmarked_floatText x)
  | .string s => by
    simp only [Literal.text]
    exact .string s
  | .date d => by
    simp only [Literal.text]
    exact .string d.text
  | .timestamp t => by
    simp only [Literal.text]
    exact .string t.text
  | .tuple items => by
    simp only [Literal.text]
    exact Text.Gives.parenthesized (Literal.gives_texts items)

theorem Literal.gives_texts :
    ∀ items : List Literal, Text.Gives name 0 (",".intercalate (Literal.texts items))
  | [] => .of_unmarked (by decide)
  | [item] => by
    simp only [Literal.texts, String.intercalate_singleton]
    exact Literal.gives_text item
  | item :: next :: rest => by
    have hrest := Literal.gives_texts (next :: rest)
    simp only [Literal.texts, String.intercalate_cons_cons] at hrest ⊢
    exact (Literal.gives_text item).joined "," (by decide) (by decide) hrest

end

/-- An operator with its operands. -/
theorem Text.Gives.infixed {word s t : String} {m n : Nat} (hword : Text.Unmarked word)
    (hs : Text.Gives name m s) (ht : Text.Gives name n t) :
    Text.Gives name (m + n) (s ++ " " ++ word ++ " " ++ t) :=
  (hs.joined " " (by decide) (by decide) (.of_unmarked hword)).joined
    " " (by decide) (by decide) ht

mutual

/-- An expression gives the name as often as it is among the names that it takes, if the queries at
its ends do. -/
theorem Column.gives_sql (hname : Text.isNumbered name = true) : ∀ (c : Column) (n : Nat),
    c.Meets (.unnumbered Text.QuoteFree) → (∀ sub, .query sub ∈ c.leaves → sub.GivesTaken name) →
      Text.Gives name (generated name n c.nameCount) (c.sql n) ∧
        Text.Gives name (generated name n c.nameCount) (c.rangeSql n)
  | ⟨base, functions, nullTest⟩, n, hc, hleaves => by
    simp only [Column.leaves] at hleaves
    have hbody := Base.gives_body hname base n (Column.meets_iff.mp hc).2
      (fun column owner hbase => (Column.meets_iff.mp hc).1 column owner hbase) hleaves
    simp only [Column.sql, Column.rangeSql, Column.nameCount]
    have haround := Column.gives_around base functions nullTest hbody
    refine ⟨haround, ?_⟩
    split
    · exact hbody
    · exact haround

theorem Base.gives_body (hname : Text.isNumbered name = true) : ∀ (b : Base) (n : Nat),
    b.Meets (.unnumbered Text.QuoteFree) →
    (∀ column owner, b = .named column owner → Text.QuoteFree column ∧
      ∀ r, owner = some r → ∀ table, r.name = some table → Text.QuoteFree table) →
    (∀ sub, .query sub ∈ b.leaves → sub.GivesTaken name) →
      Text.Gives name (generated name n b.nameCount) (b.body n)
  | .named column owner, n, _, hcolumn, _ => by
    simp only [Base.body, Base.nameCount, generated_zero]
    obtain ⟨hfree, howner⟩ := hcolumn column owner rfl
    exact Base.gives_nameSql hname hfree howner
  | .binary op left right, n, hb, _, hleaves => by
    simp only [Base.Meets] at hb
    simp only [Base.leaves, List.mem_append] at hleaves
    have hleft := (Operand.gives_sql hname left n hb.1 fun sub h => hleaves sub (.inl h)).1
    have hright := Operand.gives_sql hname right (n + left.nameCount) hb.2
      fun sub h => hleaves sub (.inr h)
    simp only [Base.body, Base.nameCount, generated_add]
    cases op with
    | mod =>
      exact (hleft.joined " , " (by decide) (by decide)
        hright.1).parenthesized.prepended (BinaryOp.unmarked_symbol _) (by decide)
    | between => exact hleft.infixed (BinaryOp.unmarked_symbol _) hright.2
    | _ => exact hleft.infixed (BinaryOp.unmarked_symbol _) hright.1

theorem Operand.gives_sql (hname : Text.isNumbered name = true) : ∀ (side : Operand) (n : Nat),
    side.Meets (.unnumbered Text.QuoteFree) →
    (∀ sub, .query sub ∈ side.leaves → sub.GivesTaken name) →
      Text.Gives name (generated name n side.nameCount) (side.sql n) ∧
        Text.Gives name (generated name n side.nameCount) (side.rangeSql n)
  | .column c, n, hside, hleaves => by
    simp only [Operand.Meets] at hside
    simp only [Operand.leaves] at hleaves
    simp only [Operand.sql, Operand.rangeSql, Operand.nameCount]
    exact Column.gives_sql hname c n hside hleaves
  | .literal v, n, _, _ => by
    simp only [Operand.sql, Operand.rangeSql, Operand.nameCount, generated_zero]
    exact ⟨v.gives_text, v.gives_text⟩
  | .query q, n, _, hleaves => by
    have hq := hleaves q (by simp [Operand.leaves])
    simp only [Operand.sql, Operand.rangeSql, Operand.nameCount]
    exact ⟨(hq n).nested, (hq n).nested⟩

end

/-- What is projected gives what its expressions give; its aliases are other names. -/
theorem Projection.gives_pieces (hname : Text.isNumbered name = true) {items : List Projection}
    (n : Nat)
    (hitems : Projection.AllMeet (.unnumbered Text.QuoteFree) items)
    (halias : ∀ item ∈ items, ∀ given, item.aliasName = some given →
      Text.isNumbered given = false)
    (hleaves : ∀ item ∈ items, ∀ sub, .query sub ∈ item.expr.leaves → sub.GivesTaken name) :
    Statement.GroupsGive name (generated name n (Projection.nameCounts items))
      ((Projection.pieces n items).map Piece.tokens) := by
  induction items generalizing n with
  | nil => exact .nil
  | cons item rest ih =>
    obtain ⟨expr, aliasName⟩ := item
    rw [List.forall_mem_cons] at halias hleaves
    simp only [Projection.AllMeet, Projection.Meets] at hitems
    have hrest := ih (n + expr.nameCount) hitems.2 halias.2 hleaves.2
    have hexpr := (Operand.gives_sql hname expr n hitems.1 hleaves.1).1
    simp only [Projection.pieces, Projection.piece, Projection.nameCounts, Projection.nameCount,
      List.map_cons, generated_add]
    refine .cons ?_ hrest
    cases aliasName with
    | none => exact .singleton hexpr
    | some given =>
      exact Statement.Gives.cons hexpr
        (.named_of_ne (Text.ne_of_isNumbered hname (halias.1 given rfl)))

/-- An arm gives a name of its own if it is nested. -/
theorem Query.GivesTaken.armTokens {arm : Query} (h : arm.GivesTaken name) (n : Nat) :
    Statement.Gives name (generated name n (arm.cutsRows.toNat + arm.nameCount))
      (arm.armTokens n (arm.tokens (n + arm.cutsRows.toNat))) := by
  unfold Query.armTokens
  cases hcuts : arm.cutsRows with
  | false =>
    simp only [Bool.toNat_false, Nat.zero_add, Nat.add_zero]
    exact h n
  | true =>
    simp only [if_true, Bool.toNat_true, generated_add, generated_one]
    rw [Nat.add_comm]
    have hnested : Statement.Gives name (generated name (n + 1) arm.nameCount)
        (["SELECT", starName, "FROM"] ++ [Statement.nested (arm.tokens (n + 1))]) :=
      .append_words _ (by decide) (.singleton (h (n + 1)).nested)
    exact hnested.append (.named name (derivedName n))

/-- A source gives a name of its own if it needs one. -/
theorem Source.gives_tokens {source : Source} {aliasName : Option String}
    (htable : ∀ table, source.name? = some table → Text.QuoteFree table)
    (halias : ∀ given, aliasName = some given → given ≠ name)
    (hqueries : ∀ sub ∈ source.queries, sub.GivesTaken name) (n : Nat) :
    Statement.Gives name
      (generated name n ((source.needsName aliasName).toNat + source.nameCount))
      (source.tokens n aliasName) := by
  cases source with
  | named table =>
    have hcount : (Source.named table).needsName aliasName = false := by
      simp [needsName, isNamed, name?]
    have hname : Text.Gives name 0 table := .of_quoteFree (htable table rfl)
    rw [hcount, Source.nameCount]
    simp only [Source.tokens]
    cases aliasName with
    | none => exact .singleton hname
    | some given => exact Statement.Gives.cons hname (.named_of_ne (halias given rfl))
  | derived q =>
    have hq := hqueries q (by simp [queries])
    cases aliasName with
    | some given =>
      have hcount : (Source.derived q).needsName (some given) = false := rfl
      rw [hcount, Source.nameCount, Bool.toNat_false, Nat.zero_add]
      simp only [Source.tokens]
      exact Statement.Gives.cons (hq n).nested (.named_of_ne (halias given rfl))
    | none =>
      have hcount : (Source.derived q).needsName none = true := rfl
      rw [hcount, Source.nameCount, Bool.toNat_true, generated_add, generated_one, Nat.add_comm]
      simp only [Source.tokens]
      exact Statement.Gives.cons (hq (n + 1)).nested (.named name (derivedName n))
  | combined op left right =>
    have hcount : (Source.combined op left right).needsName aliasName = false := by
      simp [needsName, isCombined, setOp?]
    have hleft := (hqueries left (by simp [queries])).armTokens n
    have hright := (hqueries right (by simp [queries])).armTokens
      (n + (left.cutsRows.toNat + left.nameCount))
    have hop : Statement.Gives name 0 [op.name] :=
      .words (by simpa using op.unmarked_name)
    rw [hcount, Source.nameCount, Bool.toNat_false, Nat.zero_add, generated_add]
    simp only [Source.tokens]
    exact (hleft.append hop).append hright

/-- A join target gives a name of its own if it is nested and has no qualifier. -/
theorem Query.gives_targetTokens (hname : Text.isNumbered name = true) {target : Query}
    (htarget : target.Meets (.unnumbered Text.QuoteFree))
    (hqueries : ∀ sub ∈ target.targetQueries, sub.GivesTaken name) (n : Nat) :
    Statement.Gives name
      (generated name n (if target.onlyProjects then target.sourceNameCount
        else target.needsName.toNat + target.nameCount)) (target.targetTokens n) := by
  obtain ⟨htable, halias⟩ := (Query.meets_iff.mp htarget).1
  unfold targetTokens
  unfold targetQueries at hqueries
  split
  · rename_i honly
    rw [if_pos honly] at hqueries
    cases target
    simp only [sourceTokens, sourceNameCount]
    exact Source.gives_tokens (fun table h => (htable table h).1)
      (fun given h => Text.ne_of_isNumbered hname (halias given h)) hqueries n
  · rename_i honly
    rw [if_neg honly, List.forall_mem_singleton] at hqueries
    unfold nestedTarget needsName
    cases hqualifier : target.reference.qualifier with
    | none =>
      simp only [Option.isNone_none, Bool.toNat_true, generated_add, generated_one,
        Option.getD_none]
      rw [Nat.add_comm]
      exact Statement.Gives.cons (hqueries (n + 1)).nested (.named name (derivedName n))
    | some qualifier =>
      have hfree : Text.isNumbered qualifier = false := by
        unfold Reference.qualifier at hqualifier
        cases hgiven : target.reference.aliasName with
        | some given =>
          rw [hgiven] at hqualifier
          exact Option.some.inj hqualifier ▸ halias given hgiven
        | none =>
          rw [hgiven] at hqualifier
          exact (htable qualifier hqualifier).2
      simp only [Option.isNone_some, Bool.toNat_false, Nat.zero_add, Option.getD_some]
      exact Statement.Gives.cons (hqueries n).nested
        (.named_of_ne (Text.ne_of_isNumbered hname hfree))

/-- What an entry contributes gives the name as often as it is among the names that it takes. -/
theorem Entry.gives_piece (hname : Text.isNumbered name = true) {entry : Entry}
    (hentry : entry.Meets (.unnumbered Text.QuoteFree))
    (hqueries : ∀ sub ∈ entry.writtenQueries, sub.GivesTaken name) (n : Nat) :
    Statement.GroupsGive name (generated name n entry.nameCount)
      ((entry.piece n).map Piece.tokens) := by
  have hleaves : ∀ sub, .query sub ∈ entry.leaves → sub.GivesTaken name := fun sub hsub =>
    hqueries sub (List.mem_append_right _ (List.mem_filterMap.mpr ⟨.query sub, hsub, rfl⟩))
  have hsingle {count : Nat} {clause : Clause} {tokens : List String}
      (h : Statement.Gives name count tokens) :
      Statement.GroupsGive name count (([⟨clause, tokens⟩] : List Piece).map Piece.tokens) :=
    .cons h .nil
  have hparts := hentry.2
  cases entry with
  | select items =>
    simp only [Entry.piece, Entry.nameCount]
    refine Projection.gives_pieces hname n hparts (hentry.1 items rfl) fun item hitem sub hsub => ?_
    exact hleaves sub (List.mem_flatMap.mpr ⟨item, hitem, hsub⟩)
  | filter cond | having cond =>
    simp only [Entry.piece, Entry.nameCount]
    exact hsingle (.singleton (Column.gives_sql hname cond n hparts hleaves).1.grouped)
  | whereExists sub =>
    have hsub := hleaves sub (by simp [leaves])
    simp only [Entry.piece, Entry.nameCount]
    exact hsingle (.singleton ((hsub n).nested.prepended (by decide) (by decide)).parenthesized)
  | group c | order c =>
    simp only [Entry.piece, Entry.nameCount]
    exact hsingle (.singleton (Column.gives_sql hname c n hparts hleaves).1)
  | join target =>
    have htarget := Query.gives_targetTokens hname hparts
      (fun sub hsub => hqueries sub (by simp [writtenQueries, target?, hsub])) n
    simp only [Entry.piece, Entry.nameCount]
    exact hsingle (Statement.Gives.append_words ["INNER JOIN"] (by decide) htarget)
  | joinOn target cond =>
    simp only [Entry.PartsMeet] at hparts
    have htarget := Query.gives_targetTokens hname hparts.1
      (fun sub hsub => hqueries sub (by simp [writtenQueries, target?, hsub])) n
    have hcond := (Column.gives_sql hname cond
      (n + if target.onlyProjects then target.sourceNameCount
        else target.needsName.toNat + target.nameCount) hparts.2 hleaves).1
    have hon := htarget.append
      (Statement.Gives.append_words ["ON"] (by decide) (.singleton hcond))
    simp only [Entry.piece, Entry.nameCount, generated_add]
    exact hsingle (Statement.Gives.append_words ["INNER JOIN"] (by decide) hon)

theorem Entry.gives_pieces (hname : Text.isNumbered name = true) {log : List Entry}
    (hlog : ∀ entry ∈ log, entry.Meets (.unnumbered Text.QuoteFree))
    (hqueries : ∀ entry ∈ log, ∀ sub ∈ entry.writtenQueries, sub.GivesTaken name) (n : Nat) :
    Statement.GroupsGive name (generated name n (nameCounts log))
      ((pieces n log).map Piece.tokens) := by
  induction log generalizing n with
  | nil => exact .nil
  | cons entry rest ih =>
    rw [List.forall_mem_cons] at hlog hqueries
    rw [pieces, nameCounts, generated_add, List.map_append]
    exact (Entry.gives_piece hname hlog.1 hqueries.1 n).append (ih hlog.2 hqueries.2 _)

/-- A query that can be written gives the name as often as it is among the names that it takes. -/
theorem Query.givesTaken_of_check (hname : Text.isNumbered name = true) (q : Query)
    (hq : q.Meets (.unnumbered Text.QuoteFree)) (hcheck : q.check = .ok ()) :
    q.GivesTaken name := by
  induction q using inductionOnWritten with
  | step q ih =>
  intro n
  have hwritten (sub : Query) (hsub : sub ∈ q.writtenQueries) : sub.GivesTaken name :=
    ih sub hsub (meets_of_mem_writtenQueries hq hsub) ((check_eq_ok_iff.mp hcheck).2 sub hsub)
  obtain ⟨hquery, _, hlog⟩ := meets_iff.mp hq
  have hsource := Source.gives_tokens (fun table h => (hquery.1 table h).1)
    (fun given h => Text.ne_of_isNumbered hname (hquery.2 given h))
    fun sub hsub => hwritten sub (List.mem_append_left _ hsub)
  have hpieces := Entry.gives_pieces hname hlog fun entry hentry sub hsub =>
    hwritten sub (List.mem_append_right _ (List.mem_flatMap.mpr ⟨entry, hentry, hsub⟩))
  have hwell := ownFault?_eq_none_iff.mp (check_eq_ok_iff.mp hcheck).1
  obtain ⟨source, aliasName, log, limit, distinct, reversed, driver⟩ := q
  simp only [tokens, nameCount]
  split
  · rename_i hcombined
    have horders : ∀ entry ∈ log, entry.kind = .order := by
      intro entry hentry
      by_contra hkind
      exact hwell (Or.inr ⟨hcombined, entry, hentry, hkind⟩)
    have hclause : ∀ piece ∈ Entry.pieces n log, piece.clause = .ordering := by
      intro piece hpiece
      obtain ⟨before, entry, after, hsplit, hmem⟩ := Entry.mem_pieces_iff.mp hpiece
      rw [Entry.clause_of_mem_piece hmem, horders entry (by simp [hsplit])]
      rfl
    have hselect : Piece.select .ordering (Entry.pieces n log) =
        (Entry.pieces n log).map Piece.tokens := by
      rw [Piece.select, ← List.filterMap_eq_map]
      exact List.filterMap_congr fun piece hpiece => if_pos (hclause piece hpiece)
    have htrailing := Statement.gives_trailing reversed limit (hselect ▸ hpieces n)
    -- the names of the orderings come before those of the arms, which are written first
    rw [Nat.add_comm, generated_add, Nat.add_comm]
    exact (hsource _).append htrailing
  · rw [generated_add]
    exact Statement.gives_select_append_trailing distinct reversed limit (hsource n) (hpieces _)

end Given

namespace Query

/-- The derived tables that are written without a name of their own are given the first names, each
of them once, if no other name looks like these and names have no quotes in them. -/
theorem numbersTables_of_compile_eq_ok {q : Query} {sql : String}
    (hq : q.Meets (.unnumbered Text.QuoteFree)) (hsql : q.compile = .ok sql) :
    Text.NumbersTables (q.prepared.statements.map unnamedTables).sum sql := by
  rw [← nameCount_eq_sum]
  obtain ⟨hcheck, rfl⟩ := write_eq_ok_iff.mp hsql
  have hprepared := meets_prepared (Demand.stable_unnumbered (by decide)) hq
  have hgives (name : String) (hname : Text.isNumbered name = true) :=
    givesTaken_of_check hname q.prepared hprepared hcheck 0
  obtain ⟨lexemes, hlexed, _, _⟩ := hgives (derivedName 0) (Text.isNumbered_derivedName 0)
  have hname (name : String) (hname : Text.isNumbered name = true) :
      Text.Lexeme.occurrences name lexemes = generated name 0 q.prepared.nameCount ∧
        Text.Lexeme.OnlyGiven name lexemes := by
    obtain ⟨lexemes', hlexed', hcount, hgiven⟩ := hgives name hname
    obtain rfl : lexemes' = lexemes :=
      Option.some.inj (hlexed'.lexemes?_eq.symm.trans hlexed.lexemes?_eq)
    exact ⟨hcount, hgiven⟩
  have hend (name : String) := Text.Lexeme.identifier?_map_plain name [';']
  refine ⟨_, hlexed.terminated.lexemes?_eq, List.perm_iff_count.mpr fun name => ?_,
    fun name hnumbered => (hname name hnumbered).2.append
      (Text.Lexeme.onlyGiven_of_forall (hend name))⟩
  cases hnumbered : Text.isNumbered name with
  | true =>
    rw [List.count_filter hnumbered, ← Text.Lexeme.occurrences, Text.Lexeme.occurrences_append,
      (hname name hnumbered).1, List.range_eq_range']
    exact congrArg _ (Text.Lexeme.occurrences_eq_zero (hend name))
  | false =>
    rw [List.count_eq_zero.mpr, List.count_eq_zero.mpr]
    · intro hmem
      obtain ⟨i, _, rfl⟩ := List.mem_map.mp hmem
      rw [Text.isNumbered_derivedName] at hnumbered
      cases hnumbered
    · intro hmem
      rw [(List.mem_filter.mp hmem).2] at hnumbered
      cases hnumbered

/-- A union with a limited arm, joined with the first rows of a derived table. -/
def unnamedThroughout : Query :=
  (ofQuery (combine .union { ofTable "t1" with limit := some 5 } (ofTable "t2"))).push
    (.join { ofQuery (ofTable "t3") with limit := some 2 })

/-- Two sources, an arm and a join target are given names. -/
theorem numbersTables_unnamedThroughout :
    unnamedThroughout.Meets (.unnumbered Text.QuoteFree) ∧
      unnamedThroughout.compile = .ok ("SELECT * FROM (" ++
        "SELECT * FROM (SELECT * FROM t1 LIMIT 5) AS \"sq2\" UNION SELECT * FROM t2" ++
        ") AS \"sq1\" INNER JOIN (" ++
        "SELECT * FROM (SELECT * FROM t3) AS \"sq4\" LIMIT 2" ++ ") AS \"sq3\";") ∧
      Text.NumbersTables 4 ("SELECT * FROM (" ++
        "SELECT * FROM (SELECT * FROM t1 LIMIT 5) AS \"sq2\" UNION SELECT * FROM t2" ++
        ") AS \"sq1\" INNER JOIN (" ++
        "SELECT * FROM (SELECT * FROM t3) AS \"sq4\" LIMIT 2" ++ ") AS \"sq3\";") := by
  have htable (name : String) (hname : Text.QuoteFree name ∧ Text.isNumbered name = false)
      (limit : Option Nat) :
      ({ ofTable name with limit := limit } : Query).Meets (.unnumbered Text.QuoteFree) := by
    refine meets_iff.mpr ⟨⟨fun given hgiven => ?_, nofun⟩, trivial, List.forall_mem_nil _⟩
    obtain rfl := Option.some.inj hgiven
    exact hname
  have hunion : (combine .union { ofTable "t1" with limit := some 5 } (ofTable "t2")).Meets
      (.unnumbered Text.QuoteFree) :=
    meets_iff.mpr ⟨⟨nofun, nofun⟩, ⟨htable "t1" (by decide) (some 5),
      htable "t2" (by decide) none⟩, List.forall_mem_nil _⟩
  have htarget : ({ ofQuery (ofTable "t3") with limit := some 2 } : Query).Meets
      (.unnumbered Text.QuoteFree) :=
    meets_iff.mpr ⟨⟨nofun, nofun⟩, htable "t3" (by decide) none, List.forall_mem_nil _⟩
  have hmeets : unnamedThroughout.Meets (.unnumbered Text.QuoteFree) :=
    meets_iff.mpr ⟨⟨nofun, nofun⟩, hunion, List.forall_mem_singleton.mpr ⟨nofun, htarget⟩⟩
  have hcount : (unnamedThroughout.prepared.statements.map unnamedTables).sum = 4 := by
    rw [← nameCount_eq_sum]
    decide +kernel
  have hcompile : unnamedThroughout.compile = .ok ("SELECT * FROM (" ++
      "SELECT * FROM (SELECT * FROM t1 LIMIT 5) AS \"sq2\" UNION SELECT * FROM t2" ++
      ") AS \"sq1\" INNER JOIN (" ++
      "SELECT * FROM (SELECT * FROM t3) AS \"sq4\" LIMIT 2" ++ ") AS \"sq3\";") := by
    decide +kernel
  exact ⟨hmeets, hcompile, hcount ▸ numbersTables_of_compile_eq_ok hmeets hcompile⟩

/-- The rows of a table whose name has an alias in it, which is taken for a part of the name. -/
def quotedInName : Query := ofQuery (ofTable "t AS \"sq1\"")

/-- Names are written as they are, so one with quotes in it may give a name again. -/
theorem not_forall_numbersTables :
    quotedInName.compile = .ok "SELECT * FROM (SELECT * FROM t AS \"sq1\") AS \"sq1\";" ∧
      ¬ ∀ (q : Query) (sql : String), q.Meets (.unnumbered fun _ => True) → q.compile = .ok sql →
        Text.NumbersTables (q.prepared.statements.map unnamedTables).sum sql := by
  have hcompile : quotedInName.compile =
      .ok "SELECT * FROM (SELECT * FROM t AS \"sq1\") AS \"sq1\";" := by decide +kernel
  refine ⟨hcompile, fun hall => ?_⟩
  have hmeets : quotedInName.Meets (.unnumbered fun _ => True) := by
    refine meets_iff.mpr ⟨⟨nofun, nofun⟩, meets_iff.mpr ⟨⟨fun name hname => ?_, nofun⟩, trivial,
      List.forall_mem_nil _⟩, List.forall_mem_nil _⟩
    obtain rfl := Option.some.inj hname
    exact ⟨trivial, by decide⟩
  obtain ⟨lexemes, hlexemes, hperm, _⟩ := hall _ _ hmeets hcompile
  have hnames : (Text.lexemes?
      "SELECT * FROM (SELECT * FROM t AS \"sq1\") AS \"sq1\";".toList).map
        (List.filterMap Text.Lexeme.identifier?) = some ["sq1", "sq1"] := by cbv
  rw [hlexemes, Option.map_some, Option.some.injEq] at hnames
  have hcount : (quotedInName.prepared.statements.map unnamedTables).sum = 1 := by
    rw [← nameCount_eq_sum]
    decide +kernel
  rw [hnames, hcount] at hperm
  exact absurd hperm.length_eq (by decide +kernel)

end Query

end SqlTree
