import SqlTree.Proofs.Lexical.Spelling
import SqlTree.Proofs.Scoping.Declared
import SqlTree.Query.Compile

/-!
# Identifiers and their spelling

A database takes an identifier between double quotes as it stands and folds the letters of one
without quotes to lower case, so one name has several spellings. Columns print the qualifier of the
query that they are drawn from, and the query declares its correlation name in a `FROM` clause.
Main statements: what a query declares for its own statement is read as the same identifier as what
its columns print, and so is what it declares as the target of a join unless a table without an
alias is nested there and its name is changed by folding.
-/

namespace SqlTree

/-- How letters of identifiers without quotes are folded. Plain identifiers are left as they are. -/
structure CaseFolding where
  fold : String → String
  fold_plain : ∀ {name : String}, Text.isPlainIdentifier name = true → fold name = name

/-- A character of a plain identifier has no upper case to be folded. -/
theorem Text.toLower_of_isPlainPart {c : Char} (h : isPlainPart c = true) : c.toLower = c := by
  have hupper : c.isUpper = false := by
    by_contra hne
    have hc : c.isUpper = true := by simpa using hne
    have hletter : c ≠ '_' := by
      rintro rfl
      exact absurd hc (by decide)
    have hrange : c.isLower = false ∧ c.isDigit = false := by
      delta Char.isUpper at hc
      delta Char.isLower Char.isDigit
      grind
    simp [isPlainPart, isPlainStart, hrange, hletter] at h
  delta Char.isUpper at hupper
  delta Char.toLower
  grind

/-- The letters of ASCII are folded to lower case. -/
def CaseFolding.ascii : CaseFolding where
  fold name := String.ofList (name.toList.map Char.toLower)
  fold_plain {name} h := by
    have hlower : name.toList.map Char.toLower = name.toList :=
      (List.map_congr_left fun c hc =>
        Text.toLower_of_isPlainPart (Text.isPlainPart_of_isPlainIdentifier h c hc)).trans
        (List.map_id _)
    rw [hlower, String.ofList_toList]

namespace CaseFolding

variable (folding : CaseFolding)

/-- The name that an identifier is read as: what stands between double quotes, or the identifier
folded if it does not begin with one. -/
def identifier? (text : String) : Option String :=
  if text.toList.head? = some '"' then
    match Text.Quoted.read? '"' text.toList with
    | some (name, []) => some (String.ofList name)
    | _ => none
  else some (folding.fold text)

/-- A delimited identifier is read as the name in it. -/
@[simp] theorem identifier?_quoted (name : String) :
    folding.identifier? (Text.Quoted.identifier name) = some name := by
  have hread : Text.Quoted.read? '"' (Text.Quoted.identifier name).toList =
      some (name.toList, []) := by
    rw [Text.Quoted.toList_identifier, Text.Quoted.read?_eq_some_iff, List.append_nil]
    exact ⟨rfl, by simp⟩
  have hhead : (Text.Quoted.identifier name).toList.head? = some '"' := by
    rw [Text.Quoted.toList_identifier]
    rfl
  rw [identifier?, if_pos hhead, hread]
  exact congrArg some String.ofList_toList

/-- A plain identifier is read as it stands. -/
theorem identifier?_of_isPlainIdentifier {name : String}
    (h : Text.isPlainIdentifier name = true) : folding.identifier? name = some name := by
  have hhead : name.toList.head? ≠ some '"' := fun hhead =>
    Text.ne_of_isMark (Text.unmarked_of_isPlainIdentifier h '"' (List.mem_of_mem_head? hhead))
      (by decide) rfl
  rw [identifier?, if_neg hhead, folding.fold_plain h]

/-- The two texts are read as the same identifier. -/
def Same (a b : String) : Prop := folding.identifier? a = folding.identifier? b

/-- An alias is read as it was given, be it printed with quotes or without. -/
theorem identifier?_sql? {r : Reference} {aliasName printed : String}
    (halias : r.aliasName = some aliasName) (h : r.sql? = some printed) :
    folding.identifier? printed = some aliasName := by
  simp only [Reference.sql?, halias, Option.some.injEq] at h
  subst h
  split
  · rename_i hplain
    exact folding.identifier?_of_isPlainIdentifier hplain
  · exact folding.identifier?_quoted aliasName

end CaseFolding

namespace Reference

variable {r : Reference}

/-- Without an alias a qualifier is printed as the name of the table stands. -/
theorem sql?_of_aliasName_eq_none (h : r.aliasName = none) : r.sql? = r.qualifier := by
  simp [sql?, qualifier, h]

/-- A reference that has a qualifier prints one. -/
theorem exists_sql?_eq_some (h : r.qualifier.isSome = true) : ∃ printed, r.sql? = some printed := by
  cases halias : r.aliasName with
  | none => exact Option.isSome_iff_exists.mp (sql?_of_aliasName_eq_none halias ▸ h)
  | some aliasName =>
    unfold sql?
    rw [halias]
    exact ⟨_, rfl⟩

end Reference

namespace Query

variable (folding : CaseFolding) {t : Query} {printed : String}

/-- A column other than the star is printed behind the qualifier of its query. -/
theorem sql_column (h : t.reference.sql? = some printed) {column : String}
    (hcolumn : column ≠ starName) (m : Nat) :
    (t.column column).sql m = printed ++ "." ++ column := by
  simp [Query.column, Column.ownedBy, Column.sql, Column.around, Base.body, Base.isInfix,
    Base.nameSql, NullTest.applied, hcolumn, h]

/-- The text that a query declares as its correlation name where its source stands. -/
def declaredBySource (n : Nat) (t : Query) : String :=
  match t.aliasName with
  | some aliasName => Text.Quoted.identifier aliasName
  | none => t.source.name?.getD (Text.Quoted.identifier (derivedName n))

/-- The text that a query declares as its correlation name where it is the target of a join. -/
def declaredByTarget (n : Nat) (t : Query) : String :=
  if t.onlyProjects then t.declaredBySource n
  else Text.Quoted.identifier (t.reference.qualifier.getD (derivedName n))

/-- The correlation name of a source, also if a condition of a join follows it. -/
theorem correlationName?_sourceTokens (ht : t.source.isCombined = false) (n : Nat)
    {rest : List String} (hrest : rest.head? ≠ some "AS") :
    Statement.correlationName? (t.sourceTokens n ++ rest) = some (t.declaredBySource n) := by
  obtain ⟨source, aliasName, log, limit, distinct, reversed, driver⟩ := t
  rw [sourceTokens_eq]
  cases aliasName with
  | some aliasName =>
    cases source with
    | named name => simp [Source.tokens, Statement.correlationName?, Statement.named,
        declaredBySource]
    | derived q => simp [Source.tokens, Statement.correlationName?, Statement.named,
        declaredBySource]
    | combined op left right => cases ht
  | none =>
    cases source with
    | named name =>
      cases rest with
      | nil => simp [Source.tokens, Statement.correlationName?, declaredBySource, Source.name?]
      | cons second rest =>
        have hsecond : second ≠ "AS" := by simpa using hrest
        simp [Source.tokens, Statement.correlationName?, declaredBySource, Source.name?, hsecond]
    | derived q => simp [Source.tokens, Statement.correlationName?, Statement.named,
        declaredBySource, Source.name?]
    | combined op left right => cases ht

/-- The correlation name of the target of a join, also if the condition of the join follows it. -/
theorem correlationName?_targetTokens (t : Query) (n : Nat) {rest : List String}
    (hrest : rest.head? ≠ some "AS") :
    Statement.correlationName? (t.targetTokens n ++ rest) = some (t.declaredByTarget n) := by
  unfold targetTokens declaredByTarget
  split
  · rename_i honly
    exact correlationName?_sourceTokens (isCombined_of_onlyProjects honly) n hrest
  · simp [nestedTarget, Statement.correlationName?, Statement.named]

/-- Where its source stands a query declares what its columns print. -/
theorem same_declaredBySource (h : t.reference.sql? = some printed) (n : Nat) :
    folding.Same printed (t.declaredBySource n) := by
  unfold declaredBySource
  cases halias : t.aliasName with
  | some aliasName =>
    rw [CaseFolding.Same, folding.identifier?_sql? halias h, folding.identifier?_quoted]
  | none =>
    have htable : t.source.name? = some printed := by
      simpa [reference, Reference.sql?, halias] using h
    rw [htable]
    rfl

/-- The target of a join that is nested declares the qualifier in quotes, which is what its columns
print unless the qualifier is the name of a table and folding changes that. -/
theorem same_nested_iff {name : String} (hname : t.reference.qualifier = some name)
    (h : t.reference.sql? = some printed) :
    folding.Same printed (Text.Quoted.identifier name) ↔
      t.aliasName.isSome = true ∨
        ∀ table, t.source.name? = some table → folding.identifier? table = some table := by
  cases halias : t.aliasName with
  | some aliasName =>
    have hsame : aliasName = name := by
      simpa [reference, Reference.qualifier, halias] using hname
    rw [CaseFolding.Same, folding.identifier?_sql? halias h, hsame, folding.identifier?_quoted]
    simp
  | none =>
    have htable : t.source.name? = some name := by
      simpa [reference, Reference.qualifier, halias] using hname
    have hprinted : name = printed := by simpa [reference, Reference.sql?, halias, htable] using h
    rw [CaseFolding.Same, ← hprinted, folding.identifier?_quoted, htable]
    simp

/-- As the target of a join a query declares what its columns print, unless a table without an alias
is nested and its name is changed by folding. -/
theorem same_declaredByTarget_iff (h : t.reference.sql? = some printed) (n : Nat) :
    folding.Same printed (t.declaredByTarget n) ↔
      t.onlyProjects = true ∨ t.aliasName.isSome = true ∨
        ∀ table, t.source.name? = some table → folding.identifier? table = some table := by
  obtain ⟨name, hname, _⟩ := Reference.standsFor_of_sql? h
  unfold declaredByTarget
  by_cases honly : t.onlyProjects = true
  · rw [if_pos honly]
    exact iff_of_true (same_declaredBySource folding h n) (Or.inl honly)
  · rw [if_neg honly, hname, Option.getD_some, same_nested_iff folding hname h]
    exact (or_iff_right honly).symm

/-- What the columns of a query print is read as the identifier that the query declares as the
source of its own statement. What it declares as the target of a join is read as the same one
exactly if it is joined by its source, or has an alias, or the name of its table is unchanged by
folding. -/
theorem same_identifier_iff {column : String} (hqualified : t.reference.qualifier.isSome = true)
    (hcolumn : column ≠ starName) (n m : Nat) :
    ∃ printed, (t.column column).sql m = printed ++ "." ++ column ∧
      (t.source.isCombined = false →
        ∃ declared, Statement.correlationName? (t.sourceTokens n) = some declared ∧
          folding.Same printed declared) ∧
      ∃ declared, Statement.correlationName? (t.targetTokens n) = some declared ∧
        (folding.Same printed declared ↔ t.onlyProjects = true ∨ t.aliasName.isSome = true ∨
          ∀ table, t.source.name? = some table → folding.identifier? table = some table) := by
  obtain ⟨printed, hprinted⟩ := Reference.exists_sql?_eq_some hqualified
  have hnil : ([] : List String).head? ≠ some "AS" := by simp
  refine ⟨printed, sql_column hprinted hcolumn m, fun ht => ?_, ?_⟩
  · have hdeclared := correlationName?_sourceTokens ht n hnil
    rw [List.append_nil] at hdeclared
    exact ⟨t.declaredBySource n, hdeclared, same_declaredBySource folding hprinted n⟩
  · have hdeclared := correlationName?_targetTokens t n hnil
    rw [List.append_nil] at hdeclared
    exact ⟨t.declaredByTarget n, hdeclared, same_declaredByTarget_iff folding hprinted n⟩

/-- The first rows of a table whose name has an upper-case letter. -/
def firstUsers : Query := { ofTable "Users" with limit := some 5 }

/-- The columns of the limited table print its name, and its nested rows are declared under the
same name in quotes. -/
theorem same_identifier_iff_firstUsers :
    (firstUsers.reference.qualifier.isSome = true ∧ "id" ≠ starName) ∧
    ∃ printed, (firstUsers.column "id").sql 1 = printed ++ "." ++ "id" ∧
      (firstUsers.source.isCombined = false →
        ∃ declared, Statement.correlationName? (firstUsers.sourceTokens 0) = some declared ∧
          CaseFolding.ascii.Same printed declared) ∧
      ∃ declared, Statement.correlationName? (firstUsers.targetTokens 0) = some declared ∧
        (CaseFolding.ascii.Same printed declared ↔ firstUsers.onlyProjects = true ∨
          firstUsers.aliasName.isSome = true ∨ ∀ table, firstUsers.source.name? = some table →
            CaseFolding.ascii.identifier? table = some table) :=
  ⟨⟨by decide, by decide⟩,
    same_identifier_iff CaseFolding.ascii (t := firstUsers) (by decide) (by decide) 0 1⟩

/-- A table joined with these rows, of which one column is projected. -/
def joinsFirstUsers : Query :=
  ((ofTable "t1").join firstUsers).selectColumns [firstUsers.column "id"]

/-- The rows are declared as `Users` and their column is printed with `users`. -/
theorem not_forall_same_identifier :
    (joinsFirstUsers.compile =
        .ok "SELECT Users.id FROM t1 INNER JOIN (SELECT * FROM Users LIMIT 5) AS \"Users\";" ∧
      CaseFolding.ascii.identifier? "Users" = some "users" ∧
      CaseFolding.ascii.identifier? "\"Users\"" = some "Users") ∧
    ¬ ∀ (t : Query) (column : String) (n m : Nat), t.reference.qualifier.isSome = true →
      column ≠ starName → ∃ printed declared,
        (t.column column).sql m = printed ++ "." ++ column ∧
        Statement.correlationName? (t.targetTokens n) = some declared ∧
        CaseFolding.ascii.Same printed declared := by
  refine ⟨⟨by decide +kernel, by decide +kernel, by decide +kernel⟩, fun hall => ?_⟩
  obtain ⟨printed, declared, hprinted, hdeclared, hsame⟩ :=
    hall firstUsers "id" 0 0 (by decide) (by decide)
  have hqualifier : printed = "Users" := by
    have hsql : (firstUsers.column "id").sql 0 = "Users" ++ "." ++ "id" := by decide +kernel
    rw [hsql] at hprinted
    exact ((String.append_left_inj "id").mp hprinted |> (String.append_left_inj ".").mp).symm
  have hname : declared = "\"Users\"" := by
    have htarget : Statement.correlationName? (firstUsers.targetTokens 0) =
        some "\"Users\"" := by decide +kernel
    rw [htarget] at hdeclared
    exact (Option.some.inj hdeclared).symm
  rw [hqualifier, hname] at hsame
  exact absurd hsame (by unfold CaseFolding.Same; decide +kernel)

end Query

end SqlTree
