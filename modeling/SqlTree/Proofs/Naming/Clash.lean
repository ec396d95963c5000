import SqlTree.Proofs.Naming.Identifier
import SqlTree.Proofs.Reading.Opening

/-!
# Clashes of correlation names

The items of a `FROM` clause need different correlation names. Those without one of their own are
given one by counting, and what else is declared in the clause is not looked at. Main statement: two
names that are given in a statement never clash, and a given one clashes exactly with a name of the
same clause that is read as it.
-/

namespace SqlTree

theorem derivedName_injective {n m : Nat} (h : derivedName n = derivedName m) : n = m :=
  Nat.succ.inj (Text.toString_injective ((String.append_right_inj "sq").mp h))

/-- A correlation name in a `FROM` clause: one made by counting, or one that is written in the tree,
by the identifier that it is read as. -/
inductive CorrelationName where
  | generated (number : Nat)
  | own (identifier : Option String)
  deriving DecidableEq

namespace CorrelationName

/-- The identifier that the name is read as. -/
def identifier? : CorrelationName → Option String
  | .generated n => some (derivedName n)
  | .own identifier => identifier

/-- Whether the name is made by counting. -/
def isGenerated : CorrelationName → Bool
  | .generated _ => true
  | .own _ => false

/-- The number of a name that is made by counting. -/
def number? : CorrelationName → Option Nat
  | .generated n => some n
  | .own _ => none

/-- The second name is not read as the first one if one of them is made by counting. -/
def Apart (a b : CorrelationName) : Prop :=
  a.isGenerated = true ∨ b.isGenerated = true → a.identifier? ≠ b.identifier?

variable {names : List CorrelationName}

/-- A name made by counting is apart from names with later numbers if none of the other ones is read
as it. -/
theorem forall_apart_generated_iff {n : Nat} (h : ∀ m ∈ names.filterMap number?, n < m) :
    (∀ b ∈ names, Apart (.generated n) b) ↔ .own (some (derivedName n)) ∉ names := by
  constructor
  · intro hall hown
    exact hall _ hown (Or.inl rfl) rfl
  · intro hnone b hb _ he
    cases b with
    | generated m =>
      have hlt := h m (List.mem_filterMap.mpr ⟨_, hb, rfl⟩)
      have hsame := derivedName_injective (Option.some.inj he)
      omega
    | own identifier =>
      have hread : some (derivedName n) = identifier := he
      exact hnone (hread ▸ hb)

/-- A name of the tree is apart from others if it is read as none of those made by counting. -/
theorem forall_apart_own_iff {identifier : Option String} :
    (∀ b ∈ names, Apart (.own identifier) b) ↔
      ∀ n, .generated n ∈ names → identifier ≠ some (derivedName n) := by
  constructor
  · intro hall n hn he
    exact hall _ hn (Or.inr rfl) he
  · intro hall b hb hgenerated he
    cases b with
    | generated n => exact hall n hb he
    | own other => simp [isGenerated] at hgenerated

/-- Names of which those made by counting have rising numbers are apart exactly if none of those is
read as one of the others. -/
theorem pairwise_apart_iff (h : (names.filterMap number?).Pairwise (· < ·)) :
    names.Pairwise Apart ↔
      ∀ n, .generated n ∈ names → .own (some (derivedName n)) ∉ names := by
  induction names with
  | nil => simp
  | cons first rest ih =>
    rw [List.pairwise_cons]
    cases first with
    | generated m =>
      rw [List.filterMap_cons_some (by rfl), List.pairwise_cons] at h
      rw [forall_apart_generated_iff h.1, ih h.2]
      simp only [List.mem_cons, generated.injEq, reduceCtorEq, false_or, forall_eq_or_imp]
    | own identifier =>
      rw [List.filterMap_cons_none (by rfl)] at h
      rw [forall_apart_own_iff, ih h]
      simp only [List.mem_cons, own.injEq, reduceCtorEq, false_or, not_or, ← forall_and]
      grind

end CorrelationName

/-- The targets of the joins of a log, each with the number that its name is made of if it is left
without one. -/
def Entry.numberedTargets (n : Nat) : List Entry → List (Nat × Query)
  | [] => []
  | entry :: rest =>
    entry.target?.toList.map (Prod.mk n) ++ Entry.numberedTargets (n + entry.nameCount) rest

namespace Query

variable (folding : CaseFolding)

/-- The correlation name of a query that declares the text. -/
def correlationName (n : Nat) (t : Query) (declared : String) : CorrelationName :=
  if t.needsName then .generated n else .own (folding.identifier? declared)

/-- The correlation names in the `FROM` clause of a statement. -/
def correlationNames (n : Nat) (q : Query) : List CorrelationName :=
  q.correlationName folding n (q.declaredBySource n) ::
    (Entry.numberedTargets (n + ((q.source.needsName q.aliasName).toNat + q.source.nameCount))
      q.log).map fun p => p.2.correlationName folding p.1 (p.2.declaredByTarget p.1)

/-- The identifier that an item of a `FROM` clause is referred to by. -/
def itemIdentifier? (item : List String) : Option String :=
  (Statement.correlationName? item).bind folding.identifier?

/-- In the `FROM` clause of a statement an item that is left without a name in the tree is referred
to by another identifier than every other item. -/
def ClashFree (n : Nat) (q : Query) : Prop :=
  (q.fromList.zip (q.fromItems n)).Pairwise fun a b =>
    a.1.needsName = true ∨ b.1.needsName = true →
      itemIdentifier? folding a.2 ≠ itemIdentifier? folding b.2

variable {t q : Query} {n : Nat}

/-- A query that is left without a name declares one made by counting. -/
theorem declaredBySource_of_needsName (h : t.needsName = true) :
    t.declaredBySource n = Text.Quoted.identifier (derivedName n) := by
  have hnone : t.reference.qualifier = none := Option.isNone_iff_eq_none.mp h
  cases halias : t.aliasName with
  | some aliasName => simp [reference, Reference.qualifier, halias] at hnone
  | none =>
    have htable : t.source.name? = none := by
      simpa [reference, Reference.qualifier, halias] using hnone
    simp [declaredBySource, halias, htable]

theorem declaredByTarget_of_needsName (h : t.needsName = true) :
    t.declaredByTarget n = Text.Quoted.identifier (derivedName n) := by
  have hnone : t.reference.qualifier = none := Option.isNone_iff_eq_none.mp h
  unfold declaredByTarget
  split
  · exact declaredBySource_of_needsName h
  · rw [hnone, Option.getD_none]

@[simp] theorem isGenerated_correlationName (declared : String) :
    (t.correlationName folding n declared).isGenerated = t.needsName := by
  unfold correlationName
  split <;> simp_all [CorrelationName.isGenerated]

/-- A correlation name is read as what is declared. -/
theorem identifier?_correlationName {declared : String}
    (h : t.needsName = true → declared = Text.Quoted.identifier (derivedName n)) :
    (t.correlationName folding n declared).identifier? = folding.identifier? declared := by
  unfold correlationName
  split
  · rename_i hneeds
    rw [h hneeds, folding.identifier?_quoted]
    rfl
  · rfl

/-- What tells of an item whether its name is made by counting, and what it is read as. -/
def facts (a : Query × List String) : Bool × Option String :=
  (a.1.needsName, itemIdentifier? folding a.2)

end Query

/-- What tells of a correlation name whether it is made by counting, and what it is read as. -/
def CorrelationName.facts (name : CorrelationName) : Bool × Option String :=
  (name.isGenerated, name.identifier?)

/-- The targets of the joins of a log declare their correlation names. -/
theorem Entry.map_facts_targets (folding : CaseFolding) (n : Nat) (log : List Entry) :
    ((log.filterMap target?).zip ((Piece.select .join (pieces n log)).map List.tail)).map
        (Query.facts folding) =
      ((numberedTargets n log).map fun p =>
        p.2.correlationName folding p.1 (p.2.declaredByTarget p.1)).map CorrelationName.facts := by
  induction log generalizing n with
  | nil => rfl
  | cons entry rest ih =>
    rw [pieces, Piece.select_append, List.map_append]
    cases htarget : entry.target? with
    | none =>
      have hkind : entry.kind ≠ .join := by
        cases entry with
        | join | joinOn => cases htarget
        | _ => simp [kind]
      have hnone : Piece.select .join (entry.piece n) = [] := select_piece_eq_nil hkind n
      rw [List.filterMap_cons_none htarget, hnone, numberedTargets, htarget]
      simpa using ih (n + entry.nameCount)
    | some t =>
      obtain ⟨condition, hcondition, hpiece⟩ := piece_of_target? htarget n
      have hdeclared := t.correlationName?_targetTokens n hcondition
      have hfacts : Query.facts folding (t, t.targetTokens n ++ condition) =
          (t.correlationName folding n (t.declaredByTarget n)).facts := by
        rw [CorrelationName.facts, Query.isGenerated_correlationName,
          Query.identifier?_correlationName folding Query.declaredByTarget_of_needsName]
        simp [Query.facts, Query.itemIdentifier?, hdeclared]
      have hselect : Piece.select .join (entry.piece n) =
          ["INNER JOIN" :: (t.targetTokens n ++ condition)] := by
        rw [hpiece]
        rfl
      rw [List.filterMap_cons_some htarget, hselect, numberedTargets, htarget]
      simp [hfacts, ih (n + entry.nameCount)]

/-- The target of a join that is left without a name takes a number. -/
theorem Entry.nameCount_pos_of_needsName {entry : Entry} {t : Query}
    (htarget : entry.target? = some t) (h : t.needsName = true) : 0 < entry.nameCount := by
  have hnone : t.reference.qualifier = none := Option.isNone_iff_eq_none.mp h
  have hsource : t.onlyProjects = true → 0 < t.sourceNameCount := by
    intro honly
    obtain ⟨source, aliasName, log, limit, distinct, reversed, driver⟩ := t
    have hcombined := Query.isCombined_of_onlyProjects honly
    cases aliasName with
    | some aliasName => simp [Query.reference, Reference.qualifier] at hnone
    | none =>
      have hnamed : source.name? = none := hnone
      simp only at hcombined
      simp only [Query.sourceNameCount, Source.needsName, Source.isNamed, hnamed, hcombined]
      simp only [Option.isNone_none, Option.isSome_none, Bool.not_false, Bool.and_self,
        Bool.toNat_true]
      omega
  cases entry with
  | join target | joinOn target cond =>
    obtain rfl := Option.some.inj htarget
    simp only [nameCount]
    split
    · have := hsource ‹_›
      omega
    · simp only [h, Bool.toNat_true]
      omega
  | _ => cases htarget

/-- The numbers of the targets that are left without a name rise from the first number on. -/
theorem Entry.numbers_rise (folding : CaseFolding) (n : Nat) (log : List Entry) :
    let numbers := ((numberedTargets n log).map fun p =>
      p.2.correlationName folding p.1 (p.2.declaredByTarget p.1)).filterMap CorrelationName.number?
    (∀ m ∈ numbers, n ≤ m) ∧ numbers.Pairwise (· < ·) := by
  induction log generalizing n with
  | nil => simp [numberedTargets]
  | cons entry rest ih =>
    obtain ⟨hlater, hrise⟩ := ih (n + entry.nameCount)
    have hall := fun m hm => Nat.le_trans (Nat.le_add_right n entry.nameCount) (hlater m hm)
    rw [numberedTargets]
    cases htarget : entry.target? with
    | none => exact ⟨by simpa using hall, by simpa using hrise⟩
    | some t =>
      by_cases hneeds : t.needsName = true
      · have hpos := nameCount_pos_of_needsName htarget hneeds
        have hnumber : (t.correlationName folding n (t.declaredByTarget n)).number? = some n := by
          simp [Query.correlationName, hneeds, CorrelationName.number?]
        simp only [Option.toList_some, List.map_cons, List.map_nil, List.cons_append,
          List.nil_append, List.filterMap_cons_some hnumber, List.forall_mem_cons,
          List.pairwise_cons]
        exact ⟨⟨Nat.le_refl n, hall⟩, fun m hm => by have := hlater m hm; omega, hrise⟩
      · have hnumber : (t.correlationName folding n (t.declaredByTarget n)).number? = none := by
          simp [Query.correlationName, hneeds, CorrelationName.number?]
        simp only [Option.toList_some, List.map_cons, List.map_nil, List.cons_append,
          List.nil_append, List.filterMap_cons_none hnumber]
        exact ⟨hall, hrise⟩

namespace Query

variable (folding : CaseFolding) {q : Query} (n : Nat)

/-- The items of a `FROM` clause declare the correlation names of the statement. -/
theorem map_facts_fromItems (hq : q.source.isCombined = false) :
    (q.fromList.zip (q.fromItems n)).map (facts folding) =
      (q.correlationNames folding n).map CorrelationName.facts := by
  have hend : ([] : List String).head? ≠ some "AS" := by simp
  have hdeclared := correlationName?_sourceTokens hq n hend
  rw [List.append_nil, sourceTokens_eq] at hdeclared
  have hfirst : facts folding (q, q.source.tokens n q.aliasName) =
      (q.correlationName folding n (q.declaredBySource n)).facts := by
    rw [CorrelationName.facts, isGenerated_correlationName,
      identifier?_correlationName folding declaredBySource_of_needsName]
    simp [facts, itemIdentifier?, hdeclared]
  have htargets := Entry.map_facts_targets folding
    (n + ((q.source.needsName q.aliasName).toNat + q.source.nameCount)) q.log
  simp only [fromList, fromItems, hq, Bool.false_eq_true, if_false, pieces, List.zip_cons_cons,
    List.map_cons, correlationNames, hfirst, htargets]

/-- The numbers in a `FROM` clause rise. -/
theorem numbers_correlationNames (hq : q.source.isCombined = false) :
    ((q.correlationNames folding n).filterMap CorrelationName.number?).Pairwise (· < ·) := by
  obtain ⟨hlater, hrise⟩ := Entry.numbers_rise folding
    (n + ((q.source.needsName q.aliasName).toNat + q.source.nameCount)) q.log
  unfold correlationNames
  by_cases hneeds : q.needsName = true
  · have hnumber : (q.correlationName folding n (q.declaredBySource n)).number? = some n := by
      simp [correlationName, hneeds, CorrelationName.number?]
    have hpos : (q.source.needsName q.aliasName).toNat = 1 := by
      have hnone : q.reference.qualifier = none := Option.isNone_iff_eq_none.mp hneeds
      cases halias : q.aliasName with
      | some aliasName => simp [reference, Reference.qualifier, halias] at hnone
      | none =>
        have hnamed : q.source.name? = none := by
          simpa [reference, Reference.qualifier, halias] using hnone
        simp [Source.needsName, Source.isNamed, hnamed, hq]
    rw [List.filterMap_cons_some hnumber, List.pairwise_cons]
    exact ⟨fun m hm => by have := hlater m hm; omega, hrise⟩
  · have hnumber : (q.correlationName folding n (q.declaredBySource n)).number? = none := by
      simp [correlationName, hneeds, CorrelationName.number?]
    rw [List.filterMap_cons_none hnumber]
    exact hrise

/-- Two names that are made by counting never clash. An item that is left without a name clashes
exactly with the names of the same clause that are read as the one that is made for it. -/
theorem clashFree_iff (q : Query) :
    q.ClashFree folding n ↔ q.source.isCombined = true ∨
      ∀ m, .generated m ∈ q.correlationNames folding n →
        .own (some (derivedName m)) ∉ q.correlationNames folding n := by
  by_cases hcombined : q.source.isCombined = true
  · have hnone : q.fromItems n = [] := by rw [fromItems, if_pos hcombined]
    have hfree : q.ClashFree folding n := by
      unfold ClashFree
      rw [hnone, List.zip_nil_right]
      exact .nil
    exact iff_of_true hfree (Or.inl hcombined)
  · have hq : q.source.isCombined = false := by simpa using hcombined
    let Clear (a b : Bool × Option String) : Prop := a.1 = true ∨ b.1 = true → a.2 ≠ b.2
    have hitems : ((q.fromList.zip (q.fromItems n)).map (facts folding)).Pairwise Clear ↔
        q.ClashFree folding n := by
      rw [List.pairwise_map]
      rfl
    have hnames : ((q.correlationNames folding n).map CorrelationName.facts).Pairwise Clear ↔
        (q.correlationNames folding n).Pairwise CorrelationName.Apart := by
      rw [List.pairwise_map]
      rfl
    rw [or_iff_right hcombined, ← hitems, map_facts_fromItems folding n hq, hnames]
    exact CorrelationName.pairwise_apart_iff (numbers_correlationNames folding n hq)

/-- The rows of a query without an alias, paired with those of a table under the alias `sq1`. -/
def joinsNamesake : Query := (ofQuery (ofTable "t")).join (ofTableAs "u" "sq1")

/-- The name that is made for the query is the alias of the table. -/
theorem not_forall_clashFree :
    joinsNamesake.compile =
        .ok "SELECT * FROM (SELECT * FROM t) AS \"sq1\" INNER JOIN u AS \"sq1\";" ∧
    ¬ ∀ (q : Query) (n : Nat), q.ClashFree .ascii n := by
  refine ⟨by decide +kernel, fun hall => ?_⟩
  have hnames : (joinsNamesake.fromList.zip (joinsNamesake.fromItems 0)).map (facts .ascii) =
      [(true, some "sq1"), (false, some "sq1")] := by decide +kernel
  have hclear : ((joinsNamesake.fromList.zip (joinsNamesake.fromItems 0)).map
      (facts .ascii)).Pairwise fun a b => a.1 = true ∨ b.1 = true → a.2 ≠ b.2 :=
    List.pairwise_map.mpr (hall joinsNamesake 0)
  rw [hnames] at hclear
  exact absurd hclear (by decide)

end Query

end SqlTree
