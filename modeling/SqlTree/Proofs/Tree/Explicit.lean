import SqlTree.Proofs.Membership.Projected
import SqlTree.Proofs.Tree.Parts

/-!
# Where projections are made explicit

The pass that makes projections explicit walks from a query to the queries right below it, except
that it leaves the log of a set operation alone. Main statements: every query that is walked has a
projection afterwards unless it is a set operation, every query below has one exactly if those in
the logs of set operations had one, and the pass is a sequence of steps each of which gives one
query a projection to all columns and changes nothing else.
-/

namespace SqlTree

mutual

/-- One query in a tree, which is no set operation and has no projection, is given one to all
columns at the end of its log. Nothing else is changed. -/
inductive Query.Gains : Query → Query → Prop where
  /-- The query itself gains a projection. -/
  | here {q : Query} (hsource : q.source.isCombined = false) (hselect : q.has .select = false) :
      Query.Gains q { q with log := q.log ++ [.selectAll] }
  /-- A query in the source gains one. -/
  | source {q : Query} {source : Source} (h : Source.Gains q.source source) :
      Query.Gains q { q with source := source }
  /-- A query in an entry of the log gains one. -/
  | entry {q : Query} {before after : List Entry} {entry entry' : Entry}
      (hlog : q.log = before ++ entry :: after) (h : Entry.Gains entry entry') :
      Query.Gains q { q with log := before ++ entry' :: after }

/-- One query of a source gains a projection. -/
inductive Source.Gains : Source → Source → Prop where
  | derived {q q' : Query} (h : Query.Gains q q') : Source.Gains (.derived q) (.derived q')
  | left {op : SetOp} {left left' right : Query} (h : Query.Gains left left') :
      Source.Gains (.combined op left right) (.combined op left' right)
  | right {op : SetOp} {left right right' : Query} (h : Query.Gains right right') :
      Source.Gains (.combined op left right) (.combined op left right')

/-- One query of an entry gains a projection. -/
inductive Entry.Gains : Entry → Entry → Prop where
  | select {before after : List Projection} {expr expr' : Operand} {aliasName : Option String}
      (h : Operand.Gains expr expr') :
      Entry.Gains (.select (before ++ ⟨expr, aliasName⟩ :: after))
        (.select (before ++ ⟨expr', aliasName⟩ :: after))
  | filter {cond cond' : Column} (h : Column.Gains cond cond') :
      Entry.Gains (.filter cond) (.filter cond')
  | whereExists {sub sub' : Query} (h : Query.Gains sub sub') :
      Entry.Gains (.whereExists sub) (.whereExists sub')
  | group {c c' : Column} (h : Column.Gains c c') : Entry.Gains (.group c) (.group c')
  | having {cond cond' : Column} (h : Column.Gains cond cond') :
      Entry.Gains (.having cond) (.having cond')
  | order {c c' : Column} (h : Column.Gains c c') : Entry.Gains (.order c) (.order c')
  | join {target target' : Query} (h : Query.Gains target target') :
      Entry.Gains (.join target) (.join target')
  | joinOn {target target' : Query} {cond : Column} (h : Query.Gains target target') :
      Entry.Gains (.joinOn target cond) (.joinOn target' cond)
  | on {target : Query} {cond cond' : Column} (h : Column.Gains cond cond') :
      Entry.Gains (.joinOn target cond) (.joinOn target cond')

/-- One query of a column expression gains a projection. -/
inductive Column.Gains : Column → Column → Prop where
  | left {op : BinaryOp} {left left' right : Operand} {functions : List Func}
      {nullTest : Option NullTest} (h : Operand.Gains left left') :
      Column.Gains ⟨.binary op left right, functions, nullTest⟩
        ⟨.binary op left' right, functions, nullTest⟩
  | right {op : BinaryOp} {left right right' : Operand} {functions : List Func}
      {nullTest : Option NullTest} (h : Operand.Gains right right') :
      Column.Gains ⟨.binary op left right, functions, nullTest⟩
        ⟨.binary op left right', functions, nullTest⟩

/-- One query of an operand gains a projection. -/
inductive Operand.Gains : Operand → Operand → Prop where
  | column {c c' : Column} (h : Column.Gains c c') : Operand.Gains (.column c) (.column c')
  | query {q q' : Query} (h : Query.Gains q q') : Operand.Gains (.query q) (.query q')

end

/-- Some queries of a tree gain projections, one after the other. -/
abbrev Query.GainsMany : Query → Query → Prop := Relation.ReflTransGen Query.Gains

/-- Every query in the tree has a projection, unless it is a set operation. -/
def Query.Explicit (q : Query) : Prop :=
  ∀ sub, q.Reaches sub → sub.source.isCombined = false → sub.has .select = true

/-- The queries in the log of a query. -/
def Query.logQueries (q : Query) : List Query := q.log.flatMap Entry.queries

/-- The queries right below a query that the pass walks to. -/
def Query.walked (q : Query) : List Query :=
  if q.source.isCombined then q.source.queries else q.queries

/-- The query itself or one that the pass walks to, at any depth. -/
def Query.Walks : Query → Query → Prop := Relation.ReflTransGen fun q sub => sub ∈ q.walked

mutual

/-- The queries at the ends of an expression are made explicit. -/
theorem Column.leafQueries_projected : ∀ c : Column,
    c.projected.leaves.filterMap Leaf.query? =
      (c.leaves.filterMap Leaf.query?).map Query.projected
  | ⟨base, functions, nullTest⟩ => by
    simp only [Column.projected, Column.leaves]
    exact Base.leafQueries_projected base

theorem Base.leafQueries_projected : ∀ b : Base,
    b.projected.leaves.filterMap Leaf.query? =
      (b.leaves.filterMap Leaf.query?).map Query.projected
  | .named name owner => by
    simp only [Base.projected, Base.leaves]
    rfl
  | .binary op left right => by
    simp only [Base.projected, Base.leaves, List.filterMap_append, List.map_append]
    rw [Operand.leafQueries_projected left, Operand.leafQueries_projected right]

theorem Operand.leafQueries_projected : ∀ side : Operand,
    side.projected.leaves.filterMap Leaf.query? =
      (side.leaves.filterMap Leaf.query?).map Query.projected
  | .column c => by
    simp only [Operand.projected, Operand.leaves]
    exact Column.leafQueries_projected c
  | .literal v => by
    simp only [Operand.projected, Operand.leaves]
    rfl
  | .query q => by
    simp only [Operand.projected, Operand.leaves]
    rfl

end

theorem Projection.leafQueries_projectedItems (items : List Projection) :
    ((projectedItems items).flatMap fun item => item.expr.leaves).filterMap Leaf.query? =
      ((items.flatMap fun item => item.expr.leaves).filterMap Leaf.query?).map
        Query.projected := by
  induction items with
  | nil => rfl
  | cons item rest ih =>
    obtain ⟨expr, aliasName⟩ := item
    simp only [projectedItems, projected, List.flatMap_cons, List.filterMap_append,
      List.map_append, ih, Operand.leafQueries_projected]

/-- The queries of an entry are made explicit. -/
theorem Entry.queries_projected (entry : Entry) :
    entry.projected.queries = entry.queries.map Query.projected := by
  have hleaves := Column.leafQueries_projected
  cases entry with
  | select items =>
    simp only [Entry.projected, queries, target?, leaves, Option.toList_none, List.nil_append,
      Projection.leafQueries_projectedItems]
  | whereExists sub | join target =>
    simp [Entry.projected, queries, target?, leaves, Leaf.query?]
  | _ => simp [Entry.projected, queries, target?, leaves, hleaves]

theorem Source.queries_projected (source : Source) :
    source.projected.queries = source.queries.map Query.projected := by
  cases source <;> simp [Source.projected, queries]

namespace Query

variable {q sub : Query}

/-- The queries in the log of a query that is no set operation are made explicit. -/
theorem logQueries_projected (h : q.source.isCombined = false) :
    q.projected.logQueries = q.logQueries.map Query.projected := by
  have hall : Entry.selectAll.queries = [] := rfl
  unfold logQueries
  rw [log_projected h]
  rcases Entry.withSelect_eq (q.log.map Entry.projected) with he | he <;>
    simp [he, hall, List.flatMap_map, List.map_flatMap, Entry.queries_projected]

theorem logQueries_projected_of_isCombined (h : q.source.isCombined = true) :
    q.projected.logQueries = q.logQueries := by
  rw [logQueries, logQueries, log_projected_of_isCombined h]

/-- The queries that the pass walks to are made explicit. -/
theorem walked_projected (q : Query) : q.projected.walked = q.walked.map Query.projected := by
  unfold walked
  rw [source_projected, Source.isCombined_projected]
  cases h : q.source.isCombined with
  | true => exact Source.queries_projected q.source
  | false =>
    have hlog := logQueries_projected h
    unfold logQueries at hlog
    simp only [Bool.false_eq_true, if_false, queries, source_projected, Source.queries_projected,
      hlog, List.map_append]

/-- A query that is no set operation has a projection once it was made explicit. -/
theorem has_select_projected (h : q.source.isCombined = false) :
    q.projected.has .select = true := by
  unfold has
  rw [log_projected h, Entry.withSelect]
  split
  · assumption
  · simp [Entry.selectAll, Entry.kind]

/-- What the pass walks to lies below the query. -/
theorem mem_queries_of_mem_walked (h : sub ∈ q.walked) : sub ∈ q.queries := by
  unfold walked at h
  split at h
  · exact mem_queries_of_mem_source h
  · exact h

theorem Walks.reaches (h : q.Walks sub) : q.Reaches sub :=
  Relation.ReflTransGen.mono (fun _ _ => mem_queries_of_mem_walked) _ _ h

/-- After the pass the queries that it walks to are the ones before it, made explicit. -/
theorem Walks.exists_projected {q' sub' : Query} (h : q'.Walks sub') (hq : q' = q.projected) :
    ∃ sub, q.Walks sub ∧ sub' = sub.projected := by
  subst hq
  induction h with
  | refl => exact ⟨q, .refl, rfl⟩
  | tail _ hpart ih =>
    obtain ⟨part, hwalks, rfl⟩ := ih
    rw [walked_projected, List.mem_map] at hpart
    obtain ⟨sub, hsub, rfl⟩ := hpart
    exact ⟨sub, hwalks.tail hsub, rfl⟩

/-- A query that the pass walks to has a projection afterwards, unless it is a set operation. -/
theorem Walks.has_select (h : q.projected.Walks sub) (hsource : sub.source.isCombined = false) :
    sub.has .select = true := by
  obtain ⟨part, _, rfl⟩ := h.exists_projected rfl
  rw [source_projected, Source.isCombined_projected] at hsource
  exact has_select_projected hsource

/-- What is asked of all queries that a relation leads to is asked of the first and of those that it
leads to from the queries next to it. -/
theorem forall_reflTransGen_iff (next : Query → List Query) (p : Query → Prop) :
    (∀ sub, Relation.ReflTransGen (fun q sub => sub ∈ next q) q sub → p sub) ↔
      p q ∧ ∀ part ∈ next q, ∀ sub, Relation.ReflTransGen (fun q sub => sub ∈ next q) part sub →
        p sub := by
  constructor
  · exact fun h => ⟨h q .refl, fun part hpart sub hsub => h sub (.head hpart hsub)⟩
  · rintro ⟨hq, hbelow⟩ sub hsub
    rcases hsub.cases_head with rfl | ⟨part, hpart, hsub⟩
    · exact hq
    · exact hbelow part hpart sub hsub

theorem explicit_iff : q.Explicit ↔
    (q.source.isCombined = false → q.has .select = true) ∧ ∀ sub ∈ q.queries, sub.Explicit :=
  forall_reflTransGen_iff queries fun sub => sub.source.isCombined = false → sub.has .select = true

/-- The queries of a query are those of its source and those in its log. -/
theorem forall_mem_queries_iff {p : Query → Prop} :
    (∀ sub ∈ q.queries, p sub) ↔ (∀ sub ∈ q.source.queries, p sub) ∧ ∀ sub ∈ q.logQueries, p sub :=
  List.forall_mem_append

/-- All queries have projections after the pass exactly if those in the logs of the set operations
that the pass walks to had them. -/
theorem explicit_projected_iff_walks (q : Query) : q.projected.Explicit ↔
    ∀ s, q.Walks s → s.source.isCombined = true → ∀ sub ∈ s.logQueries, sub.Explicit := by
  induction q using inductionOnQueries with
  | step q ih =>
    have hstep : q.projected.Explicit ↔
        (q.source.isCombined = true → ∀ sub ∈ q.logQueries, sub.Explicit) ∧
          ∀ sub ∈ q.walked, sub.projected.Explicit := by
      rw [explicit_iff, source_projected, Source.isCombined_projected]
      cases h : q.source.isCombined with
      | true =>
        simp only [walked, h, if_true, forall_mem_queries_iff, source_projected,
          Source.queries_projected, List.forall_mem_map, logQueries_projected_of_isCombined h,
          Bool.true_eq_false, false_implies, true_and, forall_const]
        exact and_comm
      | false =>
        simp only [walked, h, if_false, forall_mem_queries_iff, source_projected,
          Source.queries_projected, List.forall_mem_map, logQueries_projected h,
          has_select_projected h, Bool.false_eq_true, false_implies, true_and, forall_const]
    rw [hstep]
    refine Iff.trans (and_congr_right fun _ => ?_) (forall_reflTransGen_iff walked fun s =>
      s.source.isCombined = true → ∀ sub ∈ s.logQueries, sub.Explicit).symm
    exact forall₂_congr fun sub hsub => ih sub (mem_queries_of_mem_walked hsub)

/-- What lies below a query is walked to, or lies below the log of a set operation that is. -/
theorem Reaches.walks_or (h : q.Reaches sub) : q.Walks sub ∨
    ∃ s, q.Walks s ∧ s.source.isCombined = true ∧ ∃ part ∈ s.logQueries, part.Reaches sub := by
  induction h with
  | refl => exact Or.inl .refl
  | @tail middle sub _ hsub ih =>
    rcases ih with hwalks | ⟨s, hwalks, hsource, part, hpart, hreaches⟩
    · cases hsource : middle.source.isCombined with
      | false => exact Or.inl (hwalks.tail (by simpa [walked, hsource] using hsub))
      | true =>
        rcases List.mem_append.mp hsub with hsub | hsub
        · exact Or.inl (hwalks.tail (by simpa [walked, hsource] using hsub))
        · exact Or.inr ⟨middle, hwalks, hsource, sub, hsub, .refl⟩
    · exact Or.inr ⟨s, hwalks, hsource, part, hpart, hreaches.tail hsub⟩

/-- All queries have projections after the pass exactly if those in the logs of all set operations
had them. -/
theorem explicit_projected_iff (q : Query) : q.projected.Explicit ↔
    ∀ s, q.Reaches s → s.source.isCombined = true → ∀ sub ∈ s.logQueries, sub.Explicit := by
  rw [explicit_projected_iff_walks]
  refine ⟨fun h s hreaches hsource sub hsub => ?_, fun h s hwalks => h s hwalks.reaches⟩
  rcases hreaches.walks_or with hwalks | ⟨s', hwalks, hsource', part, hpart, hbelow⟩
  · exact h s hwalks hsource sub hsub
  · have hexplicit := h s' hwalks hsource' part hpart
    have hmem : sub ∈ s.queries := List.mem_append_right _ hsub
    exact fun below hsubBelow => hexplicit below (hbelow.trans (.head hmem hsubBelow))

end Query

section Steps

variable {α : Type} {r : α → α → Prop} {a a' : α} {l l' : List α}

/-- One element of a list is changed. -/
def ChangesOne (r : α → α → Prop) (l l' : List α) : Prop :=
  ∃ before a a' after, l = before ++ a :: after ∧ l' = before ++ a' :: after ∧ r a a'

theorem ChangesOne.head (h : r a a') (l : List α) : ChangesOne r (a :: l) (a' :: l) :=
  ⟨[], a, a', l, rfl, rfl, h⟩

theorem ChangesOne.tail (h : ChangesOne r l l') (a : α) : ChangesOne r (a :: l) (a :: l') := by
  obtain ⟨before, b, b', after, rfl, rfl, hb⟩ := h
  exact ⟨a :: before, b, b', after, rfl, rfl, hb⟩

/-- The elements of a list may be changed step by step, one after the other. -/
theorem changesOne_cons (ha : Relation.ReflTransGen r a a')
    (hl : Relation.ReflTransGen (ChangesOne r) l l') :
    Relation.ReflTransGen (ChangesOne r) (a :: l) (a' :: l') :=
  (Relation.ReflTransGen.lift (fun x => x :: l) (fun _ _ h => .head h l) _ _ ha).trans
    (Relation.ReflTransGen.lift (fun rest => a' :: rest) (fun _ _ h => h.tail a') _ _ hl)

end Steps

/-- One projected expression gains a projection in a subquery. -/
def Projection.Gains (item item' : Projection) : Prop :=
  item.aliasName = item'.aliasName ∧ Operand.Gains item.expr item'.expr

/-- An entry gains a projection in one of its projected expressions. -/
theorem Entry.Gains.of_changesOne {items items' : List Projection}
    (h : ChangesOne Projection.Gains items items') :
    Entry.Gains (.select items) (.select items') := by
  obtain ⟨before, ⟨expr, aliasName⟩, ⟨expr', aliasName'⟩, after, rfl, rfl, halias, hexpr⟩ := h
  obtain rfl : aliasName = aliasName' := halias
  exact .select hexpr

/-- A query gains a projection in one of its entries. -/
theorem Query.Gains.of_changesOne {q : Query} {log : List Entry}
    (h : ChangesOne Entry.Gains q.log log) : Query.Gains q { q with log := log } := by
  obtain ⟨before, entry, entry', after, hlog, rfl, hentry⟩ := h
  exact .entry hlog hentry

section Lift

open Relation

/-- A query gains what its source gains. -/
theorem Query.GainsMany.of_source {source source' : Source}
    (h : ReflTransGen Source.Gains source source') (aliasName : Option String) (log : List Entry)
    (limit : Option Nat) (distinct reversed : Bool) (driver : Option String) :
    Query.GainsMany ⟨source, aliasName, log, limit, distinct, reversed, driver⟩
      ⟨source', aliasName, log, limit, distinct, reversed, driver⟩ :=
  ReflTransGen.lift (fun part => Query.mk part aliasName log limit distinct reversed driver)
    (fun _ _ hpart => Query.Gains.source hpart) _ _ h

/-- A query gains what the entries of its log gain. -/
theorem Query.GainsMany.of_log {log log' : List Entry}
    (h : ReflTransGen (ChangesOne Entry.Gains) log log') (source : Source)
    (aliasName : Option String) (limit : Option Nat) (distinct reversed : Bool)
    (driver : Option String) :
    Query.GainsMany ⟨source, aliasName, log, limit, distinct, reversed, driver⟩
      ⟨source, aliasName, log', limit, distinct, reversed, driver⟩ :=
  ReflTransGen.lift (fun part => Query.mk source aliasName part limit distinct reversed driver)
    (fun _ _ hpart => Query.Gains.of_changesOne hpart) _ _ h

/-- The projection of a query that is no set operation is at most one more gain. -/
theorem Query.gainsMany_withSelect {q : Query} (hsource : q.source.isCombined = false) :
    q.GainsMany { q with log := Entry.withSelect q.log } := by
  unfold Entry.withSelect
  cases hselect : q.log.any fun entry => entry.kind == .select with
  | true => cases q; exact .refl
  | false => exact .single (.here hsource hselect)

mutual

/-- A query is made explicit by steps in each of which one query gains a projection. -/
theorem Query.gainsMany_projected : ∀ q : Query, q.GainsMany q.projected
  | ⟨source, aliasName, log, limit, distinct, reversed, driver⟩ => by
    have hsource := Query.GainsMany.of_source (Source.gainsMany_projected source) aliasName log
      limit distinct reversed driver
    simp only [Query.projected]
    cases hcombined : source.isCombined with
    | true => exact hsource
    | false =>
      -- After the parts the query itself gains its projection, if it has none.
      have hlog := Query.GainsMany.of_log (Entry.gainsMany_projectedLog log) source.projected
        aliasName limit distinct reversed driver
      refine (hsource.trans hlog).trans (Query.gainsMany_withSelect ?_)
      rw [Source.isCombined_projected, hcombined]

theorem Source.gainsMany_projected :
    ∀ source : Source, ReflTransGen Source.Gains source source.projected
  | .named name => by
    simp only [Source.projected]
    exact .refl
  | .derived q => by
    simp only [Source.projected]
    exact ReflTransGen.lift Source.derived (fun _ _ => .derived) _ _ (Query.gainsMany_projected q)
  | .combined op left right => by
    simp only [Source.projected]
    exact (ReflTransGen.lift (fun q => Source.combined op q right) (fun _ _ => .left) _ _
      (Query.gainsMany_projected left)).trans
      (ReflTransGen.lift (Source.combined op left.projected) (fun _ _ => .right) _ _
        (Query.gainsMany_projected right))

theorem Entry.gainsMany_projected :
    ∀ entry : Entry, ReflTransGen Entry.Gains entry entry.projected
  | .select items => by
    simp only [Entry.projected]
    exact ReflTransGen.lift Entry.select (fun _ _ => .of_changesOne) _ _
      (Projection.gainsMany_projectedItems items)
  | .filter cond => by
    simp only [Entry.projected]
    exact ReflTransGen.lift Entry.filter (fun _ _ => .filter) _ _ (Column.gainsMany_projected cond)
  | .whereExists sub => by
    simp only [Entry.projected]
    exact ReflTransGen.lift Entry.whereExists (fun _ _ => .whereExists) _ _
      (Query.gainsMany_projected sub)
  | .group c => by
    simp only [Entry.projected]
    exact ReflTransGen.lift Entry.group (fun _ _ => .group) _ _ (Column.gainsMany_projected c)
  | .having cond => by
    simp only [Entry.projected]
    exact ReflTransGen.lift Entry.having (fun _ _ => .having) _ _ (Column.gainsMany_projected cond)
  | .order c => by
    simp only [Entry.projected]
    exact ReflTransGen.lift Entry.order (fun _ _ => .order) _ _ (Column.gainsMany_projected c)
  | .join target => by
    simp only [Entry.projected]
    exact ReflTransGen.lift Entry.join (fun _ _ => .join) _ _ (Query.gainsMany_projected target)
  | .joinOn target cond => by
    simp only [Entry.projected]
    exact (ReflTransGen.lift (fun q => Entry.joinOn q cond) (fun _ _ => .joinOn) _ _
      (Query.gainsMany_projected target)).trans
      (ReflTransGen.lift (Entry.joinOn target.projected) (fun _ _ => .on) _ _
        (Column.gainsMany_projected cond))

theorem Entry.gainsMany_projectedLog :
    ∀ log : List Entry, ReflTransGen (ChangesOne Entry.Gains) log (Entry.projectedLog log)
  | [] => .refl
  | entry :: rest => by
    simp only [Entry.projectedLog]
    exact changesOne_cons (Entry.gainsMany_projected entry) (Entry.gainsMany_projectedLog rest)

theorem Projection.gainsMany_projectedItems : ∀ items : List Projection,
    ReflTransGen (ChangesOne Projection.Gains) items (Projection.projectedItems items)
  | [] => .refl
  | ⟨expr, aliasName⟩ :: rest => by
    simp only [Projection.projectedItems, Projection.projected]
    exact changesOne_cons
      (ReflTransGen.lift (fun side => Projection.mk side aliasName) (fun _ _ h => ⟨rfl, h⟩) _ _
        (Operand.gainsMany_projected expr))
      (Projection.gainsMany_projectedItems rest)

theorem Column.gainsMany_projected :
    ∀ c : Column, ReflTransGen Column.Gains c c.projected
  | ⟨base, functions, nullTest⟩ => by
    simp only [Column.projected]
    exact Base.gainsMany_projected base functions nullTest

theorem Base.gainsMany_projected : ∀ (b : Base) (functions : List Func)
    (nullTest : Option NullTest),
    ReflTransGen Column.Gains ⟨b, functions, nullTest⟩ ⟨b.projected, functions, nullTest⟩
  | .named name owner, functions, nullTest => by
    simp only [Base.projected]
    exact .refl
  | .binary op left right, functions, nullTest => by
    simp only [Base.projected]
    exact (ReflTransGen.lift (fun side => Column.mk (.binary op side right) functions nullTest)
      (fun _ _ => .left) _ _ (Operand.gainsMany_projected left)).trans
      (ReflTransGen.lift
        (fun side => Column.mk (.binary op left.projected side) functions nullTest)
        (fun _ _ => .right) _ _ (Operand.gainsMany_projected right))

theorem Operand.gainsMany_projected :
    ∀ side : Operand, ReflTransGen Operand.Gains side side.projected
  | .column c => by
    simp only [Operand.projected]
    exact ReflTransGen.lift Operand.column (fun _ _ => .column) _ _ (Column.gainsMany_projected c)
  | .literal v => by
    simp only [Operand.projected]
    exact .refl
  | .query q => by
    simp only [Operand.projected]
    exact ReflTransGen.lift Operand.query (fun _ _ => .query) _ _ (Query.gainsMany_projected q)

end

end Lift

namespace Query

/-- After the pass every query that is no set operation has a projection exactly if those in the
logs of the set operations had one already. All that the pass walks to have one, and the pass does
nothing but add projections to queries that have none. -/
theorem projected_complete (q : Query) :
    (q.projected.Explicit ↔
      ∀ s, q.Reaches s → s.source.isCombined = true → ∀ sub ∈ s.logQueries, sub.Explicit) ∧
    (∀ sub, q.projected.Walks sub → sub.source.isCombined = false → sub.has .select = true) ∧
    q.GainsMany q.projected :=
  ⟨explicit_projected_iff q, fun _ hwalks hsource => hwalks.has_select hsource,
    gainsMany_projected q⟩

/-- A set operation that asks whether a table has rows. -/
def unionIfAny : Query :=
  (combine .union (ofTable "a") (ofTable "b")).whereExists (ofTable "c")

/-- The pass leaves a query in the log of a set operation as it is, without a projection. -/
theorem not_forall_explicit_projected :
    unionIfAny.projected.Reaches (ofTable "c") ∧ (ofTable "c").source.isCombined = false ∧
    (ofTable "c").has .select = false ∧ ¬ ∀ q : Query, q.projected.Explicit := by
  have hlog : ofTable "c" ∈ unionIfAny.projected.logQueries := List.mem_cons_self
  have hreaches : unionIfAny.projected.Reaches (ofTable "c") :=
    .single (List.mem_append_right _ hlog)
  have hselect : (ofTable "c").has .select = false := rfl
  refine ⟨hreaches, rfl, hselect, fun hall => ?_⟩
  have hadded := hall unionIfAny (ofTable "c") hreaches rfl
  rw [hselect] at hadded
  cases hadded

end Query

end SqlTree
