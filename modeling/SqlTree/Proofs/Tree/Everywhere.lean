import SqlTree.Query.Build

/-!
# What holds everywhere in a tree

A demand asks something of the parts of a tree, each looked at on its own: of its queries, of the
entries of their logs, of its column expressions and of its literals. A tree meets a demand if all
its parts do, at any depth: sources, arms, join targets, tested and compared subqueries, projected
expressions and the operands of operators.
-/

namespace SqlTree

/-- What is asked of the parts of a tree. -/
structure Demand where
  query : Query → Prop
  entry : Entry → Prop
  column : Column → Prop
  literal : Literal → Prop

mutual

/-- Whether a query and all its parts are as demanded. -/
def Query.Meets (d : Demand) : Query → Prop
  | ⟨source, aliasName, log, limit, distinct, reversed, driver⟩ =>
    d.query ⟨source, aliasName, log, limit, distinct, reversed, driver⟩ ∧
      source.Meets d ∧ Entry.AllMeet d log

/-- Whether the queries of a source are as demanded. -/
def Source.Meets (d : Demand) : Source → Prop
  | .named _ => True
  | .derived q => q.Meets d
  | .combined _ left right => left.Meets d ∧ right.Meets d

/-- Whether the parts of an entry are as demanded. -/
def Entry.PartsMeet (d : Demand) : Entry → Prop
  | .select items => Projection.AllMeet d items
  | .filter cond => cond.Meets d
  | .whereExists sub => sub.Meets d
  | .group c => c.Meets d
  | .having cond => cond.Meets d
  | .order c => c.Meets d
  | .join target => target.Meets d
  | .joinOn target cond => target.Meets d ∧ cond.Meets d

/-- Whether the entries of a log and all their parts are as demanded. -/
def Entry.AllMeet (d : Demand) : List Entry → Prop
  | [] => True
  | entry :: rest => (d.entry entry ∧ entry.PartsMeet d) ∧ Entry.AllMeet d rest

/-- Whether the parts of a projected expression are as demanded. -/
def Projection.Meets (d : Demand) : Projection → Prop
  | ⟨expr, _⟩ => expr.Meets d

/-- Whether the parts of projected expressions are as demanded. -/
def Projection.AllMeet (d : Demand) : List Projection → Prop
  | [] => True
  | item :: rest => item.Meets d ∧ Projection.AllMeet d rest

/-- Whether a column expression and all its parts are as demanded. -/
def Column.Meets (d : Demand) : Column → Prop
  | ⟨base, functions, nullTest⟩ => d.column ⟨base, functions, nullTest⟩ ∧ base.Meets d

/-- Whether the operands of an operator are as demanded. -/
def Base.Meets (d : Demand) : Base → Prop
  | .named _ _ => True
  | .binary _ left right => left.Meets d ∧ right.Meets d

/-- Whether an operand and all its parts are as demanded. -/
def Operand.Meets (d : Demand) : Operand → Prop
  | .column c => c.Meets d
  | .literal v => d.literal v
  | .query q => q.Meets d

end

/-- Whether an entry and all its parts are as demanded. -/
def Entry.Meets (d : Demand) (entry : Entry) : Prop := d.entry entry ∧ entry.PartsMeet d

variable {d : Demand}

theorem Entry.allMeet_iff {log : List Entry} :
    Entry.AllMeet d log ↔ ∀ entry ∈ log, entry.Meets d := by
  induction log with
  | nil => simp [Entry.AllMeet]
  | cons entry rest ih => simp [Entry.AllMeet, Entry.Meets, ih]

theorem Projection.meets_iff {item : Projection} : item.Meets d ↔ item.expr.Meets d := by
  cases item
  simp only [Projection.Meets]

theorem Projection.allMeet_iff {items : List Projection} :
    Projection.AllMeet d items ↔ ∀ item ∈ items, item.expr.Meets d := by
  induction items with
  | nil => simp [Projection.AllMeet]
  | cons item rest ih => simp [Projection.AllMeet, Projection.meets_iff, ih]

/-- A query is as demanded if it is on its own, and its source and its entries are. -/
theorem Query.meets_iff {q : Query} :
    q.Meets d ↔ d.query q ∧ q.source.Meets d ∧ ∀ entry ∈ q.log, entry.Meets d := by
  cases q
  simp only [Query.Meets, Entry.allMeet_iff]

theorem Column.meets_iff {c : Column} : c.Meets d ↔ d.column c ∧ c.base.Meets d := by
  cases c
  simp only [Column.Meets]

/-- Two operands joined by an operator are as demanded if they are and the whole is on its own. -/
theorem Column.meets_ofBinary_iff {op : BinaryOp} {left right : Operand} :
    (Column.ofBinary op left right).Meets d ↔
      d.column (.ofBinary op left right) ∧ left.Meets d ∧ right.Meets d := by
  simp only [Column.meets_iff, Column.ofBinary, Base.Meets]

/-- Nothing is asked. -/
def Demand.nothing : Demand := ⟨fun _ => True, fun _ => True, fun _ => True, fun _ => True⟩

mutual

/-- Every tree is as demanded if nothing is. -/
theorem Query.meets_nothing : ∀ q : Query, q.Meets .nothing
  | ⟨source, _, log, _, _, _, _⟩ => by
    simp only [Query.Meets]
    exact ⟨trivial, Source.meets_nothing source, Entry.allMeet_nothing log⟩

theorem Source.meets_nothing : ∀ source : Source, source.Meets .nothing
  | .named _ => trivial
  | .derived q => by
    simp only [Source.Meets]
    exact Query.meets_nothing q
  | .combined _ left right => by
    simp only [Source.Meets]
    exact ⟨Query.meets_nothing left, Query.meets_nothing right⟩

theorem Entry.partsMeet_nothing : ∀ entry : Entry, entry.PartsMeet .nothing
  | .select items => by
    simp only [Entry.PartsMeet]
    exact Projection.allMeet_nothing items
  | .filter c | .group c | .having c | .order c => by
    simp only [Entry.PartsMeet]
    exact Column.meets_nothing c
  | .whereExists q | .join q => by
    simp only [Entry.PartsMeet]
    exact Query.meets_nothing q
  | .joinOn target cond => by
    simp only [Entry.PartsMeet]
    exact ⟨Query.meets_nothing target, Column.meets_nothing cond⟩

theorem Entry.allMeet_nothing : ∀ log : List Entry, Entry.AllMeet .nothing log
  | [] => trivial
  | entry :: rest => by
    simp only [Entry.AllMeet]
    exact ⟨⟨trivial, Entry.partsMeet_nothing entry⟩, Entry.allMeet_nothing rest⟩

theorem Projection.allMeet_nothing : ∀ items : List Projection, Projection.AllMeet .nothing items
  | [] => trivial
  | ⟨expr, _⟩ :: rest => by
    simp only [Projection.AllMeet, Projection.Meets]
    exact ⟨Operand.meets_nothing expr, Projection.allMeet_nothing rest⟩

theorem Column.meets_nothing : ∀ c : Column, c.Meets .nothing
  | ⟨base, _, _⟩ => by
    simp only [Column.Meets]
    exact ⟨trivial, Base.meets_nothing base⟩

theorem Base.meets_nothing : ∀ b : Base, b.Meets .nothing
  | .named _ _ => trivial
  | .binary _ left right => by
    simp only [Base.Meets]
    exact ⟨Operand.meets_nothing left, Operand.meets_nothing right⟩

theorem Operand.meets_nothing : ∀ side : Operand, side.Meets .nothing
  | .column c => by
    simp only [Operand.Meets]
    exact Column.meets_nothing c
  | .literal _ => trivial
  | .query q => by
    simp only [Operand.Meets]
    exact Query.meets_nothing q

end

/-- What is asked by the second demand of a part follows if all of the part meets the first. -/
structure Demand.Entails (d d' : Demand) : Prop where
  query : ∀ q : Query, q.Meets d → d'.query q
  entry : ∀ entry : Entry, entry.Meets d → d'.entry entry
  column : ∀ c : Column, c.Meets d → d'.column c
  literal : ∀ v : Literal, d.literal v → d'.literal v

section Entails

variable {d d' : Demand}

mutual

/-- A tree that meets a demand meets whatever it entails. -/
theorem Query.Meets.entailed (h : d.Entails d') : ∀ {q : Query}, q.Meets d → q.Meets d'
  | ⟨source, aliasName, log, limit, distinct, reversed, driver⟩, hq => by
    have hquery := h.query _ hq
    simp only [Query.Meets] at hq ⊢
    exact ⟨hquery, hq.2.1.entailed h, Entry.AllMeet.entailed h hq.2.2⟩

theorem Source.Meets.entailed (h : d.Entails d') :
    ∀ {source : Source}, source.Meets d → source.Meets d'
  | .named _, _ => trivial
  | .derived q, hq => by
    simp only [Source.Meets] at hq ⊢
    exact hq.entailed h
  | .combined _ left right, hq => by
    simp only [Source.Meets] at hq ⊢
    exact ⟨hq.1.entailed h, hq.2.entailed h⟩

theorem Entry.PartsMeet.entailed (h : d.Entails d') :
    ∀ {entry : Entry}, entry.PartsMeet d → entry.PartsMeet d'
  | .select items, hitems => by
    simp only [Entry.PartsMeet] at hitems ⊢
    exact Projection.AllMeet.entailed h hitems
  | .filter _, hc | .group _, hc | .having _, hc | .order _, hc => by
    simp only [Entry.PartsMeet] at hc ⊢
    exact Column.Meets.entailed h hc
  | .whereExists _, hq | .join _, hq => by
    simp only [Entry.PartsMeet] at hq ⊢
    exact Query.Meets.entailed h hq
  | .joinOn target cond, hparts => by
    simp only [Entry.PartsMeet] at hparts ⊢
    exact ⟨hparts.1.entailed h, hparts.2.entailed h⟩

theorem Entry.AllMeet.entailed (h : d.Entails d') :
    ∀ {log : List Entry}, Entry.AllMeet d log → Entry.AllMeet d' log
  | [], _ => trivial
  | entry :: rest, hlog => by
    simp only [Entry.AllMeet] at hlog ⊢
    exact ⟨⟨h.entry entry hlog.1, hlog.1.2.entailed h⟩, Entry.AllMeet.entailed h hlog.2⟩

theorem Projection.AllMeet.entailed (h : d.Entails d') :
    ∀ {items : List Projection}, Projection.AllMeet d items → Projection.AllMeet d' items
  | [], _ => trivial
  | ⟨expr, _⟩ :: rest, hitems => by
    simp only [Projection.AllMeet, Projection.Meets] at hitems ⊢
    exact ⟨Operand.Meets.entailed h hitems.1, Projection.AllMeet.entailed h hitems.2⟩

theorem Column.Meets.entailed (h : d.Entails d') : ∀ {c : Column}, c.Meets d → c.Meets d'
  | ⟨base, functions, nullTest⟩, hc => by
    have hcolumn := h.column _ hc
    simp only [Column.Meets] at hc ⊢
    exact ⟨hcolumn, hc.2.entailed h⟩

theorem Base.Meets.entailed (h : d.Entails d') : ∀ {b : Base}, b.Meets d → b.Meets d'
  | .named _ _, _ => trivial
  | .binary _ left right, hb => by
    simp only [Base.Meets] at hb ⊢
    exact ⟨hb.1.entailed h, hb.2.entailed h⟩

theorem Operand.Meets.entailed (h : d.Entails d') :
    ∀ {side : Operand}, side.Meets d → side.Meets d'
  | .column c, hside => by
    simp only [Operand.Meets] at hside ⊢
    exact Column.Meets.entailed h hside
  | .literal v, hside => h.literal v hside
  | .query q, hside => by
    simp only [Operand.Meets] at hside ⊢
    exact Query.Meets.entailed h hside

end

end Entails

end SqlTree
