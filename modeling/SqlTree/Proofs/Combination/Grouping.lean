import SqlTree.Proofs.Combination.Tree
import Mathlib.Data.List.Chain
import Mathlib.Data.List.Nodup
import Mathlib.Order.BooleanAlgebra.Set

/-!
# How set operations group

The SQL of set operations shows no nesting, so trees that differ only in it have to yield the same
rows. They do if every operator may be regrouped with those behind it: unions with unions, and
intersections with intersections and differences. Main statements: the SQL of such a tree tells its
rows, and over different tables it tells them for no other tree.
-/

namespace SqlTree

namespace SetOp

variable {α : Type}

/-- The rows that an operator makes of two sets of rows. -/
def apply : SetOp → Set α → Set α → Set α
  | .union, x, y => x ∪ y
  | .intersect, x, y => x ∩ y
  | .except, x, y => x \ y

/-- An operator may be applied before or after the one that is written behind it. -/
inductive Regroups : SetOp → SetOp → Prop where
  | unions : Regroups .union .union
  | intersections : Regroups .intersect .intersect
  | difference : Regroups .intersect .except

/-- The rows that an operator leaves the other side with as they are. -/
def neutral : SetOp → Set α
  | .union => ∅
  | .intersect => Set.univ
  | .except => ∅

theorem apply_neutral (op : SetOp) (x : Set α) : op.apply x op.neutral = x := by
  cases op <;> simp [apply, neutral]

/-- Operators that may be regrouped yield the same rows in either grouping. -/
theorem Regroups.apply_apply {op next : SetOp} (h : op.Regroups next) (x y z : Set α) :
    op.apply x (next.apply y z) = next.apply (op.apply x y) z := by
  cases h with
  | unions => exact (Set.union_assoc x y z).symm
  | intersections => exact (Set.inter_assoc x y z).symm
  | difference => exact (Set.inter_sdiff_assoc x y z).symm

/-- Operators that yield the same rows in either grouping may be regrouped. -/
theorem regroups_of_apply_apply {op next : SetOp}
    (h : ∀ x y z : Set Unit, op.apply x (next.apply y z) = next.apply (op.apply x y) z) :
    op.Regroups next := by
  have hmem (x y z : Set Unit) := Set.ext_iff.mp (h x y z) ()
  cases op <;> cases next
  · exact .unions
  · simpa [apply] using hmem Set.univ ∅ ∅
  · simpa [apply] using hmem Set.univ ∅ Set.univ
  · simpa [apply] using hmem ∅ ∅ Set.univ
  · exact .intersections
  · exact .difference
  · simpa [apply] using hmem ∅ ∅ Set.univ
  · simpa [apply] using hmem Set.univ ∅ ∅
  · simpa [apply] using hmem Set.univ Set.univ Set.univ

end SetOp

section Rows

variable {α : Type} (tables : TableName → Set α)

/-- The rows of a tree, as its nesting has them. -/
def SetTree.rows : SetTree → Set α
  | .table name => tables name
  | .combine op left right => op.apply left.rows right.rows

/-- The rows that a row of operators makes of a first set, one after the other. -/
def Combination.rows (first : Set α) (rest : List (SetOp × TableName)) : Set α :=
  rest.foldl (fun rows arm => arm.1.apply rows (tables arm.2)) first

variable {tables}

/-- An operator that may be regrouped with all that follow may be applied first. -/
theorem Combination.apply_rows {op : SetOp} {rest : List (SetOp × TableName)}
    (h : ∀ next ∈ rest.map Prod.fst, op.Regroups next) (x y : Set α) :
    op.apply x (Combination.rows tables y rest) =
      Combination.rows tables (op.apply x y) rest := by
  induction rest generalizing y with
  | nil => rfl
  | cons arm rest ih =>
    rw [List.map_cons, List.forall_mem_cons] at h
    have hstep := ih h.2 (arm.1.apply y (tables arm.2))
    rw [h.1.apply_apply] at hstep
    exact hstep

/-- A tree whose operators may be regrouped has the rows of its operators one after the other. -/
theorem SetTree.rows_eq_of_pairwise {t : SetTree}
    (h : t.operators.Pairwise SetOp.Regroups) :
    t.rows tables = Combination.rows tables (tables t.head) t.tail := by
  induction t with
  | table name => rfl
  | combine op left right hleft hright =>
    rw [operators, tail, List.map_append, List.map_cons, List.pairwise_append,
      List.pairwise_cons] at h
    obtain ⟨hl, ⟨hop, hr⟩, _⟩ := h
    -- The operator between the arms is applied before those of the right arm, not after them.
    calc (combine op left right).rows tables
        = op.apply (Combination.rows tables (tables left.head) left.tail)
            (Combination.rows tables (tables right.head) right.tail) := by
          rw [rows, hleft hl, hright hr]
      _ = Combination.rows tables (op.apply
            (Combination.rows tables (tables left.head) left.tail) (tables right.head))
            right.tail := Combination.apply_rows hop _ _
      _ = Combination.rows tables (tables (combine op left right).head)
            (combine op left right).tail := by
          simp only [Combination.rows, head, tail, List.foldl_append, List.foldl_cons]

/-- Arms that leave the other side as it is change nothing. -/
theorem Combination.rows_neutral {rest : List (SetOp × TableName)}
    (h : ∀ arm ∈ rest, tables arm.2 = arm.1.neutral) (first : Set α) :
    Combination.rows tables first rest = first := by
  induction rest with
  | nil => rfl
  | cons arm rest ih =>
    rw [List.forall_mem_cons] at h
    rw [Combination.rows, List.foldl_cons, h.1, SetOp.apply_neutral]
    exact ih h.2

end Rows

namespace SetTree

/-- The tree with more arms, each applied to all that stands before it. -/
def nest (t : SetTree) (rest : List (SetOp × TableName)) : SetTree :=
  rest.foldl (fun tree arm => combine arm.1 tree (table arm.2)) t

theorem head_nest (t : SetTree) (rest : List (SetOp × TableName)) :
    (t.nest rest).head = t.head := by
  induction rest generalizing t with
  | nil => rfl
  | cons arm rest ih => exact ih (combine arm.1 t (table arm.2))

theorem tail_nest (t : SetTree) (rest : List (SetOp × TableName)) :
    (t.nest rest).tail = t.tail ++ rest := by
  induction rest generalizing t with
  | nil => exact (List.append_nil _).symm
  | cons arm rest ih =>
    have hstep := ih (combine arm.1 t (table arm.2))
    rw [tail, tail, head, List.append_assoc] at hstep
    exact hstep

theorem rows_nest {α : Type} (tables : TableName → Set α) (t : SetTree)
    (rest : List (SetOp × TableName)) :
    (t.nest rest).rows tables = Combination.rows tables (t.rows tables) rest := by
  induction rest generalizing t with
  | nil => rfl
  | cons arm rest ih => exact ih (combine arm.1 t (table arm.2))

/-- Whatever has the SQL of the tree has its rows, whatever the tables hold. -/
def Determined (t : SetTree) : Prop :=
  ∀ s : SetTree, s.toQuery.compile = t.toQuery.compile →
    ∀ (α : Type) (tables : TableName → Set α), s.rows tables = t.rows tables

/-- The SQL of a tree whose operators may be regrouped tells its rows. -/
theorem determined_of_pairwise {t : SetTree} (h : t.operators.Pairwise SetOp.Regroups) :
    t.Determined := by
  intro s hsql α tables
  obtain ⟨hhead, htail⟩ := compile_eq_compile_iff.mp hsql
  have hs : s.operators.Pairwise SetOp.Regroups := by
    rw [operators, htail]
    exact h
  rw [rows_eq_of_pairwise hs, rows_eq_of_pairwise h, hhead, htail]

end SetTree

/-- Different names can be given any values. -/
theorem exists_forall_mem_eq_of_nodup {α β : Type} [DecidableEq α] {l : List (α × β)}
    (b : β) (h : (l.map Prod.fst).Nodup) : ∃ f : α → β, ∀ p ∈ l, f p.1 = p.2 := by
  induction l with
  | nil => exact ⟨fun _ => b, List.forall_mem_nil _⟩
  | cons q rest ih =>
    rw [List.map_cons, List.nodup_cons] at h
    obtain ⟨f, hf⟩ := ih h.2
    refine ⟨Function.update f q.1 q.2, fun p hp => ?_⟩
    rcases List.mem_cons.mp hp with rfl | hrest
    · exact Function.update_self ..
    · have hne : p.1 ≠ q.1 := fun he => h.1 (he ▸ List.mem_map_of_mem hrest)
      rw [Function.update_of_ne hne]
      exact hf p hrest

/-- The table of an arm with the rows that make the arm change nothing. -/
def Combination.keeping {α : Type} (arm : SetOp × TableName) : TableName × Set α :=
  (arm.2, arm.1.neutral)

theorem Combination.map_fst_map_keeping {α : Type} (arms : List (SetOp × TableName)) :
    (arms.map (Combination.keeping (α := α))).map Prod.fst = arms.map Prod.snd := by
  rw [List.map_map]
  rfl

namespace SetTree

variable {t : SetTree} {before after : List (SetOp × TableName)} {op next : SetOp}
  {name other : TableName}

/-- Over different tables any sets can be the rows before two arms and the rows of their tables,
while the arms behind them change nothing. -/
theorem exists_rows_eq {α : Type} (hnodup : t.names.Nodup)
    (htail : t.tail = before ++ (op, name) :: (next, other) :: after) (x y z : Set α) :
    ∃ tables : TableName → Set α, Combination.rows tables (tables t.head) before = x ∧
      tables name = y ∧ tables other = z ∧
      ∀ rows, Combination.rows tables rows after = rows := by
  have hkeys : ((t.head, x) :: (before.map Combination.keeping ++
      (name, y) :: (other, z) :: after.map Combination.keeping)).map Prod.fst = t.names := by
    simp only [names, htail, List.map_cons, List.map_append, Combination.map_fst_map_keeping]
  obtain ⟨tables, htables⟩ := exists_forall_mem_eq_of_nodup ∅ (hkeys ▸ hnodup)
  rw [List.forall_mem_cons, List.forall_mem_append, List.forall_mem_cons,
    List.forall_mem_cons] at htables
  obtain ⟨hhead, hbefore, hname, hother, hafter⟩ := htables
  have hkeep {arms : List (SetOp × TableName)}
      (h : ∀ p ∈ arms.map Combination.keeping, tables p.1 = p.2) (rows : Set α) :
      Combination.rows tables rows arms = rows :=
    Combination.rows_neutral (fun arm harm => h _ (List.mem_map_of_mem harm)) rows
  exact ⟨tables, (hkeep hbefore _).trans hhead, hname, hother, hkeep hafter⟩

/-- The rows of a tree are those of any tree with the same tables and operators in a row, if its SQL
tells its rows. -/
theorem Determined.rows_eq {s : SetTree} (h : t.Determined) (hhead : s.head = t.head)
    (htail : s.tail = t.tail) {α : Type} (tables : TableName → Set α) :
    s.rows tables = t.rows tables :=
  h s (compile_eq_compile_iff.mpr ⟨hhead, htail⟩) α tables

/-- Two arms next to each other may be grouped either way if the SQL tells the rows. -/
theorem Determined.apply_apply (h : t.Determined)
    (htail : t.tail = before ++ (op, name) :: (next, other) :: after) {α : Type}
    (tables : TableName → Set α) :
    Combination.rows tables (op.apply (Combination.rows tables (tables t.head) before)
        (next.apply (tables name) (tables other))) after =
      Combination.rows tables (next.apply (op.apply
        (Combination.rows tables (tables t.head) before) (tables name)) (tables other)) after := by
  let first := (table t.head).nest before
  have hfirst : first.rows tables = Combination.rows tables (tables t.head) before :=
    rows_nest tables (table t.head) before
  have hright := h.rows_eq
    (s := (combine op first (combine next (table name) (table other))).nest after)
    (by simp only [first, head_nest, head]) (by simp [first, tail_nest, tail, head, htail]) tables
  have hleft := h.rows_eq
    (s := (combine next (combine op first (table name)) (table other)).nest after)
    (by simp only [first, head_nest, head]) (by simp [first, tail_nest, tail, head, htail]) tables
  rw [rows_nest, rows, rows, rows, rows, hfirst] at hright hleft
  exact hright.trans hleft.symm

/-- Over different tables, operators next to each other may be regrouped if the SQL tells the
rows. -/
theorem Determined.regroups (h : t.Determined) (hnodup : t.names.Nodup)
    (htail : t.tail = before ++ (op, name) :: (next, other) :: after) : op.Regroups next := by
  refine SetOp.regroups_of_apply_apply fun x y z => ?_
  obtain ⟨tables, hfirst, hname, hother, hafter⟩ := exists_rows_eq hnodup htail x y z
  have happly := h.apply_apply htail tables
  rw [hafter, hafter, hfirst, hname, hother] at happly
  exact happly

end SetTree

instance : Trans SetOp.Regroups SetOp.Regroups SetOp.Regroups where
  trans h h' := by
    cases h <;> cases h' <;> constructor

/-- A chain of operators of a tree over different tables may be regrouped if the SQL of the tree
tells its rows. -/
theorem SetTree.Determined.pairwise_regroups {t : SetTree} (h : t.Determined)
    (hnodup : t.names.Nodup) : t.operators.Pairwise SetOp.Regroups := by
  rw [← List.isChain_iff_pairwise, List.isChain_iff_forall_rel_of_append_cons_cons]
  intro op next before after hoperators
  obtain ⟨armsBefore, armsBehind, htail, _, hbehind⟩ := List.map_eq_append_iff.mp hoperators
  obtain ⟨arm, armsRest, rfl, rfl, hrest⟩ := List.map_eq_cons_iff.mp hbehind
  obtain ⟨armNext, armsAfter, rfl, rfl, _⟩ := List.map_eq_cons_iff.mp hrest
  exact h.regroups hnodup htail

/-- One of endlessly many names. -/
def TableName.ofNat (n : Nat) : TableName where
  text := String.ofList (List.replicate n 'a')
  blank_notMem := by
    rw [String.toList_ofList, List.mem_replicate]
    exact fun h => absurd h.2 (by decide)

theorem TableName.ofNat_injective : Function.Injective TableName.ofNat := by
  intro m n h
  have htext := congrArg (fun name => name.text.toList.length) h
  simpa [TableName.ofNat] using htext

/-- Every row of operators is that of a tree over different tables. -/
theorem SetTree.exists_operators_eq (ops : List SetOp) :
    ∃ t : SetTree, t.operators = ops ∧ t.names.Nodup := by
  let names := (List.range ops.length).map fun i => TableName.ofNat (i + 1)
  have hlength : names.length = ops.length := by
    simp [names]
  refine ⟨(table (.ofNat 0)).nest (ops.zip names), ?_, ?_⟩
  · rw [operators, tail_nest, tail, List.nil_append, List.map_fst_zip hlength.ge]
  · rw [SetTree.names, head_nest, head, tail_nest, tail, List.nil_append,
      List.map_snd_zip hlength.le, List.nodup_cons]
    constructor
    · intro hmem
      obtain ⟨i, _, hi⟩ := List.mem_map.mp hmem
      exact absurd (TableName.ofNat_injective hi) (Nat.succ_ne_zero i)
    · exact List.nodup_range.map (TableName.ofNat_injective.comp Nat.succ_injective)

/-- The SQL of all trees with the operators of a tree tells their rows exactly if every operator may
be regrouped with those behind it. Over different tables it tells those of the tree itself exactly
then. -/
theorem SetTree.determined_iff_pairwise_regroups (t : SetTree) :
    ((∀ s : SetTree, s.operators = t.operators → s.Determined) ↔
        t.operators.Pairwise SetOp.Regroups) ∧
      (t.names.Nodup → (t.Determined ↔ t.operators.Pairwise SetOp.Regroups)) := by
  refine ⟨⟨fun h => ?_, fun h s hs => determined_of_pairwise (hs ▸ h)⟩,
    fun hnodup => ⟨fun h => h.pairwise_regroups hnodup, determined_of_pairwise⟩⟩
  obtain ⟨s, hs, hnodup⟩ := exists_operators_eq t.operators
  exact hs ▸ (h s hs).pairwise_regroups hnodup

/-- A table of the example below, as are `b` and `c`. -/
def TableName.a : TableName := ⟨"a", by decide⟩

def TableName.b : TableName := ⟨"b", by decide⟩

def TableName.c : TableName := ⟨"c", by decide⟩

/-- What is left of `a` without the rows that `b` has and `c` has not. -/
def SetTree.nestedDifference : SetTree :=
  .combine .except (.table .a) (.combine .except (.table .b) (.table .c))

/-- What is left of `a` without the rows of `b`, and of that without the rows of `c`. -/
def SetTree.repeatedDifference : SetTree :=
  .combine .except (.combine .except (.table .a) (.table .b)) (.table .c)

/-- The differences have the same SQL, and with a row that all three tables hold one of them has it
and the other one has not. -/
theorem SetTree.not_forall_determined :
    (nestedDifference.toQuery.compile =
        .ok "SELECT * FROM a EXCEPT SELECT * FROM b EXCEPT SELECT * FROM c;" ∧
      repeatedDifference.toQuery.compile = nestedDifference.toQuery.compile ∧
      repeatedDifference.rows (fun _ => (Set.univ : Set Unit)) ≠
        nestedDifference.rows (fun _ => Set.univ)) ∧
    ¬ ∀ t : SetTree, t.Determined := by
  have htext : nestedDifference.toQuery.compile =
      .ok "SELECT * FROM a EXCEPT SELECT * FROM b EXCEPT SELECT * FROM c;" := by decide +kernel
  have hsql : repeatedDifference.toQuery.compile = nestedDifference.toQuery.compile :=
    compile_eq_compile_iff.mpr ⟨rfl, rfl⟩
  have hrows : repeatedDifference.rows (fun _ => (Set.univ : Set Unit)) ≠
      nestedDifference.rows (fun _ => Set.univ) := by
    intro h
    have hmem := Set.ext_iff.mp h ()
    simp [repeatedDifference, nestedDifference, rows, SetOp.apply] at hmem
  exact ⟨⟨htext, hsql, hrows⟩, fun h => hrows (h nestedDifference repeatedDifference hsql Unit _)⟩

end SqlTree
