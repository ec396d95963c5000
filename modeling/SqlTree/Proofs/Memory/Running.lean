import SqlTree.Proofs.Builder.Call
import SqlTree.Proofs.Memory.Fresh
import SqlTree.Query.Run

/-!
# Runs of queries that were built by calls

A builder call takes the driver of the query that it is made on, its receiver, and no other. Main
statements: a query that was built by a chain of calls has the driver that was attached to it last
along the chain, and a run of it has this driver execute what the query is compiled to, once, or
executes nothing and tells why.
-/

namespace SqlTree

namespace Query.Call

/-- The query that the call is made on: the one derived from, or the left one of a set
operation. -/
def receiver? : Query.Call → Option Query
  | .table _ | .tableAs _ _ => none
  | .derived q | .combined _ q _ | .withAlias q _ | .withDriver q _ | .select q _
  | .selectColumns q _ | .selectAs q _ _ | .filter q _ | .whereExists q _ | .groupBy q _
  | .having q _ | .orderBy q _ | .join q _ | .joinOn q _ _ | .take q _ | .dedup q | .reverse q
  | .row q _ | .rows q _ _ | .projected q | .converted q => some q

/-- The driver that the call attaches. -/
def attached? : Query.Call → Option String
  | .withDriver _ driver => some driver
  | _ => none

/-- Whether the call is a pass over a query in place. -/
def isPass : Query.Call → Bool
  | .projected _ | .converted _ => true
  | _ => false

/-- Whether the call copies its receiver with its memory: it projects to nothing in particular. -/
def isCopy : Query.Call → Bool
  | .select _ items => items.isEmpty
  | .selectColumns _ columns => columns.isEmpty
  | _ => false

end Query.Call

namespace Query

theorem driver_select (q : Query) (items : List Projection) :
    (q.select items).driver = q.driver := by
  unfold select
  split <;> rfl

theorem driver_of_take_eq_ok {q q' : Query} {n : Int64} (h : q.take n = .ok q') :
    q'.driver = q.driver := by
  obtain ⟨_, _, rfl⟩ := take_eq_ok_iff.mp h
  rfl

/-- An entry over single rows is put in the log or not at all. -/
theorem driver_of_forClause_bind_eq_ok {clause : RowClause} {c : Column} {entry : Column → Entry}
    {q q' : Query}
    (h : (c.forClause clause).bind (fun cond => .ok (q.push (entry cond))) = .ok q') :
    q'.driver = q.driver := by
  obtain ⟨_, rfl⟩ := Column.forClause_bind_eq_ok_iff.mp h
  rfl

theorem driver_getD_membership? (q : Query) : (q.membership?.getD q).driver = q.driver := by
  cases h : q.membership? with
  | none => rfl
  | some q' =>
    obtain ⟨_, _, _, _, _, _, _, rfl⟩ := converted?_of_membership? h
    rfl

/-- A call takes the driver that it attaches or else that of its receiver. -/
theorem Call.driver_of_result {call : Query.Call} {q : Query} (h : call.result = .ok q) :
    q.driver = call.attached?.or (call.receiver?.bind Query.driver) := by
  cases call with
  | filter | groupBy | orderBy | joinOn => exact driver_of_forClause_bind_eq_ok h
  | take => exact driver_of_take_eq_ok h
  | row =>
    rcases take_of_row_eq_ok h with h | h
    · exact driver_of_take_eq_ok h
    · exact (driver_of_take_eq_ok h).trans rfl
  | rows =>
    obtain ⟨_, h | h⟩ := take_of_rows_eq_ok h
    · exact driver_of_take_eq_ok h
    · exact (driver_of_take_eq_ok h).trans rfl
  | select q items =>
    obtain rfl := Except.ok.inj h
    exact driver_select q items
  | selectColumns q columns =>
    obtain rfl := Except.ok.inj h
    exact driver_select q _
  | projected q =>
    obtain rfl := Except.ok.inj h
    cases q
    simp [receiver?, attached?, Query.projected]
  | converted q =>
    obtain rfl := Except.ok.inj h
    exact driver_getD_membership? q
  | _ =>
    obtain rfl := Except.ok.inj h
    rfl

end Query

namespace Remembered

/-- The query was built by a chain of calls, the last one first, each made on what the one before it
made. The other queries that a call works on are built in any way, with any drivers. -/
inductive Built : List Query.Call → Remembered → Prop where
  /-- The chain starts with a call that is made on no query. -/
  | start {call : Query.Call} {q : Query} (hreceiver : call.receiver? = none)
      (hresult : call.result = .ok q) : Built [call] (ofQuery q)
  /-- A call makes a copy, or a query without a memory. -/
  | call {calls : List Query.Call} {r : Remembered} {call : Query.Call} {q : Query}
      (h : Built calls r) (hreceiver : call.receiver? = some r.query) (hpass : call.isPass = false)
      (hresult : call.result = .ok q) :
      Built (call :: calls) (if call.isCopy then r else ofQuery q)
  /-- What was made is compiled in between. -/
  | compiled {calls : List Query.Call} {r : Remembered} (h : Built calls r) :
      Built calls r.compile.2

variable {calls : List Query.Call} {r : Remembered}

theorem query_compile (r : Remembered) : r.compile.2.query = r.query := by
  unfold compile
  cases r.sql with
  | some sql => rfl
  | none => cases r.query.compile <;> rfl

/-- A copy is the receiver. -/
theorem eq_of_isCopy {call : Query.Call} {q receiver : Query} (hcopy : call.isCopy = true)
    (hreceiver : call.receiver? = some receiver) (hresult : call.result = .ok q) :
    q = receiver := by
  cases call with
  | select receiver' items =>
    obtain rfl := Option.some.inj hreceiver
    obtain rfl := Except.ok.inj hresult
    exact if_pos hcopy
  | selectColumns receiver' columns =>
    obtain rfl := Option.some.inj hreceiver
    obtain rfl := Except.ok.inj hresult
    exact if_pos (by simpa [Query.Call.isCopy] using hcopy)
  | _ => cases hcopy

/-- What a call makes is the query that it results in, with a memory or without. -/
theorem query_ite_isCopy {call : Query.Call} {q : Query}
    (hreceiver : call.receiver? = some r.query) (hresult : call.result = .ok q) :
    (if call.isCopy then r else ofQuery q).query = q := by
  split
  · rename_i hcopy
    exact (eq_of_isCopy hcopy hreceiver hresult).symm
  · rfl

/-- The driver of a query is the one that was attached last along the chain of calls. -/
theorem Built.driver_eq (h : Built calls r) :
    r.query.driver = calls.findSome? Query.Call.attached? := by
  induction h with
  | @start call q hreceiver hresult =>
    have hdriver := Query.Call.driver_of_result hresult
    rw [hreceiver, Option.bind_none, Option.or_none] at hdriver
    rw [ofQuery, hdriver, List.findSome?_cons]
    cases call.attached? <;> rfl
  | @call calls r call q h hreceiver hpass hresult ih =>
    have hdriver := Query.Call.driver_of_result hresult
    rw [hreceiver, Option.bind_some, ih] at hdriver
    rw [query_ite_isCopy hreceiver hresult, hdriver, List.findSome?_cons]
    cases call.attached? <;> rfl
  | @compiled calls r h ih => rw [query_compile, ih]

/-- Builder calls and compilations never leave a memory late. -/
theorem Built.fresh (h : Built calls r) : r.Fresh := by
  induction h with
  | start => exact .of_sql_eq_none rfl
  | call _ _ _ _ ih =>
    split
    · exact ih
    · exact .of_sql_eq_none rfl
  | compiled _ ih => exact ih.compiled

section Run

variable {m : Type → Type} [Monad m] {α : Type}
  (execute : (driver sql : String) → m (Except Error α))

/-- Without a driver nothing is executed. -/
theorem run_of_driver_eq_none (h : r.query.driver = none) :
    r.run execute = pure (.error (.noDriver r.query.reference.text), r) := by
  simp only [run, h]

/-- Without SQL nothing is executed, and nothing is remembered. -/
theorem Fresh.run_of_compile_eq_error {driver : String} {e : Error} (h : r.Fresh)
    (hdriver : r.query.driver = some driver) (he : r.query.compile = .error e) :
    r.run execute = pure (.error e, r) := by
  have hnone : r.sql = none := by
    refine Option.eq_none_iff_forall_ne_some.mpr fun sql hsql => ?_
    rw [h sql hsql] at he
    cases he
  have hcompile : r.compile = (.error e, r) := by simp [compile, hnone, he]
  simp only [run, hdriver, hcompile]

/-- The driver executes what the query is compiled to, and its answer is handed on. -/
theorem Fresh.run_of_compile_eq_ok {driver sql : String} (h : r.Fresh)
    (hdriver : r.query.driver = some driver) (hsql : r.query.compile = .ok sql) :
    r.run execute = do return (← execute driver sql, { r with sql := some sql }) := by
  have hcompile : r.compile = (.ok sql, { r with sql := some sql }) := by
    cases hmemory : r.sql with
    | none => simp [compile, hmemory, hsql]
    | some text =>
      have hsame : text = sql := Except.ok.inj ((h text hmemory).symm.trans hsql)
      obtain ⟨q, memory⟩ := r
      simp only at hmemory
      simp [compile, hmemory, hsame]
  simp only [run, hdriver, hcompile]

/-- A run with a fresh memory answers as a run without one. -/
theorem Fresh.fst_run [LawfulMonad m] (h : r.Fresh) :
    Prod.fst <$> r.run execute = r.query.run execute := by
  unfold Query.run
  cases hdriver : r.query.driver with
  | none => simp [run_of_driver_eq_none execute hdriver]
  | some driver =>
    cases hcompile : r.query.compile with
    | error e => simp [h.run_of_compile_eq_error execute hdriver hcompile]
    | ok sql => simp [h.run_of_compile_eq_ok execute hdriver hcompile]

end Run

/-- A query that was built by calls has the driver attached last along its chain of receivers. A run
of it fails without a driver, or else with the error of its compilation, and executes nothing then;
otherwise the driver executes the SQL of the query once, and its answer is handed on. -/
theorem Built.run_eq (h : Built calls r) :
    r.query.driver = calls.findSome? Query.Call.attached? ∧
    ∀ (m : Type → Type) [Monad m] (α : Type) (execute : (driver sql : String) → m (Except Error α)),
      (calls.findSome? Query.Call.attached? = none →
        r.run execute = pure (.error (.noDriver r.query.reference.text), r)) ∧
      ∀ driver, calls.findSome? Query.Call.attached? = some driver →
        (∀ e, r.query.compile = .error e → r.run execute = pure (.error e, r)) ∧
        ∀ sql, r.query.compile = .ok sql →
          r.run execute = do return (← execute driver sql, { r with sql := some sql }) := by
  refine ⟨h.driver_eq, fun m _ α execute => ⟨fun hnone => ?_, fun driver hdriver => ?_⟩⟩
  · exact run_of_driver_eq_none execute (h.driver_eq.trans hnone)
  · have hattached := h.driver_eq.trans hdriver
    exact ⟨fun e => h.fresh.run_of_compile_eq_error execute hattached,
      fun sql => h.fresh.run_of_compile_eq_ok execute hattached⟩

/-- A driver that keeps a list of what it is given. -/
def recorded (driver sql : String) : StateM (List (String × String)) (Except Error String) := do
  modify fun given => given ++ [(driver, sql)]
  return .ok "rows"

/-- The table `t1` with a driver, and with tables that have other drivers on the right of a set
operation and as the target of a join. -/
def relayed : Query :=
  let left := (Query.ofTable "t1").withDriver "first"
  let right := (Query.ofTable "t2").withDriver "second"
  (Query.ofQuery (.combine .union left right)).join ((Query.ofTable "t3").withDriver "third")

/-- The statement of that query. -/
def relayedSql : String :=
  "SELECT * FROM (SELECT * FROM t1 UNION SELECT * FROM t2) AS \"sq1\" INNER JOIN t3;"

theorem Built.run_eq_relayed :
    ∃ calls, Built calls (ofQuery relayed) ∧
      calls.findSome? Query.Call.attached? = some "first" ∧
      relayed.compile = .ok relayedSql ∧
      ((ofQuery relayed).run recorded).run [] =
        ((.ok "rows", ⟨relayed, some relayedSql⟩), [("first", relayedSql)]) := by
  let t1 := Query.ofTable "t1"
  let left := t1.withDriver "first"
  let right := (Query.ofTable "t2").withDriver "second"
  let both := Query.combine .union left right
  let target := (Query.ofTable "t3").withDriver "third"
  have hbuilt : Built [.join (.ofQuery both) target, .derived both, .combined .union left right,
      .withDriver t1 "first", .table "t1"] (ofQuery relayed) :=
    .call (.call (.call (.call (.start rfl rfl) rfl rfl rfl) rfl rfl rfl) rfl rfl rfl) rfl rfl rfl
  have hsql : relayed.compile = .ok relayedSql := by decide +kernel
  refine ⟨_, hbuilt, rfl, hsql, ?_⟩
  rw [((hbuilt.run_eq.2 _ _ recorded).2 "first" rfl).2 _ hsql]
  rfl

end Remembered

end SqlTree
