import SqlTree.Proofs.Membership.Revised

/-!
# Statements on their own and inside others

What is written for a column or a query on its own is also what is written for it where it is
projected, queried or compared with. Main statement: the statement around a part has the SQL of the
part, without its semicolon, in a frame, and it fails with the same error if the part fails.
-/

namespace SqlTree

/-- The second outcome has the statement of the first one in a frame, or the same error. -/
def Framed (frame : String → String) (alone within : Except Error String) : Prop :=
  (∃ e, alone = .error e ∧ within = .error e) ∨
    ∃ body, alone = .ok (body ++ ";") ∧ within = .ok (frame body)

/-- A statement and one around it that are subject to the same check. -/
theorem framed_of_check {frame : String → String} {check : Except Error Unit}
    {alone within : Except Error String} {body : String}
    (halone : alone = check.map fun _ => body ++ ";")
    (hwithin : within = check.map fun _ => frame body) : Framed frame alone within := by
  subst halone hwithin
  cases check with
  | error e => exact .inl ⟨e, rfl, rfl⟩
  | ok u => exact .inr ⟨body, rfl, rfl⟩

theorem Query.write_eq_map (q : Query) :
    q.write = q.check.map fun _ => Statement.text (q.tokens 0) ++ ";" := by
  unfold write
  cases q.check <;> rfl

theorem Column.compile_eq_map (c : Column) :
    c.compile = c.projected.check.map fun _ => c.projected.sql 0 ++ ";" := by
  unfold compile
  cases c.projected.check <;> rfl

/-- A query without an existence test to convert is written with explicit projections only. -/
theorem Query.prepared_of_membership?_eq_none {q : Query} (h : q.membership? = none) :
    q.prepared = q.projected := by
  have hnone : q.projected.membership? = none := by
    rw [projected_eq_revised, membership?_revised]
    unfold membership? at h
    cases hcombined : q.source.isCombined with
    | true => rfl
    | false =>
      cases htake : takeFirst? (Entry.membership? q.reference) q.log with
      | none => rfl
      | some found => simp [hcombined, htake] at h
  rw [prepared, hnone, Option.getD_none]

/-- A query that projects one item and does nothing else to its rows. -/
theorem Query.tokens_select_singleton {source : Source} (h : source.isCombined = false)
    (aliasName : Option String) (item : Projection) (driver : Option String) (n : Nat) :
    (⟨source, aliasName, [.select [item]], none, false, false, driver⟩ : Query).tokens n =
      ["SELECT"] ++
        (item.piece (n + ((source.needsName aliasName).toNat + source.nameCount))).tokens ++
        ["FROM"] ++ source.tokens n aliasName := by
  obtain ⟨expr, itemAlias⟩ := item
  simp [tokens, h, Entry.pieces, Entry.piece, Projection.pieces, Projection.piece, Piece.select,
    Statement.select, Statement.trailing, Statement.separated, Statement.conditions,
    Statement.list]

/-- A table from which one column is projected. -/
theorem Query.compile_selectColumns_singleton (name : String) (c : Column) :
    ((ofTable name).selectColumns [c]).compile = c.projected.check.map fun _ =>
      "SELECT " ++ c.projected.sql 0 ++ " FROM " ++ name ++ ";" := by
  let q : Query := { ofTable name with log := [.select [⟨.column c.projected, none⟩]] }
  have hprepared : ((ofTable name).selectColumns [c]).prepared = q := rfl
  have hcheck : q.check = c.projected.check := by
    change ((c.projected.check >>= fun _ => pure ()) >>= fun _ => pure ()) = _
    rw [bind_pure_unit, bind_pure_unit]
  have htokens : q.tokens 0 = ["SELECT", c.projected.sql 0, "FROM", name] :=
    tokens_select_singleton rfl none ⟨.column c.projected, none⟩ none 0
  have htext : Statement.text ["SELECT", c.projected.sql 0, "FROM", name] ++ ";" =
      "SELECT " ++ c.projected.sql 0 ++ " FROM " ++ name ++ ";" := by
    simp [← String.toList_inj, Statement.text]
  rw [compile, hprepared, write_eq_map, hcheck, htokens, htext]

/-- A query over the rows of another one under an alias. -/
theorem Query.compile_ofQuery_withAlias (q : Query) (aliasName : String) :
    ((ofQuery q).withAlias aliasName).compile = q.projected.check.map fun _ =>
      "SELECT * FROM (" ++ Statement.text (q.projected.tokens 0) ++ ") AS " ++
        Text.Quoted.identifier aliasName ++ ";" := by
  let outer : Query := { ofSource (.derived q.projected) with
    aliasName := some aliasName, log := [.selectAll], driver := q.driver }
  have hprepared : ((ofQuery q).withAlias aliasName).prepared = outer := rfl
  have hcheck : outer.check = q.projected.check := by
    change (q.projected.check >>= fun _ => pure ()) = _
    rw [bind_pure_unit]
  have htokens : outer.tokens 0 = ["SELECT", "*", "FROM",
      Text.parenthesized (Statement.text (q.projected.tokens 0)), "AS",
      Text.Quoted.identifier aliasName] :=
    tokens_select_singleton rfl (some aliasName) ⟨.column .star, none⟩ q.driver 0
  have htext (body name : String) :
      Statement.text ["SELECT", "*", "FROM", Text.parenthesized body, "AS", name] ++ ";" =
        "SELECT * FROM (" ++ body ++ ") AS " ++ name ++ ";" := by
    simp [← String.toList_inj, Statement.text, Text.parenthesized]
  rw [compile, hprepared, write_eq_map, hcheck, htokens, htext]

/-- A column by name that is compared with the rows of a query. -/
theorem Column.compile_combine_isIn (name : String) (q : Query) :
    ((ofName name).combine .isIn (.query q)).compile = q.projected.check.map fun _ =>
      "(" ++ name ++ " IN (" ++ Statement.text (q.projected.tokens 0) ++ "));" := by
  have hcheck : ((ofName name).combine .isIn (.query q)).projected.check =
      q.projected.check := rfl
  have hsql : ((ofName name).combine .isIn (.query q)).projected.sql 0 =
      Text.parenthesized (Base.nameSql name none ++ " " ++ "IN" ++ " " ++
        Text.parenthesized (Statement.text (q.projected.tokens 0))) := rfl
  have hname : Base.nameSql name none = name := by simp [Base.nameSql]
  have htext (body : String) : Text.parenthesized (name ++ " " ++ "IN" ++ " " ++
      Text.parenthesized body) ++ ";" = "(" ++ name ++ " IN (" ++ body ++ "));" := by
    simp [← String.toList_inj, Text.parenthesized]
  rw [compile_eq_map, hcheck, hsql, hname, htext]

/-- A column or a query is written inside another statement as it is on its own: as the one item of
a projection, as a derived table, and as the right side of a membership test. If it cannot be
written, the other statement fails with its error. -/
theorem framed_compile :
    (∀ (c : Column) (name : String),
      Framed (fun body => "SELECT " ++ body ++ " FROM " ++ name ++ ";") c.compile
        ((Query.ofTable name).selectColumns [c]).compile) ∧
    ∀ q : Query, q.membership? = none →
      (∀ aliasName : String,
        Framed (fun body => "SELECT * FROM (" ++ body ++ ") AS " ++
            Text.Quoted.identifier aliasName ++ ";") q.compile
          ((Query.ofQuery q).withAlias aliasName).compile) ∧
      ∀ name : String,
        Framed (fun body => "(" ++ name ++ " IN (" ++ body ++ "));") q.compile
          ((Column.ofName name).combine .isIn (.query q)).compile := by
  refine ⟨fun c name => ?_, fun q hq => ?_⟩
  · exact framed_of_check c.compile_eq_map (Query.compile_selectColumns_singleton name c)
  · have halone : q.compile = q.projected.check.map fun _ =>
        Statement.text (q.projected.tokens 0) ++ ";" := by
      rw [Query.compile, Query.prepared_of_membership?_eq_none hq, Query.write_eq_map]
    exact ⟨fun aliasName => framed_of_check halone (q.compile_ofQuery_withAlias aliasName),
      fun name => framed_of_check halone (Column.compile_combine_isIn name q)⟩

/-- A set operation with a derived table that is numbered inside it, and a query that filters groups
without having them. -/
theorem framed_compile_union :
    let t : Query := .ofTable "t"
    let q : Query := .combine .union t (.ofQuery (.ofTable "s"))
    let u : Query := t.having (t.column "n")
    let derived (body : String) : String :=
      "SELECT * FROM (" ++ body ++ ") AS " ++ Text.Quoted.identifier "A" ++ ";"
    let member (body : String) : String := "(" ++ "x" ++ " IN (" ++ body ++ "));"
    (q.membership? = none ∧
      q.compile = .ok "SELECT * FROM t UNION SELECT * FROM (SELECT * FROM s) AS \"sq1\";" ∧
      Framed derived q.compile ((Query.ofQuery q).withAlias "A").compile ∧
      Framed member q.compile ((Column.ofName "x").combine .isIn (.query q)).compile) ∧
    u.membership? = none ∧ u.compile = .error (.havingWithoutGroup "t") ∧
      Framed derived u.compile ((Query.ofQuery u).withAlias "A").compile := by
  intro t q u derived member
  have hq : q.membership? = none := rfl
  have hu : u.membership? = none := rfl
  have hsql : q.compile =
      .ok "SELECT * FROM t UNION SELECT * FROM (SELECT * FROM s) AS \"sq1\";" := by
    decide +kernel
  have herror : u.compile = .error (.havingWithoutGroup "t") := by decide +kernel
  exact ⟨⟨hq, hsql, (framed_compile.2 q hq).1 "A", (framed_compile.2 q hq).2 "x"⟩,
    hu, herror, (framed_compile.2 u hu).1 "A"⟩

example : (((Query.ofQuery (.combine .union (.ofTable "t") (.ofQuery (.ofTable "s")))).withAlias
      "A").compile) = .ok ("SELECT * FROM (SELECT * FROM t UNION " ++
        "SELECT * FROM (SELECT * FROM s) AS \"sq1\") AS \"A\";") := by decide +kernel

end SqlTree
