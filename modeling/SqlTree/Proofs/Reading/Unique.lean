import SqlTree.Proofs.Reading.Readable

/-!
# One expression for each text

Two expressions over plain names, integers and strings may compile to the same text. Main
statements: they do exactly if the same is shown of them, and so, without tests for null on the
bounds of range tests, exactly if they differ at most in operators with one symbol and in owners
with one qualifier. With such a test they may differ in the test as well.
-/

namespace SqlTree

mutual

/-- Expressions over names and literals can be written. -/
theorem Column.check_eq_ok : ∀ c : Column, c.Meets .basic → c.check = .ok ()
  | ⟨base, _, _⟩, hc => by
    simp only [Column.Meets] at hc
    rw [Column.check, Base.check_eq_ok base hc.2]

theorem Base.check_eq_ok : ∀ b : Base, b.Meets .basic → b.check = .ok ()
  | .named _ _, _ => by rw [Base.check]
  | .binary _ left right, hb => by
    simp only [Base.Meets] at hb
    rw [Base.check, Operand.check_eq_ok left hb.1, Operand.check_eq_ok right hb.2]
    rfl

theorem Operand.check_eq_ok : ∀ side : Operand, side.Meets .basic → side.check = .ok ()
  | .column c, hside => by
    simp only [Operand.Meets] at hside
    rw [Operand.check, Column.check_eq_ok c hside]
  | .literal _, _ => by rw [Operand.check]
  | .query q, hside => by
    simp only [Operand.Meets] at hside
    exact absurd hside q.not_meets_basic

end

namespace Column

variable {c other : Column}

/-- A column by a plain name, drawn from a query with a plain qualifier or from none. -/
theorem meets_basic_named {name : String} {owner : Option Reference} (h : PlainName name owner) :
    Column.Meets .basic ⟨.named name owner, [], none⟩ := by
  rw [Column.Meets, Base.Meets]
  refine ⟨?_, trivial⟩
  rintro _ _ ⟨⟩
  exact h

/-- Two operands joined by an operator. -/
theorem meets_basic_ofBinary (op : BinaryOp) {left right : Operand} (hleft : left.Meets .basic)
    (hright : right.Meets .basic) : (ofBinary op left right).Meets .basic := by
  rw [Column.meets_ofBinary_iff]
  exact ⟨nofun, hleft, hright⟩

/-- Functions and tests that are called on an expression. -/
theorem meets_basic_of_wrapAll_eq_ok {calls : List Wrap} (hc : c.Meets .basic)
    (h : c.wrapAll calls = .ok other) : other.Meets .basic := by
  have hbase : other.base = c.base := by rw [eq_of_wrapAll_eq_ok h]
  exact hc.of_base_eq hbase

theorem compile_eq_ok_sql (hc : c.Meets .basic) : c.compile = .ok (c.sql 0 ++ ";") :=
  compile_eq_ok_iff_sql.mpr ⟨c.base.check_eq_ok (Column.meets_iff.mp hc).2, rfl⟩

/-- Two expressions compile to the same text exactly if the same is shown of them: nothing but a
test for null on the bounds of a range test is dropped, and nothing but operators with one symbol
and owners with one qualifier is taken for the same. -/
theorem compile_eq_iff_shown_eq (hc : c.Meets .basic) (hother : other.Meets .basic) :
    ((∃ sql, c.compile = .ok sql ∧ other.compile = .ok sql) ↔ c.shown = other.shown) ∧
      (c.untestedBounds = c → other.untestedBounds = other →
        ((∃ sql, c.compile = .ok sql ∧ other.compile = .ok sql) ↔ c.merged = other.merged)) := by
  have hshown : (∃ sql, c.compile = .ok sql ∧ other.compile = .ok sql) ↔
      c.shown = other.shown := by
    rw [← sql_eq_iff_shown_eq hc hother 0 0, compile_eq_ok_sql hc, compile_eq_ok_sql hother]
    constructor
    · rintro ⟨sql, hsql, hsql'⟩
      exact (String.append_left_inj ";").mp
        (Except.ok.inj (hsql.trans hsql'.symm))
    · intro heq
      exact ⟨_, rfl, by rw [heq]⟩
  refine ⟨hshown, fun hbounds hbounds' => ?_⟩
  rw [hshown, shown, shown, hbounds, hbounds']

/-- A concatenation and an addition over owners with one qualifier: both are the lower bound of a
range test that is negated and tested for null. -/
theorem compile_eq_iff_shown_eq_negated :
    let calls : List Wrap := [.function (.unary .not), .nullTest .isNull]
    let low : Column := ofBinary .concat (.column (.ownedBy ⟨some "t", none⟩ "a"))
      (.literal (.string "it's"))
    let low' : Column := ofBinary .add (.column (.ownedBy ⟨some "s", some "t"⟩ "a"))
      (.literal (.string "it's"))
    let c : Column := (ofName "b").between (.column low) (.literal (.int (-1)))
    let other : Column := (ofName "b").between (.column low') (.literal (.int (-1)))
    ∃ negated negated' : Column, c.wrapAll calls = .ok negated ∧
      other.wrapAll calls = .ok negated' ∧
      (negated.Meets .basic ∧ negated'.Meets .basic) ∧
      (negated.untestedBounds = negated ∧ negated'.untestedBounds = negated') ∧
      negated.merged = negated'.merged ∧
      (∃ sql, negated.compile = .ok sql ∧ negated'.compile = .ok sql) ∧
      negated.compile = .ok "NOT(b BETWEEN (t.a + 'it''s') AND -1) IS NULL;" := by
  intro calls low low' c other
  have hdrawn (r : Reference) (hr : r.qualifier = some "t") :
      (Operand.column (.ownedBy r "a")).Meets .basic := by
    rw [Operand.Meets]
    exact meets_basic_named ⟨by decide, fun _ h => ⟨"t", Option.some.inj h ▸ hr, by decide⟩⟩
  have hrange (low : Column) (hlow : low.Meets .basic) :
      ((ofName "b").between (.column low) (.literal (.int (-1)))).Meets .basic := by
    have hname : (ofName "b").Meets .basic := meets_basic_named ⟨by decide, nofun⟩
    have hbounds : (ofBinary .and (.column low) (.literal (.int (-1)))).Meets .basic :=
      meets_basic_ofBinary .and hlow rfl
    exact meets_basic_ofBinary .between hname hbounds
  have hc : c.Meets .basic :=
    hrange low (meets_basic_ofBinary .concat (hdrawn ⟨some "t", none⟩ rfl) rfl)
  have hother : other.Meets .basic :=
    hrange low' (meets_basic_ofBinary .add (hdrawn ⟨some "s", some "t"⟩ rfl) rfl)
  let negated : Column := ⟨c.base, [.unary .not], some .isNull⟩
  let negated' : Column := ⟨other.base, [.unary .not], some .isNull⟩
  have hcalls : c.wrapAll calls = .ok negated := rfl
  have hcalls' : other.wrapAll calls = .ok negated' := rfl
  have hnegated := meets_basic_of_wrapAll_eq_ok hc hcalls
  have hnegated' := meets_basic_of_wrapAll_eq_ok hother hcalls'
  have hbounds : negated.untestedBounds = negated := rfl
  have hbounds' : negated'.untestedBounds = negated' := rfl
  have hmerged : negated.merged = negated'.merged := rfl
  have hsame := ((compile_eq_iff_shown_eq hnegated hnegated').2 hbounds hbounds').mpr hmerged
  exact ⟨negated, negated', hcalls, hcalls', ⟨hnegated, hnegated'⟩, ⟨hbounds, hbounds'⟩, hmerged,
    hsame, by decide +kernel⟩

/-- The bounds of a range test may be tested for null, and then they are compiled as if they were
not. -/
theorem not_forall_merged_eq_of_compile_eq :
    (∃ bounds : Column,
      ((ofName "b").combine .and (.column (ofName "c"))).withNullTest .isNull = .ok bounds ∧
        ((ofName "a").combine .between (.column bounds)).compile = .ok "(a BETWEEN b AND c);") ∧
      ((ofName "a").between (.column (ofName "b")) (.column (ofName "c"))).compile =
        .ok "(a BETWEEN b AND c);" ∧
      ¬ ∀ (c other : Column) (sql : String), c.Meets .basic → other.Meets .basic →
        c.compile = .ok sql → other.compile = .ok sql → c.merged = other.merged := by
  have hname (name : String) (h : Text.isPlainIdentifier name = true) :
      (Operand.column (ofName name)).Meets .basic := by
    rw [Operand.Meets]
    exact meets_basic_named ⟨h, nofun⟩
  have hpair : ((ofName "b").combine .and (.column (ofName "c"))).Meets .basic :=
    meets_basic_ofBinary .and (hname "b" (by decide)) (hname "c" (by decide))
  let bounds : Column := { (ofName "b").combine .and (.column (ofName "c")) with
    nullTest := some .isNull }
  have hcalls : ((ofName "b").combine .and (.column (ofName "c"))).wrapAll [.nullTest .isNull] =
      .ok bounds := rfl
  have hbounds := meets_basic_of_wrapAll_eq_ok hpair hcalls
  have htested : ((ofName "a").combine .between (.column bounds)).compile =
      .ok "(a BETWEEN b AND c);" := by decide +kernel
  have hplain : ((ofName "a").between (.column (ofName "b")) (.column (ofName "c"))).compile =
      .ok "(a BETWEEN b AND c);" := by decide +kernel
  refine ⟨⟨bounds, rfl, htested⟩, hplain, fun hall => ?_⟩
  have hmeets : ((ofName "a").combine .between (.column bounds)).Meets .basic :=
    meets_basic_ofBinary .between (hname "a" (by decide)) hbounds
  have hmeets' :
      ((ofName "a").between (.column (ofName "b")) (.column (ofName "c"))).Meets .basic :=
    meets_basic_ofBinary .between (hname "a" (by decide)) hpair
  have hmerged := hall _ _ _ hmeets hmeets' htested hplain
  injection hmerged with hbase
  injection hbase with _ _ hright
  injection hright with hright
  injection hright with _ _ htest
  cases htest

end Column

end SqlTree
