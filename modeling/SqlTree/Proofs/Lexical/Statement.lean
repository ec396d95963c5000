import SqlTree.Proofs.Lexical.Spelling
import SqlTree.Proofs.Membership.Revised

/-!
# Statements and the strings in them

What a program puts between quotes stays between quotes. Main statements: whatever its aliases and
literals are, a tree is compiled to one statement, which ends with its text; and with other strings
a tree is compiled to the same lexemes with these strings among them, or fails as before.
-/

namespace SqlTree

/-- The text is one statement: it ends outside quotes, its parentheses outside quotes are balanced,
and outside quotes a semicolon stands at its end and nowhere else. -/
def Text.IsStatement (sql : String) : Prop :=
  ∃ lexemes : List Text.Lexeme,
    Text.lexemes? sql.toList = some (lexemes ++ [.plain ';']) ∧
      Text.Lexeme.depthAfter? 0 (lexemes ++ [.plain ';']) = some 0 ∧
      .plain ';' ∉ lexemes

/-- The revision that replaces the strings of a tree. -/
def Revision.strings (f : String → String) : Revision := ⟨Literal.mapStrings f, false⟩

namespace Text

/-- A semicolon may follow any text. -/
theorem Lexed.terminated {lexemes : List Lexeme} {s : String} (h : Lexed lexemes s.toList) :
    Lexed (lexemes ++ [.plain ';']) (s ++ ";").toList := by
  have hend : Lexed [.plain ';'] [';'] := .plain (by decide) .nil
  have hterminated : Lexed (lexemes ++ [.plain ';']) (s.toList ++ [';']) := by
    refine h.append hend fun c hc => ?_
    obtain rfl : ';' = c := by simpa using hc
    decide
  simpa using hterminated

/-- A balanced text with a semicolon behind it is a statement. -/
theorem Alike.isStatement {s t : String} (h : Alike id Lexeme.Balanced s t) :
    IsStatement (s ++ ";") := by
  obtain ⟨lexemes, hs, _, hbalanced⟩ := h
  refine ⟨lexemes, hs.terminated.lexemes?_eq, ?_, hbalanced.semicolon_notMem⟩
  rw [Lexeme.depthAfter?_append, hbalanced.depthAfter?_eq]
  rfl

end Text

/-- Names are free of marks; aliases and literals are any whatsoever. -/
def Demand.unmarkedNames : Demand := .spelled (fun _ => True) fun _ => True

theorem Demand.likeness_unmarkedNames :
    Likeness (Literal.mapStrings id) .unmarkedNames (Text.Alike id Text.Lexeme.Balanced) :=
  likeness_spelled Text.Alike.congruence_balanced (Text.Alike.string Text.Lexeme.Balanced.closure)
    (fun name _ => .identifier (.quoted '"' name.toList)) fun _ _ _ _ => rfl

/-- Neither aliases nor literals can break out of a statement: if names are free of quotes,
parentheses and semicolons, whatever a query or a column is compiled to is one statement. -/
theorem isStatement_of_compile_eq_ok :
    (∀ (q : Query) (sql : String), q.Meets .unmarkedNames → q.compile = .ok sql →
      Text.IsStatement sql) ∧
    ∀ (c : Column) (sql : String), c.Meets .unmarkedNames → c.compile = .ok sql →
      Text.IsStatement sql := by
  have hstable : Demand.unmarkedNames.Stable := Demand.stable_spelled _ _
  constructor
  · intro q sql hq hsql
    obtain ⟨_, rfl⟩ := Query.write_eq_ok_iff.mp hsql
    have htokens := Query.related_tokens Demand.likeness_unmarkedNames q.prepared false 0
      (Query.meets_prepared hstable hq)
    exact (Statement.related_text Demand.likeness_unmarkedNames.toCongruence htokens).isStatement
  · intro c sql hc hsql
    obtain ⟨_, rfl⟩ := Column.compile_eq_ok_iff.mp hsql
    exact (Column.related_sql Demand.likeness_unmarkedNames c.projected false 0
      (Column.meets_projected hstable c hc)).isStatement

/-- An alias and a string that try to end the statement. The quotes that they are given hide the
outer parentheses from the test for an enclosing pair, so a second pair is put around the filter. -/
theorem isStatement_hostileAlias :
    let t : Query := .ofTableAs "t" "x\"); --"
    let cond : Column := (t.column "n").combine .eq (.literal (.string "');"))
    let filtered : Query := t.push (.filter cond)
    let negated : Column := cond.applyFunc (.unary .not)
    let statement := "SELECT * FROM t AS \"x\"\"); --\" WHERE ((\"x\"\"); --\".n = ''');'));"
    let expression := "NOT((\"x\"\"); --\".n = ''');'));"
    (filtered.Meets .unmarkedNames ∧ filtered.compile = .ok statement ∧
      Text.IsStatement statement) ∧
    negated.Meets .unmarkedNames ∧ negated.compile = .ok expression ∧
      Text.IsStatement expression := by
  intro t cond filtered negated statement expression
  have hreference : t.reference.Spelled fun _ => True :=
    ⟨fun name hname => Option.some.inj hname ▸ by decide, fun _ _ => trivial⟩
  have hcolumn : (t.column "n").Meets .unmarkedNames := by
    refine Column.meets_iff.mpr ⟨fun name owner hbase => ?_, trivial⟩
    cases hbase
    exact ⟨by decide, fun r hr => Option.some.inj hr ▸ hreference⟩
  have hcond : cond.Meets .unmarkedNames :=
    Column.meets_ofBinary_iff.mpr ⟨nofun, hcolumn, trivial⟩
  have hfiltered : filtered.Meets .unmarkedNames :=
    Query.meets_iff.mpr ⟨hreference, trivial, List.forall_mem_singleton.mpr ⟨nofun, hcond⟩⟩
  have hnegated : negated.Meets .unmarkedNames :=
    Column.meets_iff.mpr ⟨nofun, (Column.meets_iff.mp hcond).2⟩
  have hstatement : filtered.compile = .ok statement := by decide +kernel
  have hexpression : negated.compile = .ok expression := by decide +kernel
  exact ⟨⟨hfiltered, hstatement, isStatement_of_compile_eq_ok.1 _ _ hfiltered hstatement⟩,
    hnegated, hexpression, isStatement_of_compile_eq_ok.2 _ _ hnegated hexpression⟩

/-- Names and aliases are free of marks, and of literals only strings are quoted. -/
def Demand.unmarkedAliases : Demand := .spelled Text.Unmarked fun v => v.dateTexts = []

theorem Demand.likeness_unmarkedAliases (f : String → String) :
    Likeness (Literal.mapStrings f) .unmarkedAliases (Text.Alike f Text.Lexeme.Tame) :=
  likeness_spelled Text.Alike.congruence_tame (Text.Alike.string Text.Lexeme.Tame.closure)
    (fun name hname =>
      .identifier (Text.Lexeme.Tame.closure.identifier name.toList (or_self_iff.mp hname)))
    fun _ hv => hv ▸ List.forall_mem_nil _

/-- The strings of a tree are not seen in the structure of its statement. If names and aliases are
free of marks and only strings are quoted, the tree with other strings is compiled to the lexemes of
its statement with the strings among them replaced, or it fails with the same error. -/
theorem Query.compile_revised_strings (f : String → String) {q : Query}
    (hq : q.Meets .unmarkedAliases) :
    (∀ e, q.compile = .error e → (q.revised (.strings f)).compile = .error e) ∧
      ∀ sql, q.compile = .ok sql → ∃ lexemes : List Text.Lexeme,
        Text.lexemes? sql.toList = some lexemes ∧ Text.Lexeme.text lexemes = sql ∧
          (q.revised (.strings f)).compile =
            .ok (Text.Lexeme.text (lexemes.map (Text.Lexeme.mapString f))) := by
  have hprepared : (q.revised (.strings f)).prepared = q.prepared.revised (.strings f) :=
    prepared_revised (.strings f) rfl q
  have hlikeness := Demand.likeness_unmarkedAliases f
  unfold compile
  rw [hprepared]
  constructor
  · intro e he
    rw [write_eq_error_iff, check_revised]
    exact write_eq_error_iff.mp he
  · intro sql hsql
    obtain ⟨hcheck, rfl⟩ := write_eq_ok_iff.mp hsql
    have htokens := related_tokens hlikeness q.prepared false 0
      (meets_prepared (Demand.stable_spelled _ _) hq)
    obtain ⟨lexemes, hs, ht, _⟩ := Statement.related_text hlikeness.toCongruence htokens
    have hchanged := ht.terminated
    refine ⟨lexemes ++ [.plain ';'], hs.terminated.lexemes?_eq, hs.terminated.text_eq, ?_⟩
    rw [write_eq_ok_iff, check_revised, List.map_append, List.map_singleton,
      Text.Lexeme.mapString_plain, hchanged.text_eq]
    exact ⟨hcheck, rfl⟩

/-- Strings of a tuple are replaced by hostile ones, and a query that has no statement has none
with other strings. -/
theorem Query.compile_revised_strings_tuple :
    let t : Query := .ofTable "t"
    let names : Literal := .tuple [.string "a", .string "it's"]
    let cond : Column := (t.column "n").combine .isIn (.literal names)
    let filtered : Query := t.push (.filter cond)
    let ungrouped : Query := t.push (.having cond)
    let closing : String → String := fun s => s ++ "');"
    filtered.Meets .unmarkedAliases ∧
      filtered.compile = .ok "SELECT * FROM t WHERE (t.n IN ('a','it''s'));" ∧
      (∃ lexemes : List Text.Lexeme,
        Text.lexemes? "SELECT * FROM t WHERE (t.n IN ('a','it''s'));".toList = some lexemes ∧
          Text.Lexeme.text lexemes = "SELECT * FROM t WHERE (t.n IN ('a','it''s'));" ∧
          (filtered.revised (.strings closing)).compile =
            .ok (Text.Lexeme.text (lexemes.map (Text.Lexeme.mapString closing)))) ∧
      ungrouped.Meets .unmarkedAliases ∧
      ungrouped.compile = .error (.havingWithoutGroup "t") ∧
      (ungrouped.revised (.strings closing)).compile = .error (.havingWithoutGroup "t") := by
  intro t names cond filtered ungrouped closing
  have hreference : t.reference.Spelled Text.Unmarked :=
    ⟨fun name hname => Option.some.inj hname ▸ by decide, nofun⟩
  have hcolumn : (t.column "n").Meets .unmarkedAliases := by
    refine Column.meets_iff.mpr ⟨fun name owner hbase => ?_, trivial⟩
    cases hbase
    exact ⟨by decide, fun r hr => Option.some.inj hr ▸ hreference⟩
  have hnames : names.dateTexts = [] := by
    simp [names, Literal.dateTexts, Literal.dateTextsIn]
  have hcond : cond.Meets .unmarkedAliases :=
    Column.meets_ofBinary_iff.mpr ⟨nofun, hcolumn, hnames⟩
  have hfiltered : filtered.Meets .unmarkedAliases :=
    Query.meets_iff.mpr ⟨hreference, trivial, List.forall_mem_singleton.mpr ⟨nofun, hcond⟩⟩
  have hungrouped : ungrouped.Meets .unmarkedAliases :=
    Query.meets_iff.mpr ⟨hreference, trivial, List.forall_mem_singleton.mpr ⟨nofun, hcond⟩⟩
  have hstatement :
      filtered.compile = .ok "SELECT * FROM t WHERE (t.n IN ('a','it''s'));" := by decide +kernel
  have herror : ungrouped.compile = .error (.havingWithoutGroup "t") := by decide +kernel
  exact ⟨hfiltered, hstatement,
    (Query.compile_revised_strings closing hfiltered).2 _ hstatement, hungrouped, herror,
    (Query.compile_revised_strings closing hungrouped).1 _ herror⟩

end SqlTree
