import SqlTree.Proofs.Faults.IllFormed
import SqlTree.Proofs.Writing.Width

/-!
# Conversions make statements shorter

The membership test that takes the place of an existence test does without the filter that
correlates the two queries, so it is written with fewer blanks. Main statements: if a query can be
written, a conversion of it can be written too, and its statement is strictly narrower; so a query
with two qualifying existence tests is compiled to other SQL once one of them is converted for good.
-/

namespace SqlTree

/-- The width of an infix operator is that of its operands and of its symbol between two blanks. -/
theorem Column.blanks_sql_infix (op : BinaryOp) (left right : Operand)
    (hfunction : op.isFunction = false) (hbetween : op ≠ .between)
    (hsymbol : Text.blanks op.symbol = 0) :
    Text.blanks ((Column.ofBinary op left right).sql 0) =
      Text.blanks (left.sql 0) + 2 + Text.blanks (right.sql 0) := by
  have hnumber := Operand.renumbered_sql Text.SameBlanks.renumbering right (0 + left.nameCount) 0
  have hblank : Text.blanks " " = 1 := by decide
  have hbody : (Base.binary op left right).body 0 =
      left.sql 0 ++ " " ++ op.symbol ++ " " ++ right.sql (0 + left.nameCount) := by
    cases op <;> first | rfl | contradiction
  simp only [ofBinary, sql, around, Base.isInfix, hfunction, Bool.not_false, if_true,
    List.foldl_nil, NullTest.applied, Text.blanks_parenthesized, hbody, Text.blanks_append, hblank,
    hsymbol]
  rw [hnumber]

namespace Entry

theorem widthsOf_append (kind : EntryKind) (a b : List Entry) :
    widthsOf kind (a ++ b) = widthsOf kind a ++ widthsOf kind b := by
  simp [widthsOf, ofKind]

/-- Without its projections a log has the same entries of any other kind. -/
theorem ofKind_filter_ne_select {kind : EntryKind} (h : kind ≠ .select) (log : List Entry) :
    ofKind kind (log.filter fun entry => entry.kind != .select) = ofKind kind log := by
  unfold ofKind
  rw [List.filter_filter]
  refine List.filter_congr fun entry _ => ?_
  by_cases he : entry.kind = kind <;> simp [he, h]

/-- An entry contributes to the clause of its kind alone. -/
theorem widthsOf_singleton (kind : EntryKind) (entry : Entry) :
    widthsOf kind [entry] = if entry.kind = kind then entry.widths else [] := by
  by_cases h : entry.kind = kind <;> simp [widthsOf, ofKind, h]

theorem widthsOf_append_cons (kind : EntryKind) (before after : List Entry) (entry : Entry) :
    widthsOf kind (before ++ entry :: after) = widthsOf kind before ++
      ((if entry.kind = kind then entry.widths else []) ++ widthsOf kind after) := by
  rw [← List.singleton_append, widthsOf_append, widthsOf_append, widthsOf_singleton]

/-- A condition over rows adds its own width to the conditions. -/
theorem conditionWidth_append_cons {entry : Entry}
    (hentry : entry.kind = .whereExists ∨ entry.kind = .filter) (before after : List Entry) :
    conditionWidth (before ++ entry :: after) =
      conditionWidth (before ++ after) + Statement.joinedWidth entry.widths := by
  rw [conditionWidth, conditionWidth, widthsOf_append_cons, widthsOf_append_cons, widthsOf_append,
    widthsOf_append]
  simp only [Statement.joinedWidth_append]
  rcases hentry with h | h <;>
    simp only [h, if_true, reduceCtorEq, if_false, Statement.joinedWidth_nil] <;> omega

theorem widths_filter (cond : Column) :
    (Entry.filter cond).widths = [Text.blanks (cond.sql 0) + 1] := by
  have htokens : (Entry.filter cond).widths =
      [Statement.width [Text.grouped (cond.sql 0)]] := rfl
  rw [htokens, Statement.width_cons, Text.blanks_grouped, Statement.width_nil]

theorem widths_select_singleton (c : Column) :
    (Entry.select [⟨.column c, none⟩]).widths = [Text.blanks (c.sql 0) + 1] := rfl

/-- An existence test is as wide as the statement of its subquery, with one more word. -/
theorem widths_whereExists {sub : Query} (h : sub.source.isCombined = false) :
    (Entry.whereExists sub).widths = [Statement.width (sub.tokens 0) + 1] := by
  have htokens : (Entry.whereExists sub).widths = [Statement.width
      [Text.parenthesized ("EXISTS " ++ Statement.nested (sub.tokens 0))]] := rfl
  have hword : Text.blanks "EXISTS " = 1 := by decide
  have htext := Statement.blanks_text (Query.tokens_ne_nil h 0)
  rw [htokens, Statement.width_cons, Text.blanks_parenthesized, Text.blanks_append, hword,
    Statement.nested, Text.blanks_parenthesized, Statement.width_nil]
  congr 1
  omega

/-- A filter that equates two columns is as wide as the two together, with a symbol between. -/
theorem Correlates.widths_eq {outer inner : Reference} {entry : Entry}
    {outerColumn innerColumn : Column}
    (h : entry.Correlates outer inner outerColumn innerColumn) :
    entry.widths =
      [Text.blanks (outerColumn.sql 0) + Text.blanks (innerColumn.sql 0) + 3] := by
  have hequal (left right : Column) :=
    Column.blanks_sql_infix .eq (.column left) (.column right) rfl (by decide) (by decide)
  simp only [Operand.sql] at hequal
  rcases h.eq_filter with rfl | rfl <;> rw [widths_filter, hequal] <;> congr 1 <;> omega

end Entry

namespace Query

theorem withLog_eq_self {q : Query} {log : List Entry} (h : q.log = log) :
    { q with log := log } = q := by
  subst h
  cases q
  rfl

/-- Queries over the same source have the same frame if their logs agree on everything but
projections and conditions over rows. -/
theorem frameWidth_congr {q : Query} {log log' : List Entry}
    (h : ∀ kind ∈ [EntryKind.join, .group, .having, .order],
      Entry.widthsOf kind log = Entry.widthsOf kind log') :
    frameWidth { q with log := log } = frameWidth { q with log := log' } := by
  simp only [frameWidth, h .join (by decide), h .group (by decide), h .having (by decide),
    h .order (by decide)]

/-- A condition over rows adds its own width to a statement, wherever in the log it stands. -/
theorem width_tokens_append_cons {q : Query} (hsource : q.source.isCombined = false)
    (entry : Entry) (hentry : entry.kind = .whereExists ∨ entry.kind = .filter)
    (before after : List Entry) :
    Statement.width (tokens 0 { q with log := before ++ entry :: after }) =
      Statement.width (tokens 0 { q with log := before ++ after }) +
        Statement.joinedWidth entry.widths := by
  have hother (kind : EntryKind) (hne : kind ≠ .whereExists ∧ kind ≠ .filter) :
      Entry.widthsOf kind (before ++ entry :: after) = Entry.widthsOf kind (before ++ after) := by
    have hkind : entry.kind ≠ kind := fun he =>
      hentry.elim (fun h => hne.1 (he.symm.trans h)) fun h => hne.2 (he.symm.trans h)
    rw [Entry.widthsOf_append_cons, if_neg hkind, List.nil_append, Entry.widthsOf_append]
  have hconditions := Entry.conditionWidth_append_cons hentry before after
  have hframe : frameWidth { q with log := before ++ entry :: after } =
      frameWidth { q with log := before ++ after } := by
    refine frameWidth_congr fun kind hmem => hother kind ?_
    revert kind
    decide
  have hitems : Entry.projectionWidth (before ++ entry :: after) =
      Entry.projectionWidth (before ++ after) := by
    rw [Entry.projectionWidth, Entry.projectionWidth, hother _ (by decide)]
  have hwith := width_tokens (q := { q with log := before ++ entry :: after }) hsource 0
  have hwithout := width_tokens (q := { q with log := before ++ after }) hsource 0
  simp only [hframe, hitems, hconditions] at hwith hwithout
  omega

/-- A projection to one column takes the place of all projections. -/
theorem width_tokens_yielding {q : Query} (hsource : q.source.isCombined = false)
    (log : List Entry) (c : Column) :
    Statement.width ((q.yielding log c).tokens 0) + Entry.projectionWidth log =
      Statement.width (tokens 0 { q with log := log }) + (Text.blanks (c.sql 0) + 2) := by
  have hother (kind : EntryKind) (hne : kind ≠ .select) :
      Entry.widthsOf kind (q.yielding log c).log = Entry.widthsOf kind log := by
    rw [yielding, Entry.widthsOf_append, Entry.widthsOf_singleton, Entry.kind, if_neg hne.symm,
      List.append_nil, Entry.widthsOf, Entry.ofKind_filter_ne_select hne, Entry.widthsOf]
  have hitems : Entry.projectionWidth (q.yielding log c).log = Text.blanks (c.sql 0) + 2 := by
    have hnone : Entry.ofKind .select (log.filter fun entry => entry.kind != .select) = [] := by
      refine List.filter_eq_nil_iff.mpr fun entry hentry => ?_
      simpa using (List.mem_filter.mp hentry).2
    have hwidths : Entry.widthsOf .select (q.yielding log c).log =
        [Text.blanks (c.sql 0) + 1] := by
      rw [yielding, Entry.widthsOf_append, Entry.widthsOf_singleton, Entry.kind, if_pos rfl,
        Entry.widths_select_singleton, Entry.widthsOf, hnone, List.flatMap_nil, List.nil_append]
    rw [Entry.projectionWidth, hwidths]
    rfl
  have hyielding : (q.yielding log c).source.isCombined = false := hsource
  have hframe : (q.yielding log c).frameWidth = frameWidth { q with log := log } := by
    refine frameWidth_congr fun kind hmem => hother kind ?_
    revert kind
    decide
  have hconditions : Entry.conditionWidth (q.yielding log c).log = Entry.conditionWidth log := by
    rw [Entry.conditionWidth, hother _ (by decide), hother _ (by decide), Entry.conditionWidth]
  have hplain := width_tokens (q := { q with log := log }) hsource 0
  dsimp only at hplain
  rw [width_tokens hyielding, hframe, hitems, hconditions, hplain]
  omega

/-- The subquery is narrower without the filter that correlates it, whatever it projected to. -/
theorem width_yielding_lt {outer : Reference} {sub : Query} {cond : Column}
    {before after : List Entry} {entry : Entry} {outerColumn innerColumn : Column}
    (hsource : sub.source.isCombined = false)
    (h : Entry.Replaced outer sub cond before after entry outerColumn innerColumn) :
    Statement.width ((sub.yielding (before ++ after) innerColumn).tokens 0) +
      Text.blanks (outerColumn.sql 0) + 2 < Statement.width (sub.tokens 0) := by
  have hfilter := width_tokens_append_cons hsource entry (Or.inr h.correlates.kind_eq) before
    after
  have hyielding := width_tokens_yielding hsource (before ++ after) innerColumn
  have hpos := Entry.projectionWidth_pos (before ++ after)
  rw [withLog_eq_self h.log_eq, h.correlates.widths_eq, Statement.joinedWidth_singleton] at hfilter
  omega

/-- The membership test is narrower than the existence test that it takes the place of. -/
theorem joinedWidth_membership?_lt {outer : Reference} {sub : Query} {cond : Column}
    (hsource : sub.source.isCombined = false)
    (h : (Entry.whereExists sub).membership? outer = some cond) :
    Statement.joinedWidth (Entry.filter cond).widths <
      Statement.joinedWidth (Entry.whereExists sub).widths := by
  obtain ⟨_, before, after, entry, outerColumn, innerColumn, hreplaced⟩ :=
    Entry.replaced_of_membership? h
  have hnested : (sub.yielding (before ++ after) innerColumn).source.isCombined = false := hsource
  have htext := Statement.blanks_text (tokens_ne_nil hnested 0)
  have hlt := width_yielding_lt hsource hreplaced
  have hin := Column.blanks_sql_infix .isIn (.column outerColumn)
    (.query (sub.yielding (before ++ after) innerColumn)) rfl (by decide) (by decide)
  simp only [Operand.sql, Statement.nested, Text.blanks_parenthesized] at hin
  rw [Entry.widths_filter, Entry.widths_whereExists hsource, hreplaced.cond_eq, Column.combine,
    hin, Statement.joinedWidth_singleton, Statement.joinedWidth_singleton]
  omega

/-- A subquery with filters that can be written is no set operation. -/
theorem isCombined_eq_false_of_qualifies {outer : Reference} {sub : Query}
    (hcheck : sub.check = .ok ()) (h : sub.Qualifies outer) : sub.source.isCombined = false := by
  obtain ⟨entry, hentry, hselective⟩ := h.selective
  by_contra hne
  refine ownFault?_eq_none_iff.mp (check_eq_ok_iff.mp hcheck).1 (Or.inr ?_)
  refine ⟨eq_true_of_ne_false hne, entry, hentry, ?_⟩
  rw [hselective.kind_eq]
  decide

/-- A query that can be written can be written without its projections, unless it is a set
operation. -/
theorem check_withoutSelects {sub : Query} (hsource : sub.source.isCombined = false)
    (h : sub.check = .ok ()) : sub.withoutSelects.check = .ok () := by
  rw [check_eq_ok_iff, ownFault?_eq_none_iff] at h ⊢
  constructor
  · have hkinds (kind : EntryKind) (hne : kind ≠ .select) :
        (∃ entry ∈ sub.withoutSelects.log, entry.kind = kind) ↔
          ∃ entry ∈ sub.log, entry.kind = kind := by
      constructor
      · rintro ⟨entry, hentry, hkind⟩
        exact ⟨entry, (List.mem_filter.mp hentry).1, hkind⟩
      · rintro ⟨entry, hentry, hkind⟩
        exact ⟨entry, List.mem_filter.mpr ⟨hentry, by simpa [hkind] using hne⟩, hkind⟩
    refine fun hill => h.1 ((illFormed_congr (fun kind hmem => ?_) fun hcombined => ?_).mp hill)
    · refine hkinds kind ?_
      revert kind
      decide
    · rw [hsource] at hcombined
      cases hcombined
  · intro part hpart
    refine h.2 part ?_
    simp only [writtenQueries, withoutSelects, List.mem_append, List.mem_flatMap,
      List.mem_filter] at hpart ⊢
    refine hpart.imp id ?_
    rintro ⟨entry, ⟨hentry, _⟩, hwritten⟩
    exact ⟨entry, hentry, hwritten⟩

/-- The subquery that is converted is written. -/
theorem mem_writtenQueries_of_whereExists_mem {q sub : Query} (h : .whereExists sub ∈ q.log) :
    sub ∈ q.writtenQueries :=
  List.mem_append_right _ (List.mem_flatMap.mpr ⟨_, h, List.mem_singleton_self sub⟩)

/-- A subquery that can be written can be written in the form it has in a membership test. -/
theorem check_yielding_of_check {outer : Reference} {sub : Query} {cond : Column}
    {before after : List Entry} {entry : Entry} {outerColumn innerColumn : Column}
    (hsub : sub.Qualifies outer)
    (h : Entry.Replaced outer sub cond before after entry outerColumn innerColumn)
    (hcheck : sub.check = .ok ()) : (sub.yielding (before ++ after) innerColumn).check = .ok () :=
  (check_yielding_eq_ok_iff h).mpr
    (check_withoutSelects (isCombined_eq_false_of_qualifies hcheck hsub) hcheck)

/-- An existence test may be exchanged for a filter over what can be written. -/
theorem check_exchanged {q sub : Query} {before after : List Entry} {cond : Column}
    (hsource : q.source.isCombined = false) (hlog : q.log = before ++ .whereExists sub :: after)
    (hcond : ∀ part ∈ (Entry.filter cond).writtenQueries, part.check = .ok ())
    (hcheck : q.check = .ok ()) :
    check { q with log := before ++ after ++ [.filter cond] } = .ok () := by
  rw [check_eq_ok_iff, ownFault?_eq_none_iff] at hcheck ⊢
  obtain ⟨hown, hwritten⟩ := hcheck
  constructor
  · refine fun hill => hown ((illFormed_congr (q := q) ?_ fun hcombined => ?_).mp hill)
    · have hfilter : (Entry.filter cond).kind = .filter := rfl
      have hexists : (Entry.whereExists sub).kind = .whereExists := rfl
      simp [hlog, hfilter, hexists, or_and_right, exists_or]
    · rw [hsource] at hcombined
      cases hcombined
  · simp only [writtenQueries, hlog, List.flatMap_append, List.flatMap_cons,
      List.forall_mem_append, List.flatMap_nil, List.append_nil] at hwritten ⊢
    exact ⟨hwritten.1, ⟨hwritten.2.1, hwritten.2.2.2⟩, hcond⟩

/-- A conversion leaves a query that can be written. -/
theorem check_of_membership? {q q' : Query} (hcheck : q.check = .ok ())
    (h : q.membership? = some q') : q'.check = .ok () := by
  obtain ⟨before, sub, after, cond, hconverted, hlog, hcond, rfl⟩ := converted?_of_membership? h
  obtain ⟨hsource, _⟩ := converted?_eq_some_iff.mp hconverted
  obtain ⟨hqualifies, front, rest, entry, outerColumn, innerColumn, hreplaced⟩ :=
    Entry.replaced_of_membership? hcond
  obtain ⟨name, _, houter⟩ := hreplaced.correlates.outerColumn_drawnFrom
  have hsub : sub.check = .ok () :=
    (check_eq_ok_iff.mp hcheck).2 sub (mem_writtenQueries_of_whereExists_mem (hlog ▸ by simp))
  have hfilter : (Entry.filter cond).writtenQueries =
      [sub.yielding (front ++ rest) innerColumn] := by
    rw [hreplaced.cond_eq, houter]
    rfl
  refine check_exchanged hsource hlog ?_ hcheck
  rw [hfilter, List.forall_mem_singleton]
  exact check_yielding_of_check hqualifies hreplaced hsub

/-- A conversion makes the statement of a query that can be written narrower. -/
theorem width_lt_of_membership? {q q' : Query} (hcheck : q.check = .ok ())
    (h : q.membership? = some q') :
    Statement.width (q'.tokens 0) < Statement.width (q.tokens 0) := by
  obtain ⟨before, sub, after, cond, hconverted, hlog, hcond, rfl⟩ := converted?_of_membership? h
  obtain ⟨hsource, _⟩ := converted?_eq_some_iff.mp hconverted
  have hwritten : sub ∈ q.writtenQueries :=
    mem_writtenQueries_of_whereExists_mem (hlog ▸ by simp)
  have hsub := isCombined_eq_false_of_qualifies ((check_eq_ok_iff.mp hcheck).2 sub hwritten)
    (Entry.replaced_of_membership? hcond).1
  have hlt := joinedWidth_membership?_lt hsub hcond
  have hexists := width_tokens_append_cons hsource (.whereExists sub) (Or.inl rfl) before after
  have hfilter := width_tokens_append_cons hsource (.filter cond) (Or.inr rfl) (before ++ after) []
  rw [withLog_eq_self hlog] at hexists
  rw [List.append_nil] at hfilter
  omega

/-- The text of the statement has fewer blanks, too. -/
theorem blanks_text_lt_of_membership? {q q' : Query} (hcheck : q.check = .ok ())
    (h : q.membership? = some q') :
    Text.blanks (Statement.text (q'.tokens 0)) < Text.blanks (Statement.text (q.tokens 0)) := by
  have hwidth := width_lt_of_membership? hcheck h
  have hsources : q.source.isCombined = false ∧ q'.source.isCombined = false := by
    obtain ⟨hsource, _, _, _, _, rfl, _⟩ := trimmed_of_membership? h
    exact ⟨hsource, hsource⟩
  have htext := Statement.blanks_text (tokens_ne_nil hsources.1 0)
  have htext' := Statement.blanks_text (tokens_ne_nil hsources.2 0)
  omega

/-- A query is compiled by a conversion, whether or not its projections are explicit. -/
theorem compile_eq_write (q : Query) : q.compile = (q.membership?.getD q).write :=
  write_membership?_projected q

/-- A query that was converted for good is compiled to the same SQL, if nothing is left to
convert. -/
theorem compile_eq_of_membership?_eq_none {q q' : Query} (h : q.membership? = some q')
    (hlast : q'.membership? = none) : q'.compile = q.compile := by
  rw [compile_eq_write, compile_eq_write, h, hlast, Option.getD_none, Option.getD_some]

/-- A query that was converted for good is compiled to other SQL, if something is left to
convert: a second existence test is written as a membership test. -/
theorem exists_compile_of_membership? {q q' q'' : Query} {sql : String}
    (h : q.membership? = some q') (hnext : q'.membership? = some q'') (hsql : q.compile = .ok sql) :
    ∃ text, q'.compile = .ok text ∧ Text.blanks text < Text.blanks sql := by
  rw [compile_eq_write, h, Option.getD_some, write_eq_ok_iff] at hsql
  obtain ⟨hcheck, rfl⟩ := hsql
  have hlt := blanks_text_lt_of_membership? hcheck hnext
  refine ⟨Statement.text (q''.tokens 0) ++ ";", ?_, ?_⟩
  · rw [compile_eq_write, hnext, Option.getD_some]
    exact write_eq_ok_iff.mpr ⟨check_of_membership? hcheck hnext, rfl⟩
  · rw [Text.blanks_append, Text.blanks_append]
    omega

end Query

end SqlTree
