import SqlTree.Report
import SqlTree.Proofs.Reading.Opening

/-!
# Alignment of tables

The lines of a table are read by places: a column begins behind the columns before it and the
separators between them. A column is made as wide as its longest text is in bytes, which no text
exceeds in characters. Main statement: all lines of a table are of one length, have their separators
at the same places, and show at the place of each column the whole text and blanks behind it.
-/

namespace SqlTree.Report

/-- The text has no line break. -/
def Unbroken (text : String) : Prop := '\n' ∉ text.toList

instance (text : String) : Decidable (Unbroken text) :=
  inferInstanceAs (Decidable ('\n' ∉ text.toList))

/-- The number of characters between two columns. -/
def gapWidth : Nat := 3

/-- Where a column begins if the columns have these widths. -/
def start : List Nat → Nat → Nat
  | width :: rest, i + 1 => width + gapWidth + start rest i
  | _, _ => 0

/-- The length of a line whose columns have these widths. -/
def lineLength : List Nat → Nat
  | [] => 0
  | [width] => width
  | width :: next :: rest => width + gapWidth + lineLength (next :: rest)

/-- What a line has at the place of a column. -/
def cellAt (widths : List Nat) (line : List Char) (i : Nat) : List Char :=
  (line.drop (start widths i)).take (widths.getD i 0)

/-- What a line has between a column and the next one. -/
def gapAt (widths : List Nat) (line : List Char) (i : Nat) : List Char :=
  (line.drop (start widths i + widths.getD i 0)).take gapWidth

/-- The text of a value: none for one that is missing, the keyword for null, a string as it is, and
for any other value its compact text. -/
inductive Shown : Option Json → String → Prop where
  | missing : Shown none ""
  | null : Shown (some .null) "NULL"
  | string (s : String) : Shown (some (.string s)) s
  | other {v : Json} (hnull : v ≠ .null) (hstring : ∀ s, v ≠ .string s) : Shown (some v) v.compact

/-- The cell has the whole text and blanks behind it. -/
def Fills (text : String) (cell : List Char) : Prop :=
  ∃ blanks : Nat, cell = text.toList ++ List.replicate blanks ' '

/-- The line has columns of these widths with the separator between each two, and ends with the last
one. -/
structure IsDivided (widths : List Nat) (separator : String) (line : List Char) : Prop where
  length_eq : line.length = lineLength widths
  gapAt_eq : ∀ i, i + 1 < widths.length → gapAt widths line i = separator.toList

/-- The line shows in each column a text that belongs there, in full and with nothing but blanks
behind it. -/
structure ShowsTexts (columns : List String) (widths : List Nat)
    (belongs : String → String → Prop) (line : List Char) : Prop where
  isDivided : IsDivided widths " │ " line
  fills : ∀ i column, columns[i]? = some column →
    ∃ text, belongs column text ∧ Fills text (cellAt widths line i)

/-- The lines of a table are aligned: they have their columns, of the same widths, at the same
places, and show there the names of the columns and the values of the rows. -/
structure IsAligned (columns : List String) (rows : List Row) (widths : List Nat)
    (header rule : List Char) (lines : List (List Char)) : Prop where
  length_widths : widths.length = columns.length
  header_showsTexts : ShowsTexts columns widths (fun column text => text = column) header
  rule_isDivided : IsDivided widths "─┼─" rule
  rule_dashes : ∀ i < columns.length, ∀ c ∈ cellAt widths rule i, c = '─'
  lines_showTexts : List.Forall₂ (fun row line =>
    ShowsTexts columns widths (fun column text => Shown (row.get? column) text) line) rows lines

section Layout

variable {separator : List Char} (hseparator : separator.length = gapWidth)
include hseparator

/-- Cells with separators between them make a line of the right length. -/
theorem length_intercalate (cells : List (List Char)) :
    (separator.intercalate cells).length = lineLength (cells.map List.length) := by
  induction cells with
  | nil => rfl
  | cons cell rest ih =>
    cases rest with
    | nil => simp [lineLength]
    | cons next rest =>
      rw [List.intercalate_cons_cons, List.length_append, List.length_append, ih, hseparator]
      simp only [List.map_cons, lineLength]

/-- What stands behind the place where a column begins. -/
theorem drop_start_intercalate {cells : List (List Char)} {i : Nat} (hi : i < cells.length) :
    (separator.intercalate cells).drop (start (cells.map List.length) i) =
      separator.intercalate (cells.drop i) := by
  induction cells generalizing i with
  | nil => cases hi
  | cons cell rest ih =>
    cases i with
    | zero => rfl
    | succ i =>
      have hi : i < rest.length := Nat.lt_of_succ_lt_succ hi
      cases rest with
      | nil => cases hi
      | cons next rest =>
        have hfront : (cell ++ separator).length = cell.length + gapWidth := by
          rw [List.length_append, hseparator]
        rw [List.intercalate_cons_cons, List.map_cons, start, ← hfront,
          List.drop_length_add_append, List.drop_succ_cons]
        exact ih hi

/-- A column shows its cell. -/
theorem cellAt_intercalate {cells : List (List Char)} {i : Nat} {cell : List Char}
    (h : cells[i]? = some cell) :
    cellAt (cells.map List.length) (separator.intercalate cells) i = cell := by
  obtain ⟨hi, hcell⟩ := List.getElem?_eq_some_iff.mp h
  have hwidth : (cells.map List.length).getD i 0 = cell.length := by simp [h]
  rw [cellAt, drop_start_intercalate hseparator hi, List.drop_eq_getElem_cons hi, hcell, hwidth]
  cases cells.drop (i + 1) with
  | nil => simp
  | cons next rest => rw [List.intercalate_cons_cons, List.append_assoc, List.take_left' rfl]

/-- Between two columns stands the separator. -/
theorem gapAt_intercalate {cells : List (List Char)} {i : Nat} (hi : i + 1 < cells.length) :
    gapAt (cells.map List.length) (separator.intercalate cells) i = separator := by
  have hi' : i < cells.length := Nat.lt_of_succ_lt hi
  have hwidth : (cells.map List.length).getD i 0 = cells[i].length := by
    simp [List.getElem?_eq_getElem hi']
  rw [gapAt, ← List.drop_drop, drop_start_intercalate hseparator hi',
    List.drop_eq_getElem_cons hi', List.drop_eq_getElem_cons hi, hwidth,
    List.intercalate_cons_cons, List.append_assoc, List.drop_left' rfl,
    List.take_left' hseparator]

end Layout

/-- A text has at most as many characters as bytes. -/
theorem length_le_utf8ByteSize (text : String) : text.length ≤ text.utf8ByteSize := by
  have hlist (l : List Char) : l.length ≤ (String.ofList l).utf8ByteSize := by
    induction l with
    | nil => exact Nat.zero_le _
    | cons c rest ih =>
      have hc := c.utf8Size_pos
      rw [String.ofList_cons, String.utf8ByteSize_append, String.utf8ByteSize_singleton,
        List.length_cons]
      omega
  have htext := hlist text.toList
  rwa [String.length_toList, String.ofList_toList] at htext

/-- A column is at least as wide as its name and as each of its texts, in bytes. -/
theorem le_width (rows : List Row) (column : String) :
    column.utf8ByteSize ≤ width rows column ∧
      ∀ row ∈ rows, (cell row column).utf8ByteSize ≤ width rows column := by
  have hfold (rows : List Row) (least : Nat) :
      least ≤ rows.foldl (fun w row => max w (cell row column).utf8ByteSize) least ∧
        ∀ row ∈ rows, (cell row column).utf8ByteSize ≤
          rows.foldl (fun w row => max w (cell row column).utf8ByteSize) least := by
    induction rows generalizing least with
    | nil => exact ⟨Nat.le_refl _, List.forall_mem_nil _⟩
    | cons row rest ih =>
      have hrest := ih (max least (cell row column).utf8ByteSize)
      rw [List.foldl_cons, List.forall_mem_cons]
      exact ⟨Nat.le_trans (Nat.le_max_left _ _) hrest.1,
        Nat.le_trans (Nat.le_max_right _ _) hrest.1, hrest.2⟩
  exact hfold rows _

/-- A text that is not longer than the width is filled up to it. -/
theorem length_padRight {width : Nat} {text : String} (h : text.length ≤ width) :
    (padRight width text).toList.length = width := by
  rw [padRight, String.toList_append, String.toList_ofList, List.length_append,
    List.length_replicate, String.length_toList]
  omega

theorem fills_padRight (width : Nat) (text : String) : Fills text (padRight width text).toList :=
  ⟨width - text.length, by simp [padRight]⟩

/-- The text of a cell is that of the value that the row has in the column. -/
theorem shown_cell (row : Row) (column : String) : Shown (row.get? column) (cell row column) := by
  unfold cell
  cases row.get? column with
  | none => exact .missing
  | some v =>
    cases v with
    | null => exact .null
    | string s => exact .string s
    | _ => exact .other nofun nofun

/-- The cells of a line that shows a text in each column. -/
def cells (rows : List Row) (columns : List String) (text : String → String) : List (List Char) :=
  columns.map fun column => (padRight (width rows column) (text column)).toList

theorem toList_line_layout (first : Row) (rows : List Row) (text : String → String) :
    (line (layout first rows) text).toList =
      " │ ".toList.intercalate (cells rows first.columns text) := by
  simp [line, layout, cells, Function.comp_def]

theorem toList_rule_layout (first : Row) (rows : List Row) :
    (rule (layout first rows)).toList = "─┼─".toList.intercalate
      (first.columns.map fun column => List.replicate (width rows column) '─') := by
  simp [rule, layout, Function.comp_def]

/-- No text is longer than its column is wide. -/
theorem map_length_cells {rows : List Row} {columns : List String} {text : String → String}
    (h : ∀ column, (text column).utf8ByteSize ≤ width rows column) :
    (cells rows columns text).map List.length = columns.map (width rows) := by
  rw [cells, List.map_map]
  refine List.map_congr_left fun column _ => ?_
  exact length_padRight (Nat.le_trans (length_le_utf8ByteSize _) (h column))

/-- Cells and separators without line breaks make a line without one. -/
theorem notMem_intercalate {c : Char} {separator : List Char} {cells : List (List Char)}
    (hseparator : c ∉ separator) (hcells : ∀ cell ∈ cells, c ∉ cell) :
    c ∉ separator.intercalate cells := by
  induction cells with
  | nil => exact List.not_mem_nil
  | cons cell rest ih =>
    rw [List.forall_mem_cons] at hcells
    cases rest with
    | nil => simpa using hcells.1
    | cons next rest =>
      rw [List.intercalate_cons_cons, List.mem_append, List.mem_append, not_or, not_or]
      exact ⟨⟨hcells.1, hseparator⟩, ih hcells.2⟩

theorem unbroken_padRight {width : Nat} {text : String} (h : Unbroken text) :
    Unbroken (padRight width text) := by
  unfold Unbroken padRight
  rw [String.toList_append, String.toList_ofList, List.mem_append, not_or]
  refine ⟨h, fun hblank => ?_⟩
  exact absurd (List.eq_of_mem_replicate hblank) (by decide)

theorem unbroken_line {first : Row} {rows : List Row} {text : String → String}
    (h : ∀ column ∈ first.columns, Unbroken (text column)) :
    Unbroken (line (layout first rows) text) := by
  unfold Unbroken
  rw [toList_line_layout]
  refine notMem_intercalate (by decide) ?_
  unfold cells
  rw [List.forall_mem_map]
  intro column hcolumn
  exact unbroken_padRight (h column hcolumn)

theorem unbroken_rule (first : Row) (rows : List Row) : Unbroken (rule (layout first rows)) := by
  unfold Unbroken
  rw [toList_rule_layout]
  refine notMem_intercalate (by decide) ?_
  rw [List.forall_mem_map]
  intro column _ hdash
  exact absurd (List.eq_of_mem_replicate hdash) (by decide)

/-- Lines with their ends are read back by splitting at line breaks. -/
theorem splitOn_ofLines {lines : List String} (h : ∀ line ∈ lines, Unbroken line) :
    (ofLines lines).toList.splitOn '\n' = lines.map String.toList ++ [[]] := by
  have htext (lines : List String) :
      (ofLines lines).toList = ['\n'].intercalate (lines.map String.toList ++ [[]]) := by
    induction lines with
    | nil => rfl
    | cons line rest ih =>
      have hline :
          (ofLines (line :: rest)).toList = line.toList ++ '\n' :: (ofLines rest).toList := by
        simp [ofLines]
      rw [hline, ih]
      cases rest <;> simp [List.intercalate_cons_cons]
  rw [htext]
  refine List.splitOn_intercalate _ ?_ (List.append_ne_nil_of_right_ne_nil _ (by simp))
  rw [List.forall_mem_append, List.forall_mem_map]
  exact ⟨h, List.forall_mem_singleton.mpr List.not_mem_nil⟩

/-- What a row shows in a column has no line break if no value of the row has one. -/
theorem unbroken_cell {row : Row} (h : ∀ f ∈ row.fields, Unbroken (cellText f.value))
    (column : String) : Unbroken (cell row column) := by
  unfold cell Row.get?
  cases hfind : row.fields.find? fun f => f.key == column with
  | none => exact List.not_mem_nil
  | some f => exact h f (List.mem_of_find?_eq_some hfind)

theorem unbroken_count (n : Nat) : Unbroken (toString n ++ " row(s) returned") := by
  unfold Unbroken
  rw [String.toList_append, List.mem_append, not_or]
  refine ⟨fun hdigit => ?_, by decide⟩
  exact absurd (Text.isDigit_of_mem_toString n '\n' hdigit) (by decide)

/-- A line shows texts that are not longer than the columns are wide. -/
theorem showsTexts_line (first : Row) {rows : List Row} {text : String → String}
    {belongs : String → String → Prop}
    (hlength : ∀ column, (text column).utf8ByteSize ≤ width rows column)
    (hbelongs : ∀ column, belongs column (text column)) :
    ShowsTexts first.columns (first.columns.map (width rows)) belongs
      (line (layout first rows) text).toList := by
  have hseparator : " │ ".toList.length = gapWidth := by decide
  rw [toList_line_layout, ← map_length_cells hlength]
  refine ⟨⟨length_intercalate hseparator _, fun i hi => ?_⟩, fun i column hcolumn => ?_⟩
  · exact gapAt_intercalate hseparator (by simpa using hi)
  · have hcell : (cells rows first.columns text)[i]? =
        some (padRight (width rows column) (text column)).toList := by simp [cells, hcolumn]
    rw [cellAt_intercalate hseparator hcell]
    exact ⟨text column, hbelongs column, fills_padRight _ _⟩

/-- The line below the header is divided like the others. -/
theorem isDivided_rule (first : Row) (rows : List Row) :
    let widths := first.columns.map (width rows)
    let shown := (rule (layout first rows)).toList
    IsDivided widths "─┼─" shown ∧
      ∀ i < first.columns.length, ∀ c ∈ cellAt widths shown i, c = '─' := by
  intro widths shown
  let dashes : List (List Char) :=
    first.columns.map fun column => List.replicate (width rows column) '─'
  have hwidths : dashes.map List.length = widths := by simp [dashes, widths, Function.comp_def]
  have hshown : shown = "─┼─".toList.intercalate dashes := toList_rule_layout first rows
  have hseparator : "─┼─".toList.length = gapWidth := by decide
  rw [hshown, ← hwidths]
  refine ⟨⟨length_intercalate hseparator _, fun i hi => ?_⟩, fun i hi c hc => ?_⟩
  · exact gapAt_intercalate hseparator (by simpa using hi)
  · have hcell : dashes[i]? = some (List.replicate (width rows first.columns[i]) '─') := by
      simp [dashes, hi]
    rw [cellAt_intercalate hseparator hcell] at hc
    exact List.eq_of_mem_replicate hc

/-- The lines of a table without colors, with the line breaks at their ends, are read back. -/
theorem splitOn_text {first : Row} {rest : List Row}
    (h : ∀ row ∈ first :: rest, ∀ f ∈ row.fields, Unbroken f.key ∧ Unbroken (cellText f.value)) :
    let columns := layout first (first :: rest)
    (text false .table (first :: rest)).toList.splitOn '\n' =
      (line columns id).toList :: (rule columns).toList ::
        ((first :: rest).map fun row => (line columns (cell row)).toList) ++
        [[], (toString (rest.length + 1) ++ " row(s) returned").toList, []] := by
  intro columns
  have hlines : text false .table (first :: rest) =
      ofLines (line columns id :: rule columns ::
        ((first :: rest).map fun row => line columns (cell row)) ++
        ["", toString (rest.length + 1) ++ " row(s) returned"]) := rfl
  have hcolumns : ∀ column ∈ first.columns, Unbroken column := by
    unfold Row.columns
    rw [List.forall_mem_map]
    exact fun f hf => (h first List.mem_cons_self f hf).1
  have hrows : ∀ row ∈ first :: rest, Unbroken (line columns (cell row)) := fun row hrow =>
    unbroken_line fun column _ => unbroken_cell (fun f hf => (h row hrow f hf).2) column
  rw [hlines, splitOn_ofLines]
  · simp
  · simp only [List.forall_mem_append, List.forall_mem_cons, List.forall_mem_map]
    refine ⟨⟨unbroken_line hcolumns, unbroken_rule first _, ?_⟩, ?_⟩
    · exact List.forall_mem_cons.mp hrows
    · exact ⟨List.not_mem_nil, unbroken_count _, List.forall_mem_nil _⟩

/-- Tables are aligned. If no column and no text of the rows has a line break, a table is printed as
a header, a line below it and a line for each row, then a blank line and the number of rows. All
lines of the table have one length and their separators at the same places, and each shows in every
column of the first row the whole text of its value, with blanks only behind it. -/
theorem exists_isAligned_text (first : Row) (rest : List Row)
    (h : ∀ row ∈ first :: rest, ∀ f ∈ row.fields, Unbroken f.key ∧ Unbroken (cellText f.value)) :
    ∃ (widths : List Nat) (header rule : List Char) (lines : List (List Char)),
      (text false .table (first :: rest)).toList.splitOn '\n' =
        header :: rule :: lines ++
          [[], (toString (rest.length + 1) ++ " row(s) returned").toList, []] ∧
      IsAligned first.columns (first :: rest) widths header rule lines := by
  have hwidth := le_width (first :: rest)
  have hrule := isDivided_rule first (first :: rest)
  have hlines : List.Forall₂ (fun row line => ShowsTexts first.columns
      (first.columns.map (width (first :: rest))) (fun column text => Shown (row.get? column) text)
      line) (first :: rest)
      ((first :: rest).map fun row => (line (layout first (first :: rest)) (cell row)).toList) := by
    rw [List.forall₂_map_right_iff, List.forall₂_same]
    intro row hrow
    exact showsTexts_line first (fun column => (hwidth column).2 row hrow) (shown_cell row)
  refine ⟨first.columns.map (width (first :: rest)), _, _, _, splitOn_text h, ?_⟩
  exact {
    length_widths := List.length_map _
    header_showsTexts := showsTexts_line first (fun column => (hwidth column).1) fun _ => rfl
    rule_isDivided := hrule.1
    rule_dashes := hrule.2
    lines_showTexts := hlines }

/-- Two rows with letters of two bytes, of which the second lacks a column and has another. -/
theorem exists_isAligned_text_umlauts :
    let first : Row := ⟨[⟨"größe", .int 3⟩, ⟨"name", .string "Ödön"⟩]⟩
    let second : Row := ⟨[⟨"extra", .bool true⟩, ⟨"name", .null⟩]⟩
    let printed := text false .table [first, second]
    (∀ row ∈ [first, second], ∀ f ∈ row.fields, Unbroken f.key ∧ Unbroken (cellText f.value)) ∧
      printed = "größe   │ name  \n────────┼───────\n3       │ Ödön  \n        │ NULL  \n\n" ++
        "2 row(s) returned\n" ∧
      ∃ (widths : List Nat) (header rule : List Char) (lines : List (List Char)),
        printed.toList.splitOn '\n' =
          header :: rule :: lines ++ [[], (toString 2 ++ " row(s) returned").toList, []] ∧
        IsAligned first.columns [first, second] widths header rule lines := by
  intro first second printed
  have hunbroken : ∀ row ∈ [first, second], ∀ f ∈ row.fields,
      Unbroken f.key ∧ Unbroken (cellText f.value) := by
    simp only [first, second, List.forall_mem_cons]
    decide +kernel
  have hprinted : printed =
      "größe   │ name  \n────────┼───────\n3       │ Ödön  \n        │ NULL  \n\n" ++
        "2 row(s) returned\n" := by decide +kernel
  exact ⟨hunbroken, hprinted, exists_isAligned_text first [second] hunbroken⟩

end SqlTree.Report
