import SqlTree.Json.Printer
import SqlTree.Text.Style

/-!
# Reports of result rows

The rows of a result are reported as JSON or as a table. A table has the columns of its first row;
a column is as wide, in characters, as the longest of its texts is long in bytes.
-/

namespace SqlTree

/-- How result rows are reported. -/
inductive OutputFormat where
  | table | json
  deriving DecidableEq, Repr

/-- The word for a format. -/
def OutputFormat.name : OutputFormat → String
  | .table => "table"
  | .json => "json"

/-- The format that a word names. -/
def OutputFormat.ofName? (name : String) : Option OutputFormat :=
  if name = "table" then some .table else if name = "json" then some .json else none

namespace Report

/-- The text of a value in a table: null by its keyword, a string as it is. -/
def cellText : Json → String
  | .null => "NULL"
  | .string s => s
  | other => other.compact

/-- The text of a column of a row, which is empty where the row lacks the column. -/
def cell (row : Row) (column : String) : String := ((row.get? column).map cellText).getD ""

/-- The width of a column: the greatest length in bytes of its name and its texts. -/
def width (rows : List Row) (column : String) : Nat :=
  rows.foldl (fun w row => max w (cell row column).utf8ByteSize) column.utf8ByteSize

/-- The text followed by blanks up to a number of characters. -/
def padRight (width : Nat) (text : String) : String :=
  text ++ String.ofList (List.replicate (width - text.length) ' ')

/-- One line of a table: texts at the widths of their columns. -/
def line (columns : List (String × Nat)) (text : String → String) : String :=
  " │ ".intercalate (columns.map fun (column, width) => padRight width (text column))

/-- The line between the header and the rows. -/
def rule (columns : List (String × Nat)) : String :=
  "─┼─".intercalate (columns.map fun (_, width) => String.ofList (List.replicate width '─'))

/-- The columns of a table with their widths. -/
def layout (first : Row) (rows : List Row) : List (String × Nat) :=
  first.columns.map fun column => (column, width rows column)

/-- The lines of a table with a count of its rows. -/
def tableLines (colored : Bool) (first : Row) (rows : List Row) : List String :=
  let columns := layout first rows
  [Text.styled colored .boldWhite (line columns id), Text.styled colored .dimmed (rule columns)] ++
    rows.map (fun row => line columns (cell row)) ++
    ["", Text.styled colored .cyan (toString rows.length) ++ " row(s) returned"]

/-- The lines of a report. -/
def lines (colored : Bool) (format : OutputFormat) (rows : List Row) : List String :=
  match rows, format with
  | [], _ => [Text.styled colored .dimmed "(no results)"]
  | first :: _, .table => tableLines colored first rows
  | _ :: _, .json => [(Json.array (rows.map fun row => .object row.fields)).pretty 0]

/-- Each line with its end. -/
def ofLines (lines : List String) : String := String.join (lines.map (· ++ "\n"))

/-- The report of result rows. -/
def text (colored : Bool) (format : OutputFormat) (rows : List Row) : String :=
  ofLines (lines colored format rows)

end Report

end SqlTree
