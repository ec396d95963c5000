import SqlTree.Pattern.Span

/-!
# Faults of patterns

A fault names the part of the pattern that it lies in. Its report shows the pattern line by line,
with the part marked below; lines have numbers where there are several.
-/

namespace SqlTree.Pattern

/-- What can be wrong with a part of a pattern. -/
inductive Reason where
  | badClassEscape
  | badClassRange
  | badRangeBound
  | unclosedClass
  | badDecimal
  | badHexNumber
  | badHexDigit
  | unfinishedEscape
  | unknownEscape
  | danglingNegation
  | repeatedFlag
  | repeatedNegation
  | unfinishedFlags
  | unknownFlag
  | repeatedGroupName
  | emptyGroupName
  | badGroupName
  | unfinishedGroupName
  | unclosedGroup
  | unopenedGroup
  | nestedTooDeep
  | missingCount
  | unclosedCount
  | nothingToRepeat
  | unclosedWordEdge
  | unclosedWordEdgeOrCount
  | badProperty
  | backreference
  | lookAround
  | characterNotAllowed
  | partialCharacter
  | unknownProperty
  | unknownShorthand
  | unknownCase
  deriving DecidableEq, Repr

/-- The deepest nesting of a pattern. -/
def nestingLimit : Nat := 250

/-- The text of a reason. -/
def Reason.message : Reason → String
  | .badClassEscape => "invalid escape sequence found in character class"
  | .badClassRange => "invalid character class range, the start must be <= the end"
  | .badRangeBound => "invalid range boundary, must be a literal"
  | .unclosedClass => "unclosed character class"
  | .badDecimal => "decimal literal invalid"
  | .badHexNumber => "hexadecimal literal is not a Unicode scalar value"
  | .badHexDigit => "invalid hexadecimal digit"
  | .unfinishedEscape => "incomplete escape sequence, reached end of pattern prematurely"
  | .unknownEscape => "unrecognized escape sequence"
  | .danglingNegation => "dangling flag negation operator"
  | .repeatedFlag => "duplicate flag"
  | .repeatedNegation => "flag negation operator repeated"
  | .unfinishedFlags => "expected flag but got end of regex"
  | .unknownFlag => "unrecognized flag"
  | .repeatedGroupName => "duplicate capture group name"
  | .emptyGroupName => "empty capture group name"
  | .badGroupName => "invalid capture group character"
  | .unfinishedGroupName => "unclosed capture group name"
  | .unclosedGroup => "unclosed group"
  | .unopenedGroup => "unopened group"
  | .nestedTooDeep =>
    "exceed the maximum number of nested parentheses/brackets (" ++ toString nestingLimit ++ ")"
  | .missingCount => "repetition quantifier expects a valid decimal"
  | .unclosedCount => "unclosed counted repetition"
  | .nothingToRepeat => "repetition operator missing expression"
  | .unclosedWordEdge =>
    "special word boundary assertion is either unclosed or contains an invalid character"
  | .unclosedWordEdgeOrCount =>
    "found either the beginning of a special word boundary or a bounded repetition on a \\b " ++
      "with an opening brace, but no closing brace"
  | .badProperty => "invalid Unicode character class"
  | .backreference => "backreferences are not supported"
  | .lookAround => "look-around, including look-ahead and look-behind, is not supported"
  | .characterNotAllowed => "Unicode not allowed here"
  | .partialCharacter => "pattern can match invalid UTF-8"
  | .unknownProperty => "Unicode property not found"
  | .unknownShorthand =>
    "Unicode-aware Perl class not found (make sure the unicode-perl feature is enabled)"
  | .unknownCase =>
    "Unicode-aware case insensitivity matching is not available (make sure the unicode-case " ++
      "feature is enabled)"

/-- A fault of a part of a pattern. What is repeated is marked where it first stands, too. -/
structure Fault where
  reason : Reason
  span : Span
  earlier : Option Span
  deriving DecidableEq, Repr

/-- The parts that a report marks, in order. -/
def Fault.spans (f : Fault) : List Span := f.earlier.toList ++ [f.span]

/-- The lines of a pattern. The last one may be empty. -/
def linesOf (pattern : List Char) : List (List Char) := pattern.splitOn '\n'

/-- A line as a report shows it: a return before the end of the line is left out. -/
def shownLine (line : List Char) : List Char :=
  if line.getLast? = some '\r' then line.dropLast else line

/-- The marks below a line: up to the column of each part, then as wide as the part. -/
def marks (spans : List Span) : List Char :=
  spans.foldl
    (fun line s => line.rightpad (s.start.column - 1) ' ' ++ List.replicate s.width '^') []

/-- A line of a report and, if a part of it is marked, the marks below. -/
def reportLine (spans : List Span) (margin : Nat) (label : String) (number : Nat)
    (line : List Char) : String :=
  let here := spans.filter fun s => s.isOnOneLine && s.start.line == number
  let below := String.ofList (List.replicate margin ' ' ++ marks here) ++ "\n"
  label ++ String.ofList line ++ "\n" ++ if here.isEmpty then "" else below

/-- The note on a part that goes over several lines. -/
def multilineNote (s : Span) : String :=
  "on line " ++ toString s.start.line ++ " (column " ++ toString s.start.column ++
    ") through line " ++ toString s.stop.line ++ " (column " ++ toString (s.stop.column - 1) ++ ")"

/-- The lines of a pattern of several lines, with their numbers. -/
def numberedLines (spans : List Span) (lines : List (List Char)) : String :=
  let width := (toString lines.length).length
  let ended := lines.dropLast.map shownLine
  let shown := match lines.getLast? with
    | none => ended
    | some last => if last.isEmpty then ended else ended ++ [last]
  String.join <| shown.zipIdx.map fun (line, i) =>
    let number := String.ofList ((toString (i + 1)).toList.leftpad width ' ')
    reportLine spans (width + 2) (number ++ ": ") (i + 1) line

/-- The report of a fault in a pattern. -/
def Fault.report (pattern : List Char) (f : Fault) : String :=
  let error := "error: " ++ f.reason.message
  match linesOf pattern with
  | [line] => "regex parse error:\n" ++ reportLine f.spans 4 "    " 1 line ++ error
  | lines =>
    let divider := String.ofList (List.replicate 79 '~') ++ "\n"
    let notes := (f.spans.filter fun s => !s.isOnOneLine).map multilineNote
    let note := if notes.isEmpty then "" else "\n".intercalate notes ++ "\n"
    "regex parse error:\n" ++ divider ++ numberedLines f.spans lines ++ divider ++ note ++ error

end SqlTree.Pattern
