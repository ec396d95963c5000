/-!
# Terminal styles

Text is styled by an escape sequence before it and a reset after it. A reset inside the text would
end the style too early, so the style is taken up again behind each.
-/

namespace SqlTree.Text

/-- How text looks on a terminal. -/
inductive Style where
  | dimmed | cyan | white | boldWhite | boldRed | yellow
  deriving DecidableEq, Repr

/-- The attributes of a style, by number. -/
def Style.codes : Style → String
  | .dimmed => "2"
  | .cyan => "36"
  | .white => "37"
  | .boldWhite => "1;37"
  | .boldRed => "1;31"
  | .yellow => "33"

/-- The sequence that starts a style. -/
def Style.start (s : Style) : String := "\x1b[" ++ s.codes ++ "m"

/-- The sequence that ends any style. -/
def styleReset : List Char := ['\x1b', '[', '0', 'm']

/-- The text with a sequence behind each reset. -/
def afterResets (sequence : List Char) : List Char → List Char
  | '\x1b' :: '[' :: '0' :: 'm' :: rest => styleReset ++ sequence ++ afterResets sequence rest
  | [] => []
  | c :: rest => c :: afterResets sequence rest

/-- The text in a style, if styles are shown. -/
def styled (colored : Bool) (s : Style) (text : String) : String :=
  if colored then
    s.start ++ String.ofList (afterResets s.start.toList text.toList) ++ String.ofList styleReset
  else text

end SqlTree.Text
