/-!
# Enclosed text

A text is enclosed when its first character opens a group that its last character closes.
Parentheses between single quotes do not count.
-/

namespace SqlTree.Text

/-- Whether the outermost group closes with the last character, `depth` groups being open inside it
and `quoted` telling whether a string is open. -/
def closesLast (depth : Nat) (quoted : Bool) : List Char → Bool
  | [] => false
  | c :: rest =>
    if c = '\'' then closesLast depth (!quoted) rest
    else if quoted then closesLast depth true rest
    else if c = '(' then closesLast (depth + 1) false rest
    else if c = ')' then
      match depth with
      | 0 => rest.isEmpty
      | depth + 1 => closesLast depth false rest
    else closesLast depth false rest

/-- Whether one pair of parentheses encloses the whole text. -/
def isEnclosed (text : String) : Bool :=
  match text.toList with
  | '(' :: rest => closesLast 0 false rest
  | _ => false

/-- The text in one pair of parentheses. -/
def parenthesized (text : String) : String := "(" ++ text ++ ")"

/-- The text as one group: as it stands if enclosed, else in a pair of its own. -/
def grouped (text : String) : String := if isEnclosed text then text else parenthesized text

/-- The text without the pair that encloses it, if there is one. -/
def ungrouped (text : String) : String :=
  if isEnclosed text then String.ofList (text.toList.drop 1).dropLast else text

end SqlTree.Text
