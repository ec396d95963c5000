import SqlTree.Pattern.Cursor
import SqlTree.Text.Numeric

/-!
# Openings of groups

Behind an opening parenthesis, a question mark introduces a name or flags. Flags that are closed
at once count for the rest of the group around them.
-/

namespace SqlTree.Pattern

/-- Whether a flag is set or unset, if it is mentioned; a hyphen unsets what follows it. -/
def flagState? (flag : Char) (flags : List Char) : Option Bool :=
  if flags.contains flag then some (!(flags.takeWhile (· != flag)).contains '-') else none

/-- The flags, and the hyphen between those that are set and those that are unset. -/
def flagMarks : List Char := ['i', 'm', 's', 'U', 'u', 'R', 'x', '-']

/-- The flags up to a colon or a closing parenthesis, each with its part. -/
def flagsFrom (seen : List (Char × Span)) (place : Place) :
    List Char → Except Fault (List (Char × Span))
  | [] => .error ⟨.unfinishedFlags, ⟨place, place⟩, none⟩
  | c :: rest =>
    if c = ':' || c = ')' then
      match seen.getLast? with
      | some ('-', span) => .error ⟨.danglingNegation, span, none⟩
      | _ => .ok seen
    else
      let span := ⟨place, place.next c⟩
      if !flagMarks.contains c then .error ⟨.unknownFlag, span, none⟩
      else match seen.find? fun f => f.1 == c with
        | some (_, earlier) =>
          .error ⟨if c = '-' then .repeatedNegation else .repeatedFlag, span, some earlier⟩
        | none => flagsFrom (seen ++ [(c, span)]) (place.next c) rest

/-- Whether the name of a group can go on with a character. -/
def isGroupName (c : Char) : Bool :=
  c == '_' || c == '.' || c == '[' || c == ']' || Text.isAlphanumeric c

/-- Whether the name of a group can start with a character. -/
def isGroupNameStart (c : Char) : Bool := c == '_' || Text.isAlphabetic c

/-- The name of a group, with the angle that closes it. -/
def readGroupName : Reader Unit := do
  let start ← here
  let name := (← ahead).takeWhile isGroupName
  if let some c := name.head? then
    if !isGroupNameStart c then fail .badGroupName (← nextSpan c)
  bump name.length
  let span := ⟨start, ← here⟩
  match ← ahead with
  | [] => fail .unfinishedGroupName ⟨span.stop, span.stop⟩
  | '>' :: _ =>
    if name.isEmpty then fail .emptyGroupName span
    match (← get).names.find? fun n => n.1 == name with
    | some (_, earlier) => throw ⟨.repeatedGroupName, span, some earlier⟩
    | none =>
      bump 1
      modify fun c => { c with names := (name, span) :: c.names }
  | c :: _ => fail .badGroupName (← nextSpan c)

/-- What an opening parenthesis begins. -/
inductive Opening where
  /-- Flags for what follows. -/
  | flags (flags : List Char)
  /-- A group with flags of its own. -/
  | group (flags : List Char)

/-- Flags behind the question mark of a parenthesis. -/
def readFlags (opening question : Span) : Reader Opening := do
  let text ← ahead
  if text.isEmpty then fail .unclosedGroup opening
  let flags := (← flagsFrom [] (← here) text).map Prod.fst
  bump (flags.length + 1)
  if text[flags.length]? = some ')' then
    if flags.isEmpty then fail .nothingToRepeat question
    return .flags flags
  else return .group flags

/-- An opening parenthesis, at which the cursor stands, and what belongs to it. -/
def readParenthesis (opening : Span) : Reader Opening := do
  bump 1
  skip
  let look (n : Nat) : Reader Opening := do
    bump n
    fail .lookAround ⟨opening.start, ← here⟩
  match ← ahead with
  | '?' :: '=' :: _ | '?' :: '!' :: _ => look 2
  | '?' :: '<' :: '=' :: _ | '?' :: '<' :: '!' :: _ => look 3
  | '?' :: 'P' :: '<' :: _ =>
    bump 3
    readGroupName
    return .group []
  | '?' :: '<' :: _ =>
    bump 2
    readGroupName
    return .group []
  | '?' :: _ =>
    let question ← nextSpan '?'
    bump 1
    readFlags opening question
  | _ => return .group []

end SqlTree.Pattern
