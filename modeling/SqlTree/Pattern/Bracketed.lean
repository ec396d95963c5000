import SqlTree.Pattern.Escape

/-!
# Classes in brackets

A class lists characters, ranges, shorthands and further classes. Two lists with an operation
between them count as one, and operations are taken from left to right.
-/

namespace SqlTree.Pattern

/-- The members of a class so far, the last one first, and the part that they take. -/
structure Members where
  items : List Node
  span : Span

/-- No members yet. -/
def Members.none (place : Place) : Members := ⟨[], place, place⟩

/-- One member more. -/
def Members.push (m : Members) (item : Node) : Members :=
  let start := if m.items.isEmpty then item.span.start else m.span.start
  ⟨item :: m.items, start, item.span.stop⟩

/-- The members as one pattern. -/
def Members.node (m : Members) : Node := Node.join .union m.span m.items.reverse

/-- A class that is not closed yet. -/
structure OpenClass where
  /-- The bracket and what belongs to it. -/
  opening : Span
  negated : Bool
  /-- What stands in front of the last operation. -/
  left : Option Node
  /-- The members of the class around it. -/
  outer : Members

/-- What a class lists, from the first operation to the last one. -/
def OpenClass.content (o : OpenClass) (m : Members) : Node :=
  match o.left with
  | none => m.node
  | some left => .branch .operation [left, m.node] ⟨left.span.start, m.node.span.stop⟩

/-- The names of the classes of ASCII characters. -/
def classNames : List String :=
  ["alnum", "alpha", "ascii", "blank", "cntrl", "digit", "graph", "lower", "print", "punct",
    "space", "upper", "word", "xdigit"]

/-- A class with a name: whether it is negated, and how many characters it takes. -/
def namedClass? : List Char → Option (Bool × Nat)
  | '[' :: ':' :: text =>
    let negated := text.head? = some '^'
    let name := (if negated then text.drop 1 else text).takeWhile (· != ':')
    let length := 2 + (if negated then 1 else 0) + name.length
    let isClosed := (text.drop (length - 2)).take 2 = [':', ']']
    if isClosed && classNames.contains (String.ofList name) then some (negated, length + 2)
    else none
  | _ => none

/-- The bracket that opens a class, with hyphens or else a closing bracket that stand for
themselves. -/
def readOpening (outer : Members) : Reader (OpenClass × Members) := do
  let start ← here
  let unclosed : Reader Unit := do
    if (← ahead).isEmpty then fail .unclosedClass ⟨start, ← here⟩
  forward
  unclosed
  let negated := (← ahead).head? = some '^'
  if negated then
    forward
    unclosed
  let empty := Members.none (← here)
  let hyphens ← takeWhile (· == '-')
  if (← ahead).isEmpty then fail .unclosedClass ⟨start, start⟩
  let literals := hyphens.map fun (c, span) => Node.leaf (.literal ⟨c, false, span⟩) span
  let members := literals.foldl Members.push empty
  if hyphens.isEmpty && (← ahead).head? = some ']' then
    let span ← take ']'
    unclosed
    return (⟨⟨start, ← here⟩, negated, none, outer⟩,
      members.push (.leaf (.literal ⟨']', false, span⟩) span))
  else return (⟨⟨start, ← here⟩, negated, none, outer⟩, members)

/-- A character or an escape in a class. -/
def readItem : Reader (Leaf × Span) := do
  match ← ahead with
  | '\\' :: _ => readEscape
  | c :: _ =>
    let span ← nextSpan c
    bump 1
    return (.literal ⟨c, false, span⟩, span)
  | [] => return (.nothing, ⟨← here, ← here⟩)

/-- The character behind the next one. In an extended pattern, blanks and the mark of a comment
between them do not count. -/
def Cursor.second? (c : Cursor) : Option Char :=
  let behind := c.rest.drop 1
  let shown := Text.trimStart behind
  let shown := match shown with
    | '#' :: more => Text.trimStart more
    | _ => shown
  if c.extended && !shown.isEmpty then shown.head? else behind.head?

/-- The bound of a range has to be a literal. -/
def rangeBound : Leaf × Span → Reader Literal
  | (.literal l, _) => return l
  | (_, span) => fail .badRangeBound span

/-- A member of a class or a range of characters. -/
def readMember (opening : Span) : Reader Node := do
  let first ← readItem
  skip
  match ← ahead with
  | [] => fail .unclosedClass opening
  | c :: _ =>
    let second := (← get).second?
    if c != '-' || second = some ']' || second = some '-' then
      match first with
      | (.literal l, span) => return .leaf (.literal l) span
      | (.shorthand negated, span) => return .leaf (.shorthand negated) span
      | (.property, span) => return .leaf .property span
      | (_, span) => fail .badClassEscape span
    else
      forward
      if (← ahead).isEmpty then fail .unclosedClass opening
      let last ← readItem
      let span := ⟨first.2.start, last.2.stop⟩
      let first ← rangeBound first
      let last ← rangeBound last
      if last.char < first.char then fail .badClassRange span
      return .leaf (.range first last) span

/-- The rest of a class that stands in other classes; each step reads a member or a mark. -/
def readClassFrom : Nat → OpenClass → List OpenClass → Members → Reader Node
  | 0, o, _, _ => fail .unclosedClass o.opening
  | fuel + 1, o, around, members => do
    skip
    match ← ahead with
    | [] => fail .unclosedClass o.opening
    | '&' :: '&' :: _ | '-' :: '-' :: _ | '~' :: '~' :: _ =>
      bump 2
      readClassFrom fuel { o with left := o.content members } around (.none (← here))
    | ']' :: _ =>
      bump 1
      let span := ⟨o.opening.start, ← here⟩
      let closed := .branch (.bracketed o.negated) [o.content members] span
      match around with
      | [] => return closed
      | p :: around => readClassFrom fuel p around (o.outer.push closed)
    | '[' :: _ =>
      match namedClass? (← ahead) with
      | some (negated, length) =>
        let start ← here
        bump length
        let item := Node.leaf (.named negated) ⟨start, ← here⟩
        readClassFrom fuel o around (members.push item)
      | none =>
        let (inner, first) ← readOpening members
        readClassFrom fuel inner (o :: around) first
    | _ => readClassFrom fuel o around (members.push (← readMember o.opening))

/-- A class in brackets, at its bracket. -/
def readClass : Reader Node := do
  let fuel := (← ahead).length
  let (o, members) ← readOpening (.none (← here))
  readClassFrom fuel o [] members

end SqlTree.Pattern
