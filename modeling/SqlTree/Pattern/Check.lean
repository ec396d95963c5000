import SqlTree.Pattern.Reader

/-!
# Patterns that can be matched

A pattern matches whole characters and knows no tables of them: no shorthands, no properties and
no letters that differ in case. Where flags make it match bytes instead, it knows those of ASCII,
and nothing may match a part of a character. Main definition: `check`.
-/

namespace SqlTree.Pattern

/-- How a part of a pattern is matched. -/
structure Mode where
  /-- Whether characters are matched, and not bytes. -/
  unicode : Bool
  /-- Whether letters match in either case. -/
  caseless : Bool
  deriving DecidableEq, Repr

/-- The mode without flags. -/
def Mode.initial : Mode := ⟨true, false⟩

/-- The mode that flags change another one to. -/
def Mode.set (m : Mode) (flags : List Char) : Mode :=
  ⟨(flagState? 'u' flags).getD m.unicode, (flagState? 'i' flags).getD m.caseless⟩

/-- Whether letters of all alphabets would have to match in either case. -/
def Mode.needsCase (m : Mode) : Bool := m.unicode && m.caseless

mutual

/-- The leaves and classes of a pattern, each in its mode, and the mode behind the pattern. Flags
count up to the end of their group. -/
def Node.units (mode : Mode) : Node → List (Mode × Node) × Mode
  | .leaf symbol span =>
    match symbol with
    | .flags flags => ([], mode.set flags)
    | _ => ([(mode, .leaf symbol span)], mode)
  | .branch form parts span =>
    match form with
    | .bracketed _ => ([(mode, .branch form parts span)], mode)
    | .group flags => ((unitsIn (mode.set flags) parts).1, mode)
    | _ => unitsIn mode parts

/-- The leaves and classes of patterns in a row. -/
def unitsIn (mode : Mode) : List Node → List (Mode × Node) × Mode
  | [] => ([], mode)
  | part :: parts =>
    let (units, mode) := part.units mode
    let (more, mode) := unitsIn mode parts
    (units ++ more, mode)

end

/-- A part that cannot be matched. -/
def refuse {α : Type} (reason : Reason) (span : Span) : Except Fault α :=
  .error ⟨reason, span, none⟩

/-- Whether a leaf outside of classes can be matched. -/
def Leaf.check (mode : Mode) (span : Span) : Leaf → Except Fault Unit
  | .literal l =>
    if mode.needsCase then refuse .unknownCase l.span
    else if !mode.unicode && l.isByte && 128 ≤ l.char.toNat then refuse .partialCharacter l.span
    else .ok ()
  | .anyCharacter => if mode.unicode then .ok () else refuse .partialCharacter span
  | .shorthand negated =>
    if mode.unicode then refuse .unknownShorthand span
    else if negated then refuse .partialCharacter span
    else .ok ()
  | .property => refuse (if mode.unicode then .unknownProperty else .characterNotAllowed) span
  | _ => .ok ()

/-- Whether a literal in a class can be matched: as a byte it has to be one of ASCII. -/
def Literal.checkMember (mode : Mode) (l : Literal) : Except Fault Unit :=
  if mode.unicode || l.char.toNat < 128 then .ok ()
  else refuse (if l.isByte then .partialCharacter else .characterNotAllowed) l.span

mutual

/-- Whether a class or a member of one can be matched; if so, whether it lists characters whose
case is still to be considered. A class considers it for its list, an operation for its sides, and
the right side comes first. -/
def Node.checkClass (mode : Mode) : Node → Except Fault Bool
  | .leaf symbol span =>
    match symbol with
    | .literal l => do
      l.checkMember mode
      return true
    | .range first last => do
      first.checkMember mode
      last.checkMember mode
      return true
    | .named negated =>
      if mode.needsCase then refuse .unknownCase span
      else if !mode.unicode && negated then refuse .partialCharacter span
      else return false
    | _ => do
      symbol.check mode span
      return false
  | .branch form parts span => do
    let listed ← checkClassIn mode parts
    match form with
    | .bracketed negated =>
      if mode.needsCase && listed.contains true then refuse .unknownCase span
      else if !mode.unicode && negated then refuse .partialCharacter span
      else return false
    | .operation =>
      match (parts.zip listed).reverse.find? fun side => mode.needsCase && side.2 with
      | some (side, _) => refuse .unknownCase side.span
      | none => return false
    | _ => return listed.contains true

/-- The same for members in a row. -/
def checkClassIn (mode : Mode) : List Node → Except Fault (List Bool)
  | [] => .ok []
  | part :: parts => do
    let first ← part.checkClass mode
    let more ← checkClassIn mode parts
    return first :: more

end

/-- Whether a leaf or a class can be matched. -/
def Node.check (mode : Mode) : Node → Except Fault Unit
  | .leaf symbol span => symbol.check mode span
  | node => do
    let _ ← node.checkClass mode

/-- Whether a leaf is an edge of words. -/
def Node.isWordEdge : Node → Bool
  | .leaf .wordEdge _ => true
  | _ => false

/-- Why a pattern is refused. -/
inductive Refusal where
  | faulty (fault : Fault)
  /-- The edges of words are known for ASCII only. -/
  | wordEdge
  deriving DecidableEq, Repr

/-- The message of a refusal. -/
def Refusal.message : Refusal → String
  | .faulty _ => "error building NFA"
  | .wordEdge =>
    "unsupported regex feature for DFAs: cannot build DFAs for regexes with Unicode word " ++
      "boundaries; switch to ASCII word boundaries, or heuristically enable Unicode word " ++
      "boundaries or use a different regex engine"

/-- What led to a refusal of a pattern, the nearest cause first. -/
def Refusal.causes (pattern : List Char) : Refusal → List String
  | .faulty fault => ["error parsing regex", fault.report pattern]
  | .wordEdge => []

/-- Whether a pattern can be matched. -/
def check (pattern : List Char) : Except Refusal Unit := do
  let node ← (read pattern).mapError .faulty
  let units := (node.units .initial).1
  (units.forM fun (mode, unit) => unit.check mode).mapError .faulty
  if units.any fun (mode, unit) => mode.unicode && unit.isWordEdge then throw .wordEdge

end SqlTree.Pattern
