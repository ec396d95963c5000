import SqlTree.Pattern.Check
import SqlTree.Text.Bytes

/-!
# Log filters

A log filter is a list of directives with commas between them. A directive names a level, or a
target and after it, as far as wanted, a span in brackets with a field in braces and a level. The
value of a field is a truth value, a number or a pattern.

A directive is divided without the blanks around it. Its parts are then cut out of the whole text
by their byte offsets, so blanks in front move the parts, and blanks behind belong to the level.
-/

namespace SqlTree.LogFilter

/-- Why a text is no log filter. -/
inductive Fault where
  | directive
  | level
  /-- A pattern that is refused, and why. -/
  | field (pattern : List Char) (refusal : Pattern.Refusal)
  /-- A part begins or ends inside a character. -/
  | brokenCharacter
  deriving DecidableEq, Repr

/-- The message of a fault. -/
def Fault.message : Fault → String
  | .directive => "invalid filter directive"
  | .level =>
    "error parsing level filter: expected one of \"off\", \"error\", \"warn\", \"info\", " ++
      "\"debug\", \"trace\", or a number 0-5"
  | .field _ refusal => "invalid field filter: " ++ refusal.message
  | .brokenCharacter => "byte index is not a char boundary"

/-- What led to a fault, the nearest cause first. The message of a level or a pattern is told again
as the cause. -/
def Fault.causes : Fault → List String
  | .level => [Fault.level.message]
  | .field pattern refusal => refusal.message :: refusal.causes pattern
  | _ => []

/-- Whether a target or a level can start with the character. -/
def isStart (c : Char) : Bool := c == '-' || c == ':' || c == '_' || Text.isAlphanumeric c

/-- The names of the levels. -/
def levels : List String := ["off", "error", "warn", "info", "debug", "trace"]

/-- The value of decimal digits. -/
def valueOf (digits : List Char) : Nat :=
  digits.foldl (fun n c => n * 10 + (c.toNat - '0'.toNat)) 0

/-- Whether a text is a number from 0 to 5, with a plus in front or not. -/
def isLevelNumber (text : List Char) : Bool :=
  let digits := if text.head? = some '+' then text.drop 1 else text
  !digits.isEmpty && digits.all Char.isDigit && valueOf digits ≤ 5

/-- A level by name or by number; nothing stands for the finest one. -/
def checkLevel (text : List Char) : Except Fault Unit :=
  let name := String.ofList (text.map Char.toLower)
  if text.isEmpty || isLevelNumber text || levels.contains name then .ok () else .error .level

/-- Whether a text is the power of ten behind a number, or nothing. -/
def isExponent : List Char → Bool
  | [] => true
  | c :: text =>
    let digits := match text with
      | '+' :: digits | '-' :: digits => digits
      | digits => digits
    (c == 'e' || c == 'E') && !digits.isEmpty && digits.all Char.isDigit

/-- Whether a text is a number: digits with a point among them or not, infinity, or no number. -/
def isUnsignedNumber (text : List Char) : Bool :=
  let whole := text.takeWhile Char.isDigit
  let behind := text.dropWhile Char.isDigit
  let isDecimal := match behind with
    | '.' :: behind =>
      let places := behind.takeWhile Char.isDigit
      !(whole.isEmpty && places.isEmpty) && isExponent (behind.dropWhile Char.isDigit)
    | _ => !whole.isEmpty && isExponent behind
  isDecimal || ["inf", "infinity", "nan"].contains (String.ofList (text.map Char.toLower))

/-- Whether a text is a number with a sign or without. -/
def isNumber : List Char → Bool
  | '+' :: text | '-' :: text => isUnsignedNumber text
  | text => isUnsignedNumber text

/-- A field: a name and, as far as wanted, an equals sign and a value. A second equals sign ends
the value. -/
def checkField (text : List Char) : Except Fault Unit :=
  match text.splitOn '=' with
  | _ :: value :: _ =>
    if isNumber value then .ok () else (Pattern.check value).mapError (.field value)
  | _ => .ok ()

/-- The part of a directive between two byte offsets. -/
def part (text : List Char) (start stop : Nat) : Except Fault (List Char) :=
  match Text.betweenBytes? start stop text with
  | some part => .ok part
  | none => .error .brokenCharacter

/-- The level of a directive from a byte offset on. -/
def checkLevelFrom (text : List Char) (start : Nat) : Except Fault Unit :=
  match Text.fromByte? start text with
  | some level => checkLevel level
  | none => .error .brokenCharacter

/-- What may follow a span. It is given like all parts below by the text of the directive, the
offset of the part and what is left of the directive at that offset. -/
def checkAfterSpan (text : List Char) (start : Nat) : List Char → Except Fault Unit
  | [] => .ok ()
  | '=' :: _ => checkLevelFrom text (start + 1)
  | _ => .error .directive

/-- The field of a span, behind the opening brace. -/
def checkFields (text : List Char) (start : Nat) (left : List Char) : Except Fault Unit := do
  let stop := start + Text.byteSize (left.takeWhile (· != '\x7d'))
  match left.dropWhile (· != '\x7d') with
  | '\x7d' :: left =>
    let field ← part text start stop
    if field.isEmpty then throw .directive
    checkField field
    match left with
    | ']' :: left => checkAfterSpan text (stop + 2) left
    | _ => throw .directive
  | _ => throw .directive

/-- A span, behind the opening bracket. -/
def checkSpan (text : List Char) (start : Nat) (left : List Char) : Except Fault Unit := do
  let isName := fun c => c != ']' && c != '\x7b'
  let stop := start + Text.byteSize (left.takeWhile isName)
  match left.dropWhile isName with
  | ']' :: left =>
    let _ ← part text start stop
    checkAfterSpan text (stop + 1) left
  | '\x7b' :: left =>
    let _ ← part text start stop
    checkFields text (stop + 1) left
  | _ => throw .directive

/-- A level or a target, and what follows it. -/
def checkTarget (text left : List Char) : Except Fault Unit := do
  let isTarget := fun c => c != '=' && c != '['
  let stop := Text.byteSize (left.takeWhile isTarget)
  match left.dropWhile isTarget with
  | '=' :: _ =>
    let _ ← part text 0 stop
    checkLevelFrom text (stop + 1)
  | '[' :: left =>
    let _ ← part text 0 stop
    checkSpan text (stop + 1) left
  | _ => return

/-- One directive. -/
def checkDirective (text : List Char) : Except Fault Unit :=
  match Text.trim text with
  | [] => .error .directive
  | '[' :: left => checkSpan text 1 left
  | c :: left => if isStart c then checkTarget text (c :: left) else .error .directive

/-- Whether a text is a log filter; empty directives are passed over. -/
def check (text : String) : Except Fault Unit :=
  ((text.toList.splitOn ',').filter fun d => !d.isEmpty).forM checkDirective

end SqlTree.LogFilter
