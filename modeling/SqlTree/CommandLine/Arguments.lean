import SqlTree.Report

/-!
# Arguments of the command line

The words of the command line are read one after the other. Options that are common to all commands
may stand before or after the command and are given at most once on each side; what stands after the
command counts more. Asking for help or the version ends the reading at once.
-/

namespace SqlTree.CommandLine

/-- Why the arguments make no invocation. -/
inductive Exit where
  | usage | help | version
  deriving DecidableEq, Repr

/-- An option that takes a value. -/
inductive Setting where
  | config | format | databaseUrl
  deriving DecidableEq, Repr

/-- An option that takes no value. -/
inductive Switch where
  | verbose | explain | help | version
  deriving DecidableEq, Repr

/-- The words that name a command. -/
inductive Verb where
  | list | show | run | help
  deriving DecidableEq, Repr

/-- The command that a word names. -/
def Verb.ofWord? : String → Option Verb
  | "list" => some .list
  | "show" => some .show
  | "run" => some .run
  | "help" => some .help
  | _ => none

/-- Values of the options common to all commands. -/
structure Options where
  config : Option String
  format : Option OutputFormat
  databaseUrl : Option String
  verbose : Bool
  deriving DecidableEq, Repr

/-- No option given. -/
def Options.none : Options := ⟨.none, .none, .none, false⟩

/-- Options with others in front of them that count more. -/
def Options.override (outer inner : Options) : Options where
  config := inner.config <|> outer.config
  format := inner.format <|> outer.format
  databaseUrl := inner.databaseUrl <|> outer.databaseUrl
  verbose := inner.verbose || outer.verbose

/-- What is asked for. -/
inductive Command where
  | list
  | show (name : Option String) (explain : Bool)
  | run (name : String)
  deriving DecidableEq, Repr

/-- A command with its options. -/
structure Invocation where
  command : Command
  options : Options
  deriving DecidableEq, Repr

/-- What was read of the arguments so far. -/
structure Progress where
  /-- The command, once it was read. -/
  verb : Option Verb
  /-- Options before the command. -/
  outer : Options
  /-- Options after the command. -/
  inner : Options
  explain : Bool
  /-- Words after the command that are no options. -/
  operands : List String
  /-- The option whose value comes next. -/
  pending : Option Setting
  /-- Whether no more options follow. -/
  ended : Bool
  deriving DecidableEq, Repr

namespace Progress

/-- Nothing was read yet. -/
def start : Progress := ⟨none, .none, .none, false, [], none, false⟩

/-- The options on the side of the command that is being read. -/
def current (p : Progress) : Options := if p.verb.isSome then p.inner else p.outer

/-- The progress with other options on the side that is being read. -/
def withCurrent (p : Progress) (options : Options) : Progress :=
  if p.verb.isSome then { p with inner := options } else { p with outer := options }

/-- Fail unless the condition holds. -/
def require (condition : Bool) (p : Progress) : Except Exit Progress :=
  if condition then .ok p else .error .usage

/-- Give an option its value. The path of a configuration is not empty. -/
def set (p : Progress) (setting : Setting) (value : String) : Except Exit Progress :=
  let given := p.current
  let p := { p with pending := none }
  match setting with
  | .config =>
    require (given.config.isNone && !value.isEmpty)
      (p.withCurrent { given with config := some value })
  | .format =>
    require (given.format.isNone && (OutputFormat.ofName? value).isSome)
      (p.withCurrent { given with format := OutputFormat.ofName? value })
  | .databaseUrl =>
    require given.databaseUrl.isNone (p.withCurrent { given with databaseUrl := some value })

/-- Turn a switch on. -/
def turnOn (p : Progress) : Switch → Except Exit Progress
  | .help => .error .help
  | .version => .error .version
  | .explain => require (!p.explain) { p with explain := true }
  | .verbose =>
    require (!p.current.verbose) (p.withCurrent { p.current with verbose := true })

/-- The option that takes a value and has the long name. -/
def longSetting? : String → Option Setting
  | "config" => some .config
  | "format" => some .format
  | "database-url" => some .databaseUrl
  | _ => none

/-- The switch of the long name, where the progress knows it. -/
def longSwitch? (p : Progress) : String → Option Switch
  | "verbose" => some .verbose
  | "help" => some .help
  | "version" => if p.verb.isNone then some .version else none
  | "explain" => if p.verb = some .show then some .explain else none
  | _ => none

/-- The option that takes a value and has the letter. -/
def shortSetting? : Char → Option Setting
  | 'c' => some .config
  | 'f' => some .format
  | _ => none

/-- The switch of the letter, where the progress knows it. -/
def shortSwitch? (p : Progress) : Char → Option Switch
  | 'v' => some .verbose
  | 'h' => some .help
  | 'V' => if p.verb.isNone then some .version else none
  | _ => none

/-- Read an option by its long name, behind the two dashes; a value may follow an equals sign. -/
def long (p : Progress) (word : List Char) : Except Exit Progress :=
  let name := String.ofList (word.takeWhile (· != '='))
  let value := (word.dropWhile (· != '=')).tail?
  match longSetting? name, p.longSwitch? name, value with
  | some setting, _, some value => p.set setting (String.ofList value)
  | some setting, _, none => .ok { p with pending := some setting }
  | none, some switch, none => p.turnOn switch
  | _, _, _ => .error .usage

/-- Read letters of options, behind one dash. What follows the letter of an option that takes a
value is its value, with or without an equals sign. -/
def short (p : Progress) : List Char → Except Exit Progress
  | [] => .ok p
  | letter :: rest =>
    match shortSetting? letter, p.shortSwitch? letter with
    | some setting, _ =>
      match rest with
      | [] => .ok { p with pending := some setting }
      | '=' :: value => p.set setting (String.ofList value)
      | value => p.set setting (String.ofList value)
    | none, some switch => do (← p.turnOn switch).short rest
    | none, none => .error .usage

/-- Read a word that is no option: the command, or one of its operands. -/
def word (p : Progress) (text : String) : Except Exit Progress :=
  match p.verb with
  | none =>
    match Verb.ofWord? text with
    | some verb => require (!p.ended) { p with verb := some verb }
    | none => .error .usage
  | some .list => .error .usage
  | some .help => require (p.operands.isEmpty && (Verb.ofWord? text).isSome)
      { p with operands := [text] }
  | some _ => require p.operands.isEmpty { p with operands := [text] }

/-- Read one argument. Behind the request for help on a command there are no options. -/
def read (p : Progress) (text : String) : Except Exit Progress :=
  if p.verb = some .help then p.word text
  else match p.pending, p.ended, text.toList with
  | some _, _, '-' :: _ :: _ => .error .usage
  | some setting, _, _ => p.set setting text
  | none, false, ['-', '-'] => .ok { p with ended := true }
  | none, false, '-' :: '-' :: name => p.long name
  | none, false, '-' :: letter :: letters => p.short (letter :: letters)
  | none, _, _ => p.word text

/-- The invocation, once all arguments were read. -/
def finish (p : Progress) : Except Exit Invocation :=
  let options := p.outer.override p.inner
  match p.pending, p.verb, p.operands with
  | none, some .list, _ => .ok ⟨.list, options⟩
  | none, some .show, operands => .ok ⟨.show operands.head? p.explain, options⟩
  | none, some .run, [name] => .ok ⟨.run name, options⟩
  | none, some .help, _ => .error .help
  | _, _, _ => .error .usage

end Progress

/-- The invocation that the arguments make. -/
def Invocation.ofArguments (arguments : List String) : Except Exit Invocation := do
  (← arguments.foldlM Progress.read Progress.start).finish

end SqlTree.CommandLine
