import SqlTree.Census
import SqlTree.CommandLine.Arguments
import SqlTree.LogFilter
import SqlTree.Query.Run
import SqlTree.Settings

/-!
# The command line

A command is answered by an exit code and the texts on the two output streams. The databases are a
parameter: how one is reached and how it executes a statement.
-/

namespace SqlTree.CommandLine

/-- What a command writes and the code it ends with. -/
structure Response where
  code : Nat
  stdout : String
  stderr : String
  deriving DecidableEq, Repr

/-- Why a command fails. -/
inductive Failure where
  | unreadableSettings (reason : String)
  | badSettings
  | badLogFilter (fault : LogFilter.Fault)
  | unknownDemo (name : String)
  | noDatabaseUrl
  | unreachable (reason : String)
  | badQuery (error : Error)
  | running (demo : String) (error : Error)

/-- The message of a failure and its causes. A cause whose message stands in the message itself is
told again. -/
def Failure.message : Failure → String
  | .unreadableSettings reason => "IO error: " ++ reason ++ ": " ++ reason
  | .badSettings => "Configuration error: not a settings file"
  | .badLogFilter fault => ": ".intercalate (fault.message :: fault.causes)
  | .unknownDemo name =>
    "Unknown demo '" ++ name ++ "'. Try: " ++ ", ".intercalate (Census.demos.map Demo.name)
  | .noDatabaseUrl =>
    "No database URL. Use --database-url, PDSQL_DATABASE_URL or the config file"
  | .unreachable reason => "Connection error: " ++ reason
  | .badQuery error => error.message
  | .running demo error => "running demo '" ++ demo ++ "': " ++ error.message

/-- The code that a command ends with when it fails. A log filter that cannot be cut into its parts
breaks the command off. -/
def Failure.code : Failure → Nat
  | .badLogFilter .brokenCharacter => 101
  | _ => 1

/-- The databases that a command can reach. A connection is known by its URL. -/
structure Databases (m : Type → Type) where
  /-- Open the database of a URL, or tell why that fails. -/
  connect : (url : String) → m (Option String)
  /-- Execute a statement in the database of a URL. -/
  execute : (url sql : String) → m (Except Error (List Row))

/-- What surrounds an invocation. -/
structure Surroundings where
  /-- Whether styles are shown. -/
  colored : Bool
  /-- The database of the environment. -/
  databaseUrl : Option String
  /-- The settings file, if there is one, or why it cannot be read. -/
  settings : Option (Except String String)

/-- The answer to a command that succeeded. -/
def Response.succeeded (stdout : String) : Response := ⟨0, stdout, ""⟩

/-- The answer to a command that failed after it wrote `stdout`. -/
def Response.failed (colored : Bool) (stdout : String) (failure : Failure) : Response :=
  ⟨failure.code, stdout, Text.styled colored .boldRed "Error:" ++ " " ++ failure.message ++ "\n"⟩

/-- The answer to arguments that make no invocation. -/
def Exit.response : Exit → Response
  | .usage => ⟨2, "", "Usage: pdsql [OPTIONS] <COMMAND>\n"⟩
  | .help => .succeeded "Usage: pdsql [OPTIONS] <COMMAND>\n"
  | .version => .succeeded "pdsql 0.3.0\n"

/-- The settings of an invocation. The log filter counts unless events are logged anyway. -/
def loadSettings (s : Surroundings) (verbose : Bool) : Except Failure Settings := do
  let settings ← match s.settings with
    | none => pure Settings.default
    | some (.error reason) => throw (.unreadableSettings reason)
    | some (.ok text) =>
      match Settings.ofToml? text with
      | some settings => pure settings
      | none => throw .badSettings
  match verbose, settings.log with
  | false, some filter =>
    match LogFilter.check filter with
    | .ok () => return settings
    | .error fault => throw (.badLogFilter fault)
  | _, _ => return settings

/-- The demonstration query of a name. -/
def findDemo (name : String) : Except Failure Demo :=
  match Census.demo? name with
  | some demo => .ok demo
  | none => .error (.unknownDemo name)

/-- The line of a demonstration query in the list of all. -/
def listLine (colored : Bool) (demo : Demo) : String :=
  Text.styled colored .cyan (Report.padRight 20 demo.name) ++ " " ++ demo.about ++ "\n"

/-- A failure to build or compile a query, as a failure of the command. -/
def orBadQuery {α : Type} : Except Error α → Except Failure α
  | .ok a => .ok a
  | .error e => .error (.badQuery e)

/-- A demonstration query with its SQL and, if asked for, its outline. -/
def showDemo (colored explain : Bool) (demo : Demo) : Except Failure String := do
  let query ← orBadQuery demo.query
  let sql ← orBadQuery query.compile
  let heading := Text.styled colored .dimmed "--" ++ " " ++ Text.styled colored .dimmed demo.about
  let outline := if explain then "\n" ++ query.outline 0 else ""
  return heading ++ "\n" ++ Text.styled colored .white sql ++ "\n" ++ outline ++ "\n"

/-- The demonstration queries of a name, or all of them. -/
def chosenDemos : Option String → Except Failure (List Demo)
  | some name => do return [← findDemo name]
  | none => .ok Census.demos

/-- The text of a command that needs no database. -/
def showDemos (colored : Bool) (name : Option String) (explain : Bool) : Except Failure String := do
  return String.join (← (← chosenDemos name).mapM (showDemo colored explain))

/-- The demonstration query to run, and the database to run it in. -/
def planRun (s : Surroundings) (settings : Settings) (options : Options) (name : String) :
    Except Failure (Demo × String) := do
  let demo ← findDemo name
  match options.databaseUrl <|> s.databaseUrl <|> settings.databaseUrl with
  | some url => return (demo, url)
  | none => throw .noDatabaseUrl

/-- The line with the SQL of a query. -/
def sqlLine (colored : Bool) (sql : String) : String :=
  Text.styled colored .dimmed "SQL:" ++ " " ++ Text.styled colored .yellow sql ++ "\n"

/-- Run a demonstration query in the database of a URL and report its rows. -/
def runDemo {m : Type → Type} [Monad m] (databases : Databases m) (colored verbose : Bool)
    (format : OutputFormat) (demo : Demo) (url : String) : m Response := do
  match ← databases.connect url with
  | some reason => return .failed colored "" (.unreachable reason)
  | none =>
    match demo.query.map (·.withDriver url) with
    | .error e => return .failed colored "" (.badQuery e)
    | .ok query =>
      match verbose, query.compile with
      | true, .error e => return .failed colored "" (.badQuery e)
      | _, compiled =>
        let shown := match verbose, compiled with
          | true, .ok sql => sqlLine colored sql
          | _, _ => ""
        match ← query.run databases.execute with
        | .error e => return .failed colored shown (.running demo.name e)
        | .ok rows => return .succeeded (shown ++ Report.text colored format rows)

/-- The text of an outcome on the output stream, or its failure. -/
def Response.ofExcept (colored : Bool) : Except Failure String → Response
  | .ok stdout => .succeeded stdout
  | .error failure => .failed colored "" failure

/-- The answer to an invocation. -/
def Invocation.respond {m : Type → Type} [Monad m] (databases : Databases m) (s : Surroundings)
    (i : Invocation) : m Response :=
  match loadSettings s i.options.verbose with
  | .error failure => pure (.failed s.colored "" failure)
  | .ok settings =>
    match i.command with
    | .list => pure (.succeeded (String.join (Census.demos.map (listLine s.colored))))
    | .show name explain => pure (.ofExcept s.colored (showDemos s.colored name explain))
    | .run name =>
      match planRun s settings i.options name with
      | .error failure => pure (.failed s.colored "" failure)
      | .ok (demo, url) =>
        runDemo databases s.colored i.options.verbose (i.options.format.getD settings.format) demo
          url

end SqlTree.CommandLine
