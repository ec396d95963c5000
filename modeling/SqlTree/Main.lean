import SqlTree.CommandLine.Basic

/-!
# The program

Reads the arguments, the environment and the settings file, and writes the answer. No database is
linked into the program.
-/

namespace SqlTree.CommandLine

/-- The databases of the program: none. -/
def noDatabases : Databases IO where
  connect url := pure (some ("no driver for " ++ url))
  execute _ _ := pure (.error (.driverFailed "no driver"))

/-- Why a file cannot be read that does not exist. -/
def missingFile : String := "No such file or directory (os error 2)"

/-- Why a folder cannot be read. -/
def folderRead : String := "Is a directory (os error 21)"

/-- The text of a file, or why it cannot be read. -/
def readSettings (path : String) : IO (Except String String) := do
  try
    return .ok (← IO.FS.readFile path)
  catch e =>
    match e with
    | .noFileOrDirectory .. => return .error missingFile
    | .inappropriateType .. => return .error folderRead
    | e => return .error (toString e)

/-- The settings file of an invocation: the one it names, else the one of the user if it exists. -/
def findSettings (path : Option String) : IO (Option (Except String String)) := do
  match path with
  | some path => return some (← readSettings path)
  | none =>
    let folder ← match ← IO.getEnv "XDG_CONFIG_HOME" with
      | some folder => pure folder
      | none => pure ((← IO.getEnv "HOME").getD "" ++ "/.config")
    match ← readSettings (folder ++ "/pdsql/config.toml") with
    | .ok text => return some (.ok text)
    | .error reason => return if reason = missingFile then none else some (.error reason)

/-- Answer the arguments. -/
def answer (arguments : List String) : IO Response := do
  match Invocation.ofArguments arguments with
  | .error exit => return exit.response
  | .ok invocation =>
    let colored ← (← IO.getStdout).isTty
    let databaseUrl ← IO.getEnv "PDSQL_DATABASE_URL"
    let settings ← findSettings invocation.options.config
    invocation.respond noDatabases ⟨colored, databaseUrl, settings⟩

end SqlTree.CommandLine

/-- Answer the arguments of the program. -/
def main (arguments : List String) : IO UInt32 := do
  let response ← SqlTree.CommandLine.answer arguments
  (← IO.getStdout).putStr response.stdout
  (← IO.getStderr).putStr response.stderr
  return response.code.toUInt32
