import SqlTree.Report
import SqlTree.Toml.Definition

/-!
# Settings

Settings are read from TOML text with the keys `database_url`, `format` and `log`, each at most once
and none required. All hold strings; the format may also be given as a table whose only key is the
name of the format.
-/

namespace SqlTree

/-- The settings of the command line. -/
structure Settings where
  /-- Where the database is. -/
  databaseUrl : Option String
  /-- How rows are reported. -/
  format : OutputFormat
  /-- Which events are logged. -/
  log : Option String
  deriving DecidableEq, Repr

namespace Settings

/-- The settings when nothing is set. -/
def default : Settings := ⟨none, .table, none⟩

/-- The string that the definitions of one key give it, if any. -/
def textOf? : List Toml.Definition → Option (Option String)
  | [] => some none
  | [.pair [] [_] (.text value)] => some (some value)
  | _ => none

/-- The format that the definitions of its key give. -/
def formatOf? : List Toml.Definition → Option OutputFormat
  | [] => some .table
  | [.pair [] [_] (.text name)] => OutputFormat.ofName? name
  | [.pair [] [_] (.field name)] => OutputFormat.ofName? name
  | [.pair [] [_, name] .empty] => OutputFormat.ofName? name
  | [.table [_], .pair [_] [name] .empty] => OutputFormat.ofName? name
  | [.table [_, name]] => OutputFormat.ofName? name
  | [.table [_], .table [_, name]] => OutputFormat.ofName? name
  | [.table [_, name], .table [_]] => OutputFormat.ofName? name
  | _ => none

/-- The keys that settings have. -/
def keys : List String := ["database_url", "format", "log"]

/-- The settings that definitions make, if there are no others among them. -/
def ofDefinitions? (definitions : List Toml.Definition) : Option Settings :=
  let about (key : String) := definitions.filter fun d => d.topKey == key
  if definitions.all fun d => keys.contains d.topKey then do
    let url ← textOf? (about "database_url")
    let format ← formatOf? (about "format")
    return ⟨url, format, ← textOf? (about "log")⟩
  else none

/-- The settings in a text. -/
def ofToml? (text : String) : Option Settings := (Toml.definitions? text).bind ofDefinitions?

end Settings

end SqlTree
