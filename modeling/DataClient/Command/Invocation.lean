import DataClient.Command.Basic
import DataClient.Command.Grammar
import DataClient.Settings.Basic

/-!
# Invocations

The command line of the client: which commands and options there are, and what a command line that
was read stands for.
-/

set_option autoImplicit false

namespace DataClient

namespace Cli

/-- The name of the program. -/
def program : String := "uds"

/-- The version of the program. -/
def version : String := "0.1.0"

/-- A parameter with the settings that most have. -/
def Parameter.of (key shown : String) (role : Role) (about : String) : Parameter :=
  ⟨key, shown, none, none, role, false, false, none, none, about⟩

/-- An option that takes a value. -/
def option (long valueName : String) (kind : ValueKind) (about : String) : Parameter :=
  { Parameter.of long ("--" ++ long ++ " <" ++ valueName ++ ">") (.value kind) about with
    long := some long }

/-- An option without a value. -/
def flag (long : String) (short : Char) (role : Role) (about : String) : Parameter :=
  { Parameter.of long ("--" ++ long) role about with long := some long, short := some short }

/-- An operand that has to be given. -/
def operand (key name : String) (kind : ValueKind) : Parameter :=
  { Parameter.of key ("<" ++ name ++ ">") (.value kind) "" with isOperand := true, required := true }

/-- An operand that may be left out. -/
def optionalOperand (key name about : String) : Parameter :=
  { Parameter.of key ("[" ++ name ++ "]") (.value .text) about with isOperand := true }

/-- The options that every level has. -/
def globals : List Parameter := [
  { option "base-url" "URL" .text "Service base URL (e.g., http://localhost:8080)" with
    fromVariable := some "UDS_BASE_URL" },
  { option "timeout" "SECS" .unsigned "Request timeout in seconds" with
    fromVariable := some "UDS_TIMEOUT_SECS" },
  option "config" "PATH" .path "Config file path",
  option "format" "FORMAT" .outputFormat "Output format (text or json) [default: text]",
  flag "verbose" 'v' .flag "Enable debug logging",
  flag "help" 'h' .help "Print help"]

/-- A level with options of its own beside the global ones. -/
def level (name about : String) (own : List Parameter) (commands : List Level) : Level :=
  .mk name about (own ++ globals) commands

/-- The operand that names a member of a collection. -/
def idOperand : Parameter := operand "id" "ID" .signed

/-- The operand that holds an item. -/
def jsonOperand : Parameter := operand "json" "JSON" .text

/-- The commands on a kind of resource. -/
def actions (one many article : String) : List Level := [
  level "list" ("List all " ++ many) [] [],
  level "get" ("Show one " ++ one) [idOperand] [],
  level "create" ("Create " ++ article ++ " from a JSON document") [jsonOperand] [],
  level "update" ("Replace " ++ article ++ " with a JSON document") [idOperand, jsonOperand] [],
  level "delete" ("Delete " ++ article) [idOperand] []]

/-- The level that runs a query. -/
def queryLevel : Level :=
  level "query" "Run a SQL query and print the result table" [
    { optionalOperand "sql" "SQL" "SQL text, sent to the server unchanged" with
      required := true, instead := some "file" },
    { option "file" "PATH" .text "Read SQL from a file (\"-\" for stdin)" with short := some 'f' },
    option "get" "FORMAT" .resultFormat
      "Send the SQL as a GET query parameter and ask for this result format (arrow or json)"] []

/-- The level that opens a view. -/
def openLevel : Level :=
  level "open" "Open a view by path (/, /metrics, /tables, /query)" [
    optionalOperand "path" "PATH" "View path [default: /]",
    option "sql" "SQL" .text "SQL to run when the path opens the query view"] []

/-- The whole grammar. -/
def grammar : Level :=
  level program
    "Client for the unified data service: SQL queries over Arrow IPC, metric and table management"
    [flag "version" 'V' .version "Print version"] [
      queryLevel,
      level "metrics" "Manage metrics" [] (actions "metric" "metrics" "a metric"),
      level "tables" "Manage table definitions" []
        (actions "table definition" "table definitions" "a table definition" ++
          [level "by-name" "Show a table definition by its name" [operand "name" "NAME" .text] []]),
      level "configs" "Manage configuration entries" []
        (actions "configuration entry" "configuration entries" "a configuration entry" ++
          [level "preview" "Show the server's preview of a configuration entry" [idOperand] []]),
      openLevel]

end Cli

/-- A command, and the settings it was called with. -/
structure Invocation where
  baseUrl : Option String
  timeoutSeconds : Option Nat
  configPath : Option String
  format : OutputFormat
  verbose : Bool
  command : Command
  deriving DecidableEq, Repr

namespace Invocation

open Cli

/-- The value of a key as it was given. -/
def value? (key : String) (given : List Given) : Option String := (lookup? key given).map (·.value)

/-- An identifier among the values. -/
def id? (given : List Given) : Option Int64 :=
  (value? "id" given).bind fun s => (Number.signed64 s).toOption

def action? (name : String) (given : List Given) : Option Action :=
  match name with
  | "list" => some .list
  | "get" => (id? given).map .get
  | "create" => (value? "json" given).map .create
  | "update" => do return .update (← id? given) (← value? "json" given)
  | "delete" => (id? given).map .delete
  | _ => none

/-- The command that levels below the first stand for. -/
def command? : Reading → Option Command
  | [("query", given)] => some (.query {
      sql := value? "sql" given
      file := value? "file" given
      get := (value? "get" given).bind fun s => (ResultFormat.ofString? s).toOption })
  | [("metrics", _), (name, given)] => (action? name given).map .metrics
  | [("tables", _), ("by-name", given)] => (value? "name" given).map fun n => .tables (.byName n)
  | [("tables", _), (name, given)] => (action? name given).map fun a => .tables (.basic a)
  | [("configs", _), ("preview", given)] => (id? given).map fun n => .configs (.preview n)
  | [("configs", _), (name, given)] => (action? name given).map fun a => .configs (.basic a)
  | [("open", given)] => some (.open ((value? "path" given).getD "/") (value? "sql" given))
  | _ => none

/-- The invocation that a reading stands for. -/
def ofReading? (reading : Reading) : Option Invocation := do
  let command ← command? reading.tail
  let value (key : String) : Option String := (globalValue? key reading).map (·.value)
  return {
    baseUrl := value "base-url"
    timeoutSeconds := (value "timeout").bind fun s => (Number.unsigned64 s).toOption
    configPath := value "config"
    format := ((value "format").bind fun s => (OutputFormat.ofString? s).toOption).getD .text
    verbose := (value "verbose").isSome
    command }

/-- Reads a command line, the name of the program left out. A reading without faults stands for an
invocation, so the last case does not arise. -/
def ofArguments (environment : String → Option String) (arguments : List String) :
    Except Fault Invocation := do
  match ofReading? (← Cli.read environment grammar arguments) with
  | some i => return i
  | none => throw (.nothingGiven grammar)

/-! ## The configuration file -/

/-- A path behind another. -/
def joinPath (directory name : String) : String :=
  if directory.toList.getLast? = some '/' then directory ++ name else directory ++ "/" ++ name

/-- The home directory of the user: the variable `HOME`, and else that of the account. Neither is
empty. -/
def homeDirectory? (environment : String → Option String) (account : Option String) : Option String :=
  ((environment "HOME").filter (· ≠ "")).or (account.filter (· ≠ ""))

/-- The directory of the user's configuration files: the variable `XDG_CONFIG_HOME`, if it is an
absolute path, and else `.config` in the home directory. -/
def configDirectory? (environment : String → Option String) (account : Option String) :
    Option String :=
  match (environment "XDG_CONFIG_HOME").filter fun d => d.toList.head? = some '/' with
  | some d => some d
  | none => (homeDirectory? environment account).map fun home => joinPath home ".config"

/-- The configuration file where none is named. -/
def defaultConfigPath (environment : String → Option String) (account : Option String) : String :=
  joinPath (joinPath ((configDirectory? environment account).getD ".") "uds-client") "config.toml"

/-- The settings of an invocation, given those of the configuration file. -/
def settings (i : Invocation) (file : ServerSettings) : ServerSettings :=
  file.override i.baseUrl i.timeoutSeconds

/-- The configuration file of an invocation, where `account` is the home directory of the user's
account. -/
def configFile (i : Invocation) (environment : String → Option String) (account : Option String) :
    String :=
  i.configPath.getD (defaultConfigPath environment account)

end Invocation

end DataClient
