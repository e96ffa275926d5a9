import DataClient.Command.Help
import DataClient.Command.Invocation
import DataClient.Command.Plan
import DataClient.Exchange.Remote
import DataClient.Settings.File

/-!
# Runs

A whole run of the program: the command line is read, then the configuration file; the settings are
examined before anything is sent; then the command is carried out. What a run reaches outside itself
is a parameter.
-/

set_option autoImplicit false

namespace DataClient

/-- What a run can reach. -/
structure Surroundings (m : Type → Type) where
  /-- A variable of the environment. -/
  lookup : String → Option String
  /-- The home directory of the user's account. -/
  account : Option String
  /-- Whether something is found at a path. What cannot be looked for counts as not found. -/
  present : String → m Bool
  file : String → m (Except ReadFault ByteArray)
  stdin : m (Except ReadFault ByteArray)
  link : Link m

/-- How a run ends. -/
structure Exit where
  code : UInt32
  stdout : String
  stderr : String

/-- An error as it is reported: a failed query by its stage, any other error by its category. -/
def ClientError.report : ClientError → String
  | .query e => e.render
  | e => e.category ++ ": " ++ e.message

/-- The end of a run that was given nothing to do, or nothing that it understands. -/
def Exit.ofFault (fault : Cli.Fault) : Exit :=
  let text := fault.text Cli.program Cli.version
  if fault.isAnswer then ⟨0, text, ""⟩ else ⟨2, "", text⟩

/-- The end of a run that carried out a command. -/
def Exit.ofResult : Except ClientError String → Exit
  | .ok text => ⟨0, text, ""⟩
  | .error e => ⟨1, "", e.report ++ "\n"⟩

variable {m : Type → Type} [Monad m] [Allocator] [Web.DomainReader]

/-- Carries a plan out over a link to a service. -/
def Plan.over (remote : Remote) (link : Link m) : Plan → m Finish
  | .done result => return .ok result
  | .send r finish => return finish (← remote.send link r)

/-- What the text of a query is read from; other sources hold nothing. -/
def SqlSource.fetch (s : Surroundings m) : SqlSource → m (Except ReadFault ByteArray)
  | .stdin => s.stdin
  | .file path => s.file path
  | .given _ => return .ok ByteArray.empty
  | .missing => return .ok ByteArray.empty

/-- What a command reads before it is carried out. -/
def Command.fetch (s : Surroundings m) : Command → m (Except ReadFault ByteArray)
  | .query q => q.source.fetch s
  | _ => return .ok ByteArray.empty

/-- The settings of the configuration file at a path; where nothing is found, they are the defaults. -/
def ServerSettings.load (s : Surroundings m) (path : String) :
    m (Except ClientError ServerSettings) := do
  if ← s.present path then return ofFile path (← s.file path)
  else return .ok standard

/-- The service that an invocation is for. -/
def Invocation.remote (s : Surroundings m) (i : Invocation) : m (Except ClientError Remote) := do
  let file ← ServerSettings.load s (i.configFile s.lookup s.account)
  return do Remote.ofSettings (i.settings (← file))

/-- Carries an invocation out. -/
def Invocation.perform (s : Surroundings m) (i : Invocation) : m Finish := do
  match ← i.remote s with
  | .error e => return .ok (.error e)
  | .ok remote =>
    let content ← i.command.fetch s
    (Plan.ofCommand i.format content i.command).over remote s.link

/-- Runs the program. -/
def run (s : Surroundings m) (arguments : List String) : m (Except Crash Exit) :=
  match Invocation.ofArguments s.lookup arguments with
  | .error fault => return .ok (.ofFault fault)
  | .ok i => return (← i.perform s).map .ofResult

end DataClient
