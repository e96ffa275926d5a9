import Mathlib.Data.List.ReduceOption
import DataClient.Command.Run
import DataClient.Proofs.Command.Globals
import DataClient.Proofs.Settings.File

/-!
# Where the settings of a run come from

Each setting is taken from the command line, else from the environment, else from the configuration
file, and is else the default; where the other setting comes from makes no difference. The file is the
one that the line names, else that of the program in the directory for such files, and where none is
found the defaults stay. The settings are examined when all of this has been put together and before
anything is sent.
-/

set_option autoImplicit false

namespace DataClient

open Cli Outcome

/-! ## The settings -/

/-- The settings of a run: each from the first source that gives it, where `file` is what the
configuration file says. -/
def effective (environment : String → Option String) (arguments : List String)
    (file : Option String × Option Nat) : ServerSettings where
  baseUrl := ((((spoken "base-url" arguments).getLast?).or (environment "UDS_BASE_URL")).or
    file.1).getD "http://localhost:8080"
  timeoutSeconds := (((((spoken "timeout" arguments).getLast?).or
    (environment "UDS_TIMEOUT_SECS")).bind fun text => (Number.unsigned64 text).toOption).or
    file.2).getD 30

section Settings

variable {environment : String → Option String} {arguments : List String} {i : Invocation}

/-- The number of seconds of an invocation is the one that its text stands for. -/
theorem Invocation.timeoutSeconds_eq (h : Invocation.ofArguments environment arguments = .ok i) :
    i.timeoutSeconds = (((spoken "timeout" arguments).getLast?).or
      (environment "UDS_TIMEOUT_SECS")).bind fun text => (Number.unsigned64 text).toOption := by
  obtain ⟨-, hseconds, -⟩ := Invocation.settings_of_ofArguments h
  cases htext : ((spoken "timeout" arguments).getLast?).or (environment "UDS_TIMEOUT_SECS") with
  | none =>
    rw [htext] at hseconds
    simpa using hseconds
  | some text =>
    rw [htext] at hseconds
    obtain ⟨n, hn, htext⟩ := Option.map_eq_some_iff.1 hseconds
    rw [hn, Option.bind_some, ← htext]
    rfl

theorem Invocation.settings_standard (h : Invocation.ofArguments environment arguments = .ok i)
    (file : Option String × Option Nat) :
    i.settings (ServerSettings.standard.override file.1 file.2)
      = effective environment arguments file := by
  obtain ⟨hurl, -⟩ := Invocation.settings_of_ofArguments h
  rw [Invocation.settings, ServerSettings.override_override, hurl, Invocation.timeoutSeconds_eq h]
  rfl

end Settings

/-! ## The file -/

section File

variable {environment : String → Option String} {account : Option String}

/-- The directories that configuration files can be in: that of the environment, if it is an absolute
path, and those in the homes that the environment and the account give. -/
def configDirectories (environment : String → Option String) (account : Option String) :
    List String :=
  (environment "XDG_CONFIG_HOME").toList.filter (·.toList.head? = some '/') ++
    ([environment "HOME", account].reduceOption.filter (· ≠ "")).map (Invocation.joinPath · ".config")

/-- The file of a run: the last that the line names, else the one of the program in the first of the
directories, and without any of these in the directory at hand. -/
def settingsFile (environment : String → Option String) (account : Option String)
    (arguments : List String) : String :=
  ((spoken "config" arguments).getLast?).getD (Invocation.joinPath (Invocation.joinPath
    ((configDirectories environment account).head?.getD ".") "uds-client") "config.toml")

theorem homeDirectory?_eq : Invocation.homeDirectory? environment account =
    ([environment "HOME", account].reduceOption.filter (· ≠ "")).head? := by
  unfold Invocation.homeDirectory?
  cases environment "HOME" with
  | none => cases account <;> simp [Option.filter]
  | some home =>
    by_cases h : home = ""
    · cases account <;> simp [h, Option.filter]
    · simp [h, Option.filter]

theorem configDirectory?_eq :
    Invocation.configDirectory? environment account
      = (configDirectories environment account).head? := by
  unfold Invocation.configDirectory? configDirectories
  rw [List.head?_append, List.head?_map, ← homeDirectory?_eq]
  cases environment "XDG_CONFIG_HOME" with
  | none => rfl
  | some d => by_cases h : d.toList.head? = some '/' <;> simp [h, Option.filter]

/-- The file of an invocation is that of the line and the environment it was read from. -/
theorem configFile_eq {arguments : List String} {i : Invocation}
    (h : Invocation.ofArguments environment arguments = .ok i) :
    i.configFile environment account = settingsFile environment account arguments := by
  obtain ⟨-, -, hconfig⟩ := Invocation.settings_of_ofArguments h
  rw [Invocation.configFile, hconfig, Invocation.defaultConfigPath, configDirectory?_eq]
  rfl

end File

/-! ## The run -/

section Run

variable {m : Type → Type} [Monad m] {s : Surroundings m}

/-- What is found where a file should be: nothing, or what reading the file yields. -/
def Surroundings.find (s : Surroundings m) (path : String) :
    m (Option (Except ReadFault ByteArray)) := do
  if ← s.present path then return some (← s.file path)
  else return none

theorem load_eq [LawfulMonad m] (path : String) :
    ServerSettings.load s path = ServerSettings.ofFound path <$> s.find path := by
  unfold ServerSettings.load Surroundings.find
  rw [map_bind]
  refine bind_congr fun found => ?_
  cases found with
  | true => rw [if_pos rfl, if_pos rfl, map_bind]; simp only [map_pure]; rfl
  | false => simp only [Bool.false_eq_true, if_false, map_pure]; rfl

variable [Allocator] [Web.DomainReader] {arguments : List String} {i : Invocation}

/-- What a run does once it has a service to talk to. -/
def Invocation.carryOut (s : Surroundings m) (i : Invocation) (remote : Remote) :
    m (Except Crash Exit) := do
  let content ← i.command.fetch s
  return (← (Plan.ofCommand i.format content i.command).over remote s.link).map .ofResult

/-- What a run does once it has looked for the configuration file. -/
def Invocation.afterFile (s : Surroundings m) (i : Invocation)
    (found : Option (Except ReadFault ByteArray)) : m (Except Crash Exit) :=
  match ServerSettings.ofFound (i.configFile s.lookup s.account) found >>= fun file =>
      Remote.ofSettings (i.settings file) with
  | .error e => return .ok (.ofResult (.error e))
  | .ok remote => i.carryOut s remote

theorem run_eq [LawfulMonad m] (h : Invocation.ofArguments s.lookup arguments = .ok i) :
    run s arguments = s.find (settingsFile s.lookup s.account arguments) >>= i.afterFile s := by
  unfold run
  rw [h, ← configFile_eq h]
  simp only [Invocation.perform, Invocation.remote, load_eq, bind_assoc, bind_map_left, pure_bind]
  refine bind_congr fun found => ?_
  unfold Invocation.afterFile
  cases ServerSettings.ofFound (i.configFile s.lookup s.account) found >>= fun file =>
      Remote.ofSettings (i.settings file) with
  | error e => rw [pure_bind]; rfl
  | ok remote => simp only [Invocation.carryOut, bind_assoc]

/-- A run ends with an error of the configuration and reaches nothing any more. -/
def StopsForConfig (x : m (Except Crash Exit)) : Prop :=
  ∃ why, x = pure (.ok (.ofResult (.error (.config why))))

/-- A file that is refused stops the run. -/
theorem afterFile_of_refused {found : Option (Except ReadFault ByteArray)}
    (hfile : ServerSettings.ofFound? found = none) : StopsForConfig (i.afterFile s found) := by
  cases hread : ServerSettings.ofFound (i.configFile s.lookup s.account) found with
  | error e =>
    obtain ⟨why, rfl⟩ := ServerSettings.ofFound_eq_error hread
    exact ⟨why, by rw [Invocation.afterFile, hread]; rfl⟩
  | ok settings =>
    obtain ⟨file, hgiven, -⟩ := ServerSettings.ofFound_eq_ok.1 hread
    exact nomatch hfile.symm.trans hgiven

section Given

variable {found : Option (Except ReadFault ByteArray)} {file : Option String × Option Nat}
  (h : Invocation.ofArguments s.lookup arguments = .ok i)
  (hfile : ServerSettings.ofFound? found = some file)
include h hfile

theorem afterFile_eq : i.afterFile s found =
    match Remote.ofSettings (effective s.lookup arguments file) with
    | .error e => pure (.ok (.ofResult (.error e)))
    | .ok remote => i.carryOut s remote := by
  have hread : ServerSettings.ofFound (i.configFile s.lookup s.account) found
      = .ok (ServerSettings.standard.override file.1 file.2) :=
    ServerSettings.ofFound_eq_ok.2 ⟨file, hfile, rfl⟩
  rw [Invocation.afterFile, hread, ← Invocation.settings_standard h]
  rfl

/-- Settings that cannot be used stop the run, and it is the settings put together that count. -/
theorem afterFile_of_unusable (hbad : (effective s.lookup arguments file).Unusable) :
    StopsForConfig (i.afterFile s found) := by
  rw [afterFile_eq h hfile]
  obtain ⟨-, why, hvalidate⟩ | ⟨hgood, -⟩ :=
    (effective s.lookup arguments file).validate_cases
  · exact ⟨why, by rw [Remote.ofSettings, hvalidate]; rfl⟩
  · exact absurd hbad hgood

/-- Any other run is carried out for the service that the settings describe. -/
theorem afterFile_of_usable (hgood : ¬ (effective s.lookup arguments file).Unusable) :
    ∃ url, Web.Url.read (effective s.lookup arguments file).baseUrl = .ok url ∧
      i.afterFile s found
        = i.carryOut s ⟨url, (effective s.lookup arguments file).timeoutSeconds⟩ := by
  rw [afterFile_eq h hfile]
  obtain ⟨hbad, -⟩ | ⟨-, url, hread, hvalidate⟩ :=
    (effective s.lookup arguments file).validate_cases
  · exact absurd hbad hgood
  · exact ⟨url, hread, by rw [Remote.ofSettings, hvalidate]; rfl⟩

end Given

end Run

/-- **The settings of a run.** On every command line that is understood, and whatever the
environment and the configuration file hold, each of the two settings is the last that the line
gives, else the one of the environment, else the one of the file, else the default; the number that
a line or the environment gives can be read. Either setting can be added to a line that is
understood, before or behind its commands, and in the environment, and nothing else is read
otherwise for it. Of any replacements the last of a setting counts, and none of the other. A run
looks for its file first: whether there is one, and only then what it holds. One that is there and
is refused, and settings that cannot be used once they are put together, stop the run at this point,
and otherwise it is carried out with these settings. -/
theorem settings_precedence [Allocator] [Web.DomainReader] :
    (∀ environment arguments i, Invocation.ofArguments environment arguments = .ok i →
      (∀ text, ((spoken "timeout" arguments).getLast?).or (environment "UDS_TIMEOUT_SECS")
        = some text → ∃ n, Number.unsigned64 text = .ok n) ∧
      ∀ path found file, ServerSettings.ofFound? found = some file →
        ∃ settings, ServerSettings.ofFound path found = .ok settings ∧
          i.settings settings = effective environment arguments file) ∧
    (∀ environment swapped before after value form i,
      Invocation.ofArguments environment (before ++ after) = .ok i →
      (Adds Invocation.baseUrlOption grammar environment swapped before after value form →
        Invocation.ofArguments swapped (before ++ form ++ after)
          = .ok { i with baseUrl := value.or (swapped "UDS_BASE_URL") }) ∧
      (Adds Invocation.timeoutOption grammar environment swapped before after value form →
        Invocation.ofArguments swapped (before ++ form ++ after)
          = .ok { i with timeoutSeconds := (value.or (swapped "UDS_TIMEOUT_SECS")).bind fun text =>
              (Number.unsigned64 text).toOption })) ∧
    (∀ (s : ServerSettings) (replacements : List (Option String × Option Nat)),
      replacements.foldl (fun s r => s.override r.1 r.2) s
        = ⟨((replacements.filterMap (·.1)).getLast?).getD s.baseUrl,
          ((replacements.filterMap (·.2)).getLast?).getD s.timeoutSeconds⟩) ∧
    ∀ (m : Type → Type) [Monad m] [LawfulMonad m] (s : Surroundings m) (arguments : List String)
      (i : Invocation), Invocation.ofArguments s.lookup arguments = .ok i →
      run s arguments = s.find (settingsFile s.lookup s.account arguments) >>= i.afterFile s ∧
      ∀ found,
        (ServerSettings.ofFound? found = none → StopsForConfig (i.afterFile s found)) ∧
        ∀ file, ServerSettings.ofFound? found = some file →
          ((effective s.lookup arguments file).Unusable → StopsForConfig (i.afterFile s found)) ∧
          (¬ (effective s.lookup arguments file).Unusable → ∃ url,
            Web.Url.read (effective s.lookup arguments file).baseUrl = .ok url ∧
            i.afterFile s found
              = i.carryOut s ⟨url, (effective s.lookup arguments file).timeoutSeconds⟩) := by
  refine ⟨fun environment arguments i h => ⟨fun text htext => ?_, fun path found file hfile => ?_⟩,
    fun environment swapped before after value form i h =>
      ⟨fun hadds => Invocation.ofArguments_adds_baseUrl hadds h,
        fun hadds => Invocation.ofArguments_adds_timeout hadds h⟩,
    ServerSettings.foldl_override, fun m _ _ s arguments i h => ⟨run_eq h, fun found =>
      ⟨afterFile_of_refused, fun file hfile =>
        ⟨afterFile_of_unusable h hfile, afterFile_of_usable h hfile⟩⟩⟩⟩
  · obtain ⟨-, hseconds, -⟩ := Invocation.settings_of_ofArguments h
    rw [htext] at hseconds
    obtain ⟨n, -, hn⟩ := Option.map_eq_some_iff.1 hseconds
    exact ⟨n, hn.symm⟩
  · exact ⟨_, ServerSettings.ofFound_eq_ok.2 ⟨file, hfile, rfl⟩,
      Invocation.settings_standard h file⟩

/-- A file that allows no time, and says nothing about the address. -/
def timelessFile : Except ReadFault ByteArray := .ok "[server]\ntimeout_secs = 0\n".toUTF8

/-- Surroundings with this file in the home of the account, where of all variables only the address
is set. -/
def timeless : Surroundings Id where
  lookup x := if x = "UDS_BASE_URL" then some "http://variable.test" else none
  account := some "/home/user"
  present path := pure (path == "/home/user/.config/uds-client/config.toml")
  file _ := pure timelessFile
  stdin := pure (.ok ByteArray.empty)
  link _ := pure (.error .unreachable)

section

open scoped Allocator.Sized Web.Domain

/-- A line that gives an address behind its first command. The address beats that of the
environment, and the time of the file beats the default, so that the run stops. -/
theorem settings_precedence_timeless :
    Invocation.ofArguments timeless.lookup ["metrics", "--base-url=http://line.test", "list"]
      = .ok ⟨some "http://line.test", none, none, .text, false, .metrics .list⟩ ∧
    ServerSettings.ofFound? (some timelessFile) = some (none, some 0) ∧
    (∃ settings, ServerSettings.ofFound "config.toml" (some timelessFile) = .ok settings ∧
      Invocation.settings ⟨some "http://line.test", none, none, .text, false, .metrics .list⟩ settings
        = ⟨"http://line.test", 0⟩) ∧
    [((some "http://a.test", none) : Option String × Option Nat), (none, some 4)].foldl
        (fun s r => s.override r.1 r.2) ServerSettings.standard = ⟨"http://a.test", 4⟩ ∧
    StopsForConfig (run timeless ["metrics", "--base-url=http://line.test", "list"]) := by
  obtain ⟨hline, hadd, hreplace, hrun⟩ := settings_precedence
  have hplain : Invocation.ofArguments timeless.lookup (["metrics"] ++ ["list"])
      = .ok ⟨some "http://variable.test", none, none, .text, false, .metrics .list⟩ := by rfl
  have hadds : Adds Invocation.baseUrlOption grammar timeless.lookup timeless.lookup ["metrics"]
      ["list"] (some "http://line.test") ["--base-url=http://line.test"] := by
    refine ⟨unnamed_of_plain ?_, by decide, ?_, .attached "http://line.test",
      fun v _ => Invocation.takes_baseUrl v, fun _ _ => rfl,
      fun v _ => Invocation.takes_baseUrl v⟩
    · exact List.forall_mem_cons.2 ⟨rfl, List.forall_mem_cons.2 ⟨rfl, List.forall_mem_nil _⟩⟩
    · intro shown hlack
      have hread : Cli.read timeless.lookup grammar ["metrics"]
          = .error (.missingCommand "uds metrics") := by rfl
      rw [hread] at hlack
      cases hlack
  have hi : Invocation.ofArguments timeless.lookup ["metrics", "--base-url=http://line.test", "list"]
      = .ok ⟨some "http://line.test", none, none, .text, false, .metrics .list⟩ :=
    (hadd _ _ ["metrics"] ["list"] _ _ _ hplain).1 hadds
  have hfile : ServerSettings.ofFound? (some timelessFile) = some (none, some 0) := by
    rw [timelessFile, ServerSettings.ofFound?, ServerSettings.ofContent?_toUTF8]
    decide +kernel
  refine ⟨hi, hfile, (hline _ _ _ hi).2 "config.toml" _ _ hfile, hreplace _ _, ?_⟩
  obtain ⟨hrun, hafter⟩ := hrun Id timeless _ _ hi
  have hpath : settingsFile timeless.lookup timeless.account
      ["metrics", "--base-url=http://line.test", "list"]
      = "/home/user/.config/uds-client/config.toml" := by decide +kernel
  rw [hrun, hpath]
  exact ((hafter (some timelessFile)).2 _ hfile).1 (.inr (.inr rfl))

end

end DataClient
