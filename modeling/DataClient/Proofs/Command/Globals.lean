import DataClient.Command.Invocation
import DataClient.Proofs.Command.Additions

/-!
# The settings of an invocation
-/

set_option autoImplicit false

namespace DataClient.Invocation

open Cli Outcome

variable {key : String} {gs gs' : List Given} {reading reading' : Reading}

/-- The keys that a command is made of. -/
def commandKeys : List String := ["sql", "file", "get", "id", "json", "name", "path"]

theorem value?_agree {other : String} (h : Agree key gs gs') (hne : other ≠ key) :
    value? other gs' = value? other gs := by
  rw [value?, value?, h other hne]

theorem action?_agree (h : Agree key gs gs') (hkey : key ∉ commandKeys) (name : String) :
    action? name gs' = action? name gs := by
  have hid : id? gs' = id? gs := by
    unfold id?
    rw [value?_agree h fun hid => hkey (hid ▸ by decide)]
  have hjson : value? "json" gs' = value? "json" gs :=
    value?_agree h fun hjson => hkey (hjson ▸ by decide)
  unfold action?
  rw [hid, hjson]

/-- The command of a level below the first. -/
theorem command?_singleton (n : String) (gs : List Given) :
    command? [(n, gs)] =
      if n = "query" then some (.query {
        sql := value? "sql" gs
        file := value? "file" gs
        get := (value? "get" gs).bind fun s => (ResultFormat.ofString? s).toOption })
      else if n = "open" then some (.open ((value? "path" gs).getD "/") (value? "sql" gs))
      else none := by
  unfold command?
  split <;> simp_all

/-- The command of two levels below the first. -/
theorem command?_pair (n m : String) (gs hs : List Given) :
    command? [(n, gs), (m, hs)] =
      if n = "metrics" then (action? m hs).map .metrics
      else if n = "tables" then
        if m = "by-name" then (value? "name" hs).map fun n => .tables (.byName n)
        else (action? m hs).map fun a => .tables (.basic a)
      else if n = "configs" then
        if m = "preview" then (id? hs).map fun n => .configs (.preview n)
        else (action? m hs).map fun a => .configs (.basic a)
      else none := by
  unfold command?
  split <;> simp_all
  rename_i hmetrics htables hconfigs
  rw [if_neg fun h => hmetrics gs m hs h rfl rfl rfl, if_neg fun h => htables gs m hs h rfl rfl rfl,
    if_neg fun h => hconfigs gs m hs h rfl rfl rfl]

theorem command?_of_three (l₁ l₂ l₃ : String × List Given) (rest : Reading) :
    command? (l₁ :: l₂ :: l₃ :: rest) = none := by
  unfold command?
  split <;> simp_all

theorem command?_alike (h : Alike key reading reading') (hkey : key ∉ commandKeys) :
    command? reading' = command? reading := by
  have hvalue : ∀ other ∈ commandKeys, ∀ {gs gs' : List Given}, Agree key gs gs' →
      value? other gs' = value? other gs :=
    fun other hmem gs gs' h => value?_agree h fun heq => hkey (heq ▸ hmem)
  cases h with
  | nil => rfl
  | @cons l l' reading reading' hl h =>
    obtain ⟨n, gs⟩ := l
    obtain ⟨n', gs'⟩ := l'
    obtain ⟨rfl, hgs⟩ : n' = n ∧ Agree key gs gs' := hl
    cases h with
    | nil =>
      rw [command?_singleton, command?_singleton, hvalue "sql" (by decide) hgs,
        hvalue "file" (by decide) hgs, hvalue "get" (by decide) hgs, hvalue "path" (by decide) hgs]
    | @cons l l' reading reading' hl h =>
      obtain ⟨m, hs⟩ := l
      obtain ⟨m', hs'⟩ := l'
      obtain ⟨rfl, hhs⟩ : m' = m ∧ Agree key hs hs' := hl
      cases h with
      | nil =>
        rw [command?_pair, command?_pair, action?_agree hhs hkey, id?, id?,
          hvalue "id" (by decide) hhs, hvalue "name" (by decide) hhs]
      | cons _ _ => rw [command?_of_three, command?_of_three]

theorem globalValue?_alike {other : String} (h : Alike key reading reading') (hne : other ≠ key) :
    globalValue? other reading' = globalValue? other reading := by
  rw [globalValue?_eq_foldl, globalValue?_eq_foldl]
  generalize (none : Option Given) = best
  induction h generalizing best with
  | nil => rfl
  | cons hl _ ih => rw [List.foldl_cons, List.foldl_cons, hl.2 other hne, ih]

/-! ## The settings among the global options -/

/-- What a level needs for every setting that is global to be offered. -/
def Suits (own : List Parameter) : Prop :=
  ∀ p ∈ globals, p.wantsValue = true →
    (own ++ globals).find? (·.long == some p.key) = some p ∧
      ∀ q ∈ own ++ globals, (q.key = p.key → q = p) ∧ q.instead ≠ some p.key ∧
        (q.fromVariable = p.fromVariable → q = p ∨ p.fromVariable = none)

instance (own : List Parameter) : Decidable (Suits own) := by
  unfold Suits
  infer_instance

variable {p : Parameter}

theorem isSetting_of_mem_globals (hp : p ∈ globals) (hwants : p.wantsValue = true) :
    p.IsSetting := by
  have hall : ∀ p ∈ globals, p.wantsValue = true → p.key ≠ "" ∧ '=' ∉ p.key.toList ∧
      p.long = some p.key ∧ p.short = none ∧ p.isOperand = false ∧ p.required = false ∧
      p.instead = none := by decide
  obtain ⟨hnamed, hunmarked, hlong, hshort, hoption, hoptional, halone⟩ := hall p hp hwants
  exact ⟨hnamed, hunmarked, hwants, hlong, hshort, hoption, hoptional, halone⟩

section Grammar

variable (hp : p ∈ globals) (hwants : p.wantsValue = true)
include hp hwants

theorem Suits.offered {own : List Parameter} (hown : Suits own) (name about : String)
    {commands : List Level}
    (hbelow : ∀ c ∈ commands, Shape.of c.name = .plain ∧ p.Offered c) :
    p.Offered (level name about own commands) := by
  obtain ⟨hfind, hall⟩ := hown p hp hwants
  exact .mk hfind (fun q hq => (hall q hq).1) (fun q hq => (hall q hq).2.1)
    (fun q hq => (hall q hq).2.2) (fun c hc => (hbelow c hc).1) fun c hc => (hbelow c hc).2

/-- A level below another that has no commands of its own. -/
theorem Suits.leaf {own : List Parameter} (hown : Suits own) (name about : String)
    (hplain : Shape.of name = .plain) :
    Shape.of (level name about own []).name = .plain ∧ p.Offered (level name about own []) :=
  ⟨hplain, hown.offered hp hwants name about (List.forall_mem_nil _)⟩

theorem offered_actions (one many article : String) :
    ∀ c ∈ actions one many article, Shape.of c.name = .plain ∧ p.Offered c := by
  have hnone : Suits [] := by decide
  have hid : Suits [idOperand] := by decide
  have hjson : Suits [jsonOperand] := by decide
  have hboth : Suits [idOperand, jsonOperand] := by decide
  simp only [actions, List.forall_mem_cons]
  exact ⟨hnone.leaf hp hwants _ _ rfl, hid.leaf hp hwants _ _ rfl, hjson.leaf hp hwants _ _ rfl,
    hboth.leaf hp hwants _ _ rfl, hid.leaf hp hwants _ _ rfl, List.forall_mem_nil _⟩

/-- Every level of the grammar offers every setting that is global. -/
theorem offered_grammar : p.Offered grammar := by
  have hnone : Suits [] := by decide
  have hid : Suits [idOperand] := by decide
  have hname : Suits [operand "name" "NAME" .text] := by decide
  have hmore : ∀ one many article leaf, (Shape.of leaf.name = .plain ∧ p.Offered leaf) →
      ∀ c ∈ actions one many article ++ [leaf], Shape.of c.name = .plain ∧ p.Offered c := by
    intro one many article leaf hleaf c hc
    rcases List.mem_append.1 hc with hc | hc
    · exact offered_actions hp hwants _ _ _ c hc
    · rw [List.mem_singleton.1 hc]
      exact hleaf
  refine Suits.offered hp hwants (by decide) _ _ ?_
  simp only [List.forall_mem_cons]
  exact ⟨Suits.leaf hp hwants (by decide) _ _ rfl,
    ⟨rfl, hnone.offered hp hwants _ _ (offered_actions hp hwants _ _ _)⟩,
    ⟨rfl, hnone.offered hp hwants _ _ (hmore _ _ _ _ (hname.leaf hp hwants _ _ rfl))⟩,
    ⟨rfl, hnone.offered hp hwants _ _ (hmore _ _ _ _ (hid.leaf hp hwants _ _ rfl))⟩,
    Suits.leaf hp hwants (by decide) _ _ rfl, List.forall_mem_nil _⟩

/-- The value of a setting on a command line of the program. -/
theorem globalValue?_of_read {environment : String → Option String} {arguments : List String}
    (hread : Cli.read environment grammar arguments = .ok reading) :
    (globalValue? p.key reading).map (·.value)
        = (spoken p.key arguments).getLast?.or (p.fromVariable.bind environment) ∧
      ∀ g, globalValue? p.key reading = some g → p.Takes [g.value] g.value :=
  globalValue?_eq (isSetting_of_mem_globals hp hwants) (offered_grammar hp hwants) hread

end Grammar

/-- The option for the base address. -/
def baseUrlOption : Parameter := globals[0]

/-- The option for the number of seconds. -/
def timeoutOption : Parameter := globals[1]

/-- The option for the configuration file. -/
def configOption : Parameter := globals[2]

theorem takes_baseUrl (v : String) : baseUrlOption.Takes [v] v := ⟨rfl, rfl⟩

theorem takes_timeout_iff {v : String} :
    timeoutOption.Takes [v] v ↔ ∃ n, Number.unsigned64 v = .ok n := by
  have hcheck : timeoutOption.Takes [v] v ↔
      v = v ∧ ValueKind.check .unsigned timeoutOption.shown v = .ok () := Iff.rfl
  rw [hcheck, ValueKind.check]
  cases Number.unsigned64 v <;> simp

/-! ## Invocations -/

section Invocations

variable {environment swapped : String → Option String} {arguments before after : List String}
  {i : Invocation}

/-- The invocation that has a command and takes the rest from a reading. -/
def ofCommand (command : Command) (reading : Reading) : Invocation :=
  let value (key : String) : Option String := (globalValue? key reading).map (·.value)
  { baseUrl := value "base-url"
    timeoutSeconds := (value "timeout").bind fun s => (Number.unsigned64 s).toOption
    configPath := value "config"
    format := ((value "format").bind fun s => (OutputFormat.ofString? s).toOption).getD .text
    verbose := (value "verbose").isSome
    command }

theorem ofArguments_eq_ok :
    ofArguments environment arguments = .ok i ↔ ∃ reading command,
      Cli.read environment grammar arguments = .ok reading ∧
      command? reading.tail = some command ∧ i = ofCommand command reading := by
  unfold ofArguments
  rw [bind_eq_ok]
  refine exists_congr fun reading => ?_
  unfold ofReading?
  cases command? reading.tail with
  | none => simp
  | some command => simp [ofCommand, pure, Except.pure, eq_comm]

/-- **What a command line and its environment give.** Each setting is the last that is spoken, and
else the one of its variable; only a file has no variable. A number of seconds can be read. -/
theorem settings_of_ofArguments (h : ofArguments environment arguments = .ok i) :
    i.baseUrl = (spoken "base-url" arguments).getLast?.or (environment "UDS_BASE_URL") ∧
      i.timeoutSeconds.map .ok = ((spoken "timeout" arguments).getLast?.or
        (environment "UDS_TIMEOUT_SECS")).map Number.unsigned64 ∧
      i.configPath = (spoken "config" arguments).getLast? := by
  obtain ⟨reading, command, hread, -, rfl⟩ := ofArguments_eq_ok.1 h
  have hbase := globalValue?_of_read (p := baseUrlOption) (by decide) rfl hread
  have htimeout := globalValue?_of_read (p := timeoutOption) (by decide) rfl hread
  have hconfig := globalValue?_of_read (p := configOption) (by decide) rfl hread
  refine ⟨hbase.1, ?_, ?_⟩
  · rw [← show (globalValue? "timeout" reading).map (·.value) = (spoken "timeout" arguments).getLast?.or
      (environment "UDS_TIMEOUT_SECS") from htimeout.1]
    simp only [ofCommand]
    cases hg : globalValue? "timeout" reading with
    | none => rfl
    | some g =>
      obtain ⟨n, hn⟩ := takes_timeout_iff.1 (htimeout.2 g hg)
      simp [hn, Except.toOption]
  · exact hconfig.1.trans (Option.or_none)

/-- A setting added to a command line of the program leaves the command as it is. -/
theorem exists_ofCommand {p : Parameter} {value : Option String} {form : List String}
    (hp : p ∈ globals) (hwants : p.wantsValue = true)
    (hadds : Adds p grammar environment swapped before after value form)
    (h : ofArguments environment (before ++ after) = .ok i) :
    ∃ reading reading' command, i = ofCommand command reading ∧
      ofArguments swapped (before ++ form ++ after) = .ok (ofCommand command reading') ∧
      (globalValue? p.key reading').map (·.value) = value.or (p.fromVariable.bind swapped) ∧
      ∀ other, other ≠ p.key → globalValue? other reading' = globalValue? other reading := by
  have hkey : ∀ p ∈ globals, p.key ∉ commandKeys := by decide
  obtain ⟨reading, command, hread, hcommand, rfl⟩ := ofArguments_eq_ok.1 h
  obtain ⟨reading', hread', halike, hvalue⟩ := hadds.exists_read
    (isSetting_of_mem_globals hp hwants) (offered_grammar hp hwants) hread
  have htail : Alike p.key reading.tail reading'.tail := by
    cases halike with
    | nil => exact .nil
    | cons _ htail => exact htail
  refine ⟨reading, reading', command, rfl, ofArguments_eq_ok.2 ⟨reading', command, hread', ?_, rfl⟩,
    hvalue, fun other => globalValue?_alike halike⟩
  rw [command?_alike htail (hkey p hp), hcommand]

/-- The base address can be added to a command line, and changes nothing else. -/
theorem ofArguments_adds_baseUrl {value : Option String} {form : List String}
    (hadds : Adds baseUrlOption grammar environment swapped before after value form)
    (h : ofArguments environment (before ++ after) = .ok i) :
    ofArguments swapped (before ++ form ++ after)
      = .ok { i with baseUrl := value.or (swapped "UDS_BASE_URL") } := by
  obtain ⟨reading, reading', command, rfl, hnew, hvalue, hsame⟩ :=
    exists_ofCommand (p := baseUrlOption) (by decide) rfl hadds h
  have hvalue : (globalValue? "base-url" reading').map (·.value)
      = value.or (swapped "UDS_BASE_URL") := hvalue
  simp only [hnew, ofCommand, hvalue, hsame "timeout" (by decide), hsame "config" (by decide),
    hsame "format" (by decide), hsame "verbose" (by decide)]

/-- The number of seconds can be added to a command line, and changes nothing else. -/
theorem ofArguments_adds_timeout {value : Option String} {form : List String}
    (hadds : Adds timeoutOption grammar environment swapped before after value form)
    (h : ofArguments environment (before ++ after) = .ok i) :
    ofArguments swapped (before ++ form ++ after)
      = .ok { i with timeoutSeconds := (value.or (swapped "UDS_TIMEOUT_SECS")).bind fun s =>
          (Number.unsigned64 s).toOption } := by
  obtain ⟨reading, reading', command, rfl, hnew, hvalue, hsame⟩ :=
    exists_ofCommand (p := timeoutOption) (by decide) rfl hadds h
  have hvalue : (globalValue? "timeout" reading').map (·.value)
      = value.or (swapped "UDS_TIMEOUT_SECS") := hvalue
  simp only [hnew, ofCommand, hvalue, hsame "base-url" (by decide), hsame "config" (by decide),
    hsame "format" (by decide), hsame "verbose" (by decide)]

end Invocations

end DataClient.Invocation
