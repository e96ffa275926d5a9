import DataClient.Number.Integer
import DataClient.Output
import DataClient.Query.Submission

/-!
# Grammars of command lines

A command line is read level by level: each level has options, which begin with a dash, and either
operands or commands, each of which is a level of its own. Options that are global belong to
every level.

A value may be given as an option's next argument or attached to the option. Values are checked as
soon as the next option, operand or command follows; what a level leaves out is taken from the
environment. A level is checked after the levels below it.
-/

set_option autoImplicit false

namespace DataClient.Cli

/-- What a value has to be. -/
inductive ValueKind
  | text
  /-- A text that is not empty. -/
  | path
  | unsigned
  | signed
  | outputFormat
  | resultFormat
  deriving DecidableEq, Repr

/-- What happens when a parameter is met. -/
inductive Role
  /-- A value is taken. -/
  | value (kind : ValueKind)
  | flag
  | help
  | version
  deriving DecidableEq, Repr

/-- An option or an operand. -/
structure Parameter where
  key : String
  /-- How it is shown in a message. -/
  shown : String
  long : Option String
  short : Option Char
  role : Role
  isOperand : Bool
  required : Bool
  /-- A parameter that stands in for this one, and cannot be given beside it. -/
  instead : Option String
  /-- The variable that gives the value where the command line does not. -/
  fromVariable : Option String
  about : String
  deriving DecidableEq, Repr

/-- A level of a command line. -/
inductive Level
  | mk (name about : String) (parameters : List Parameter) (commands : List Level)

/-- The name of the command that explains others. -/
def helpName : String := "help"

namespace Level

/-- The name that calls the level. -/
def name : Level → String
  | .mk name _ _ _ => name

def about : Level → String
  | .mk _ about _ _ => about

/-- The options and operands of the level. -/
def parameters : Level → List Parameter
  | .mk _ _ parameters _ => parameters

/-- The levels below. -/
def commands : Level → List Level
  | .mk _ _ _ commands => commands

/-- The operands, in order. -/
def operands (l : Level) : List Parameter := l.parameters.filter (·.isOperand)

/-- The level below of a name. -/
def find? (l : Level) (name : String) : Option Level := l.commands.find? (·.name == name)

/-- Whether a name calls a command: one of the level's own, or the one that explains them. -/
def hasCommand (l : Level) (name : String) : Bool :=
  (l.find? name).isSome || (name == helpName && !l.commands.isEmpty)

end Level

/-- Why a command line is not understood, or what it asks to be told instead. -/
inductive Fault
  /-- The use of the level is asked for. -/
  | help (level : Level)
  /-- Nothing was given where something has to be. -/
  | nothingGiven (level : Level)
  | version
  | missingRequired
  | unknownCommand (name : String)
  | unknownArgument (text : String)
  | invalidValue (value shown why : String)
  | emptyValue (shown : String)
  | unneededValue (value shown : String)
  | repeated (shown : String)
  | conflict (shown other : String)
  /-- A level needs one of its commands; it is named by the words that lead to it. -/
  | missingCommand (words : String)

/-- What is told in one line; a value that it repeats may hold line breaks of its own. -/
def Fault.message (program version : String) : Fault → String
  | .help level => level.about
  | .nothingGiven level => level.about
  | .version => program ++ " " ++ version
  | .missingRequired => "error: the following required arguments were not provided:"
  | .unknownCommand name => "error: unrecognized subcommand '" ++ name ++ "'"
  | .unknownArgument text => "error: unexpected argument '" ++ text ++ "' found"
  | .invalidValue value shown why =>
    "error: invalid value '" ++ value ++ "' for '" ++ shown ++ "': " ++ why
  | .emptyValue shown => "error: a value is required for '" ++ shown ++ "' but none was supplied"
  | .unneededValue value shown =>
    "error: unexpected value '" ++ value ++ "' for '" ++ shown ++ "' found; no more were expected"
  | .repeated shown => "error: the argument '" ++ shown ++ "' cannot be used multiple times"
  | .conflict shown other =>
    "error: the argument '" ++ shown ++ "' cannot be used with '" ++ other ++ "'"
  | .missingCommand words => "error: '" ++ words ++ "' requires a subcommand but one was not provided"

/-- The first line of what is told. -/
def Fault.firstLine (program version : String) (fault : Fault) : String :=
  String.ofList ((fault.message program version).toList.takeWhile (· != '\n'))

/-- Where a value comes from; a later constructor outranks an earlier one. -/
inductive Origin
  | environment
  | commandLine
  deriving DecidableEq, Repr

/-- A value of a parameter. -/
structure Given where
  key : String
  value : String
  origin : Origin
  deriving DecidableEq, Repr

/-! ## One level -/

/-- How far a level has been read. -/
structure State where
  given : List Given
  /-- A parameter whose values have not been checked yet. -/
  pending : Option (Parameter × List String)
  /-- The next argument is the value of the pending option. -/
  awaiting : Bool
  /-- How many operands have been met. -/
  position : Nat
  /-- Everything from here on is an operand. -/
  trailing : Bool

/-- Nothing has been read. -/
def State.start : State := ⟨[], none, false, 0, false⟩

def ValueKind.check (kind : ValueKind) (shown value : String) : Except Fault Unit :=
  let refuse (why : String) : Except Fault Unit := .error (.invalidValue value shown why)
  match kind with
  | .text => .ok ()
  | .path => if value = "" then .error (.emptyValue shown) else .ok ()
  | .unsigned =>
    match Number.unsigned64 value with
    | .ok _ => .ok ()
    | .error e => refuse e.message
  | .signed =>
    match Number.signed64 value with
    | .ok _ => .ok ()
    | .error e => refuse e.message
  | .outputFormat =>
    match OutputFormat.ofString? value with
    | .ok _ => .ok ()
    | .error why => refuse why
  | .resultFormat =>
    match ResultFormat.ofString? value with
    | .ok _ => .ok ()
    | .error why => refuse why

/-- The value of a key. -/
def lookup? (key : String) (given : List Given) : Option Given := given.find? (·.key == key)

/-- Checks the values of a parameter and keeps them. -/
def State.enter (level : Level) (s : State) (p : Parameter) (origin : Origin)
    (values : List String) : Except Fault State :=
  let keep (value : String) : Except Fault State :=
    if (lookup? p.key s.given).isSome then .error (.repeated p.shown)
    else .ok { s with given := s.given ++ [⟨p.key, value, origin⟩] }
  match p.role, values with
  | .help, _ => .error (.help level)
  | .version, _ => .error .version
  | .flag, _ => keep "true"
  | .value _, [] => .error (.emptyValue p.shown)
  | .value kind, value :: _ => do
    let s ← keep value
    kind.check p.shown value
    return s

/-- Checks what is pending. -/
def State.settle (level : Level) (s : State) : Except Fault State :=
  match s.pending with
  | none => .ok s
  | some (p, values) => { s with pending := none }.enter level p .commandLine values

/-- Takes a parameter with values that are complete. -/
def State.take (level : Level) (s : State) (p : Parameter) (values : List String) :
    Except Fault State := do
  let s ← s.settle level
  let s ← s.enter level p .commandLine values
  return { s with awaiting := false }

/-- Takes an option whose value is the next argument. -/
def State.await (level : Level) (s : State) (p : Parameter) : Except Fault State := do
  let s ← s.settle level
  return { s with pending := some (p, []), awaiting := true }

/-- Takes an option with the value attached to it, if there is one. -/
def State.option (level : Level) (s : State) (p : Parameter) (value : Option String) :
    Except Fault State :=
  match p.role, value with
  | .value _, some v => s.take level p [v]
  | .value _, none => s.await level p
  | _, some v => .error (.unneededValue v p.shown)
  | _, none => s.take level p []

/-- Reads an option by its long name. -/
def State.long (level : Level) (s : State) (name : String) (value : Option String) :
    Except Fault State :=
  match level.parameters.find? (·.long == some name) with
  | some p => s.option level p value
  | none => .error (.unknownArgument ("--" ++ name))

/-- Reads options by their short names, which may stand together; what follows the name of one that
takes a value is the value. -/
def State.shorts (level : Level) (s : State) : List Char → Except Fault State
  | [] => .ok s
  | c :: cs =>
    match level.parameters.find? (·.short == some c) with
    | none => .error (.unknownArgument (String.ofList ['-', c]))
    | some p =>
      match p.role, cs with
      | .value _, [] => s.option level p none
      | .value _, '=' :: v => s.option level p (some (String.ofList v))
      | .value _, v => s.option level p (some (String.ofList v))
      | _, _ => do
        let s ← s.option level p none
        s.shorts level cs

/-- Reads an operand. -/
def State.operand (level : Level) (s : State) (text : String) : Except Fault State :=
  match level.operands[s.position]? with
  | some p => do
    let s ← s.settle level
    return { s with pending := some (p, [text]), awaiting := false, position := s.position + 1 }
  | none =>
    if level.commands.isEmpty ∨ (s.trailing ∧ level.hasCommand text) then
      .error (.unknownArgument text)
    else .error (.unknownCommand text)

/-- An argument as it is read. -/
inductive Shape
  /-- Two dashes alone. -/
  | escape
  | long (name : String) (value : Option String)
  | short (names : List Char)
  | plain

/-- What an argument looks like. -/
def Shape.of (text : String) : Shape :=
  match text.toList with
  | ['-', '-'] => .escape
  | '-' :: '-' :: cs =>
    let name := cs.takeWhile (· != '=')
    match cs.dropWhile (· != '=') with
    | '=' :: v => .long (String.ofList name) (some (String.ofList v))
    | _ => .long (String.ofList name) none
  | ['-'] => .plain
  | '-' :: cs => .short cs
  | _ => .plain

/-- Reads an argument that calls no command. -/
def State.argument (level : Level) (s : State) (text : String) : Except Fault State :=
  if s.trailing then s.operand level text
  else match Shape.of text with
    | .escape => .ok { s with trailing := true }
    | .long name value => s.long level name value
    | .short names => s.shorts level names
    | .plain =>
      match s.awaiting, s.pending with
      | true, some (p, values) =>
        .ok { s with pending := some (p, values ++ [text]), awaiting := false }
      | _, _ => s.operand level text

/-- Adds what the environment gives and the command line does not. -/
def State.complete (level : Level) (environment : String → Option String) :
    State → List Parameter → Except Fault State
  | s, [] => .ok s
  | s, p :: ps =>
    match p.fromVariable.bind environment with
    | some value =>
      if (lookup? p.key s.given).isSome then s.complete level environment ps
      else do
        let s ← s.enter level p .environment [value]
        s.complete level environment ps
    | none => s.complete level environment ps

/-- The first parameter that was given beside the one it stands in for. -/
def firstConflict? (parameters : List Parameter) (given : List Given) : Option Fault :=
  given.findSome? fun g => do
    let p ← parameters.find? (·.key == g.key)
    let other ← parameters.find? fun q =>
      (lookup? q.key given).isSome && (p.instead == some q.key || q.instead == some p.key)
    return .conflict p.shown other.shown

/-- Whether a parameter has to be given and is not. -/
def isMissing (given : List Given) (p : Parameter) : Bool :=
  p.required && (lookup? p.key given).isNone
    && (match p.instead with
      | some key => (lookup? key given).isNone
      | none => true)

/-- Ends a level: `words` lead to it, and `called` says whether one of its commands was called. -/
def State.finish (level : Level) (environment : String → Option String) (words : String)
    (called : Bool) (s : State) : Except Fault (List Given) := do
  let s ← s.settle level
  let s ← s.complete level environment level.parameters
  if !called ∧ !level.commands.isEmpty then
    throw (if s.given.isEmpty then .nothingGiven level else .missingCommand words)
  match firstConflict? level.parameters s.given with
  | some fault => throw fault
  | none => if level.parameters.any (isMissing s.given) then throw .missingRequired
  return s.given

/-! ## All levels -/

/-- What the command `help` tells: the level that the words behind it lead to. -/
def helpFault (level : Level) : List String → Fault
  | [] => .help level
  | word :: rest =>
    match level.find? word with
    | some below => helpFault below rest
    | none =>
      if word = helpName ∧ !level.commands.isEmpty then
        match rest with
        | [] => .help level
        | other :: _ => .unknownCommand other
      else .unknownCommand word

/-- The values given at each level, with the names of the levels, outermost first. -/
abbrev Reading := List (String × List Given)

/-- Reads the arguments of a level and of the levels below it. -/
def readLevel (environment : String → Option String) (level : Level) (words : String) (s : State) :
    List String → Except Fault Reading
  | [] => do return [(level.name, ← s.finish level environment words false)]
  | text :: rest =>
    let mayCall := !s.trailing && !s.awaiting
    match (if mayCall then level.find? text else none) with
    | some below => do
      let inner ← readLevel environment below (words ++ " " ++ text) .start rest
      return (level.name, ← s.finish level environment words true) :: inner
    | none =>
      if mayCall ∧ !level.commands.isEmpty ∧ text = helpName then .error (helpFault level rest)
      else do
        let s ← s.argument level text
        readLevel environment level words s rest

/-- Reads a command line. -/
def read (environment : String → Option String) (level : Level) (arguments : List String) :
    Except Fault Reading :=
  readLevel environment level level.name .start arguments

/-- The value of a global option: of the levels that have one of the highest origin, the
innermost. -/
def globalValue? (key : String) (reading : Reading) : Option Given :=
  reading.foldl (fun best (_, given) =>
    match best, lookup? key given with
    | some b, some g => if b.origin = .commandLine ∧ g.origin = .environment then some b else some g
    | none, found => found
    | found, none => found) none

end DataClient.Cli
