import DataClient.Command.Grammar

/-!
# Help

What is printed instead of running a command: the use of a level, the version, or why a command line
is not understood.
-/

set_option autoImplicit false

namespace DataClient.Cli

/-- An entry of a list: what it is about, and what there is to say. -/
abbrev HelpEntry := String × String

/-- A list with a heading; all second columns begin in the same place. -/
def helpSection (heading : String) (entries : List HelpEntry) : String :=
  let width := entries.foldl (fun w e => max w e.1.length) 0
  if entries.isEmpty then ""
  else "\n" ++ heading ++ ":\n" ++ String.join (entries.map fun e =>
    "  " ++ e.1 ++ (if e.2 = "" then ""
      else String.ofList (List.replicate (width - e.1.length + 2) ' ') ++ e.2) ++ "\n")

def Parameter.helpEntry (p : Parameter) : HelpEntry :=
  (if p.isOperand then p.shown
    else match p.short with
      | some c => "-" ++ String.singleton c ++ ", " ++ p.shown
      | none => "    " ++ p.shown, p.about)

/-- The line that shows how a level is called. -/
def Level.usage (l : Level) : String :=
  "Usage: " ++ Text.joinWith " " ([l.name, "[OPTIONS]"] ++ l.operands.map (·.shown)
    ++ (if l.commands.isEmpty then [] else ["<COMMAND>"]))

/-- The use of a level. -/
def Level.help (l : Level) : String :=
  let commands := l.commands.map fun c => (c.name, c.about)
  let more := if commands.isEmpty then []
    else [(helpName, "Print this message or the help of the given subcommand(s)")]
  l.about ++ "\n\n" ++ l.usage ++ "\n" ++ helpSection "Commands" (commands ++ more)
    ++ helpSection "Arguments" (l.operands.map Parameter.helpEntry)
    ++ helpSection "Options" ((l.parameters.filter (!·.isOperand)).map Parameter.helpEntry)

/-- All that is told. -/
def Fault.text (program version : String) : Fault → String
  | .help level => level.help
  | .nothingGiven level => level.help
  | fault => fault.message program version ++ "\n"

/-- Whether it was asked for. -/
def Fault.isAnswer : Fault → Bool
  | .help _ => true
  | .version => true
  | _ => false

end DataClient.Cli
