import DataClient.Settings.Basic
import DataClient.Toml.Document

/-!
# The configuration file

The table `server` of a document holds the settings; what it leaves out keeps its default, and names
without a meaning are passed over. The settings may also be listed without names, in order.
-/

set_option autoImplicit false

namespace DataClient.ServerSettings

open Toml

/-- The text of a value, or the place of a value of another kind. -/
def textOf (place : Nat) : Node → Except Nat String
  | .scalar _ (.string s) => .ok s
  | n => .error (n.start?.getD place)

/-- The number of seconds of a value, or the place of a value of another kind. -/
def secondsOf (place : Nat) : Node → Except Nat Nat
  | .scalar start (.integer n) => if 0 ≤ n then .ok n.toNat else .error start
  | n => .error (n.start?.getD place)

/-- Settings with one replaced by a named value. -/
def withEntry (s : ServerSettings) (entry : Key × Node) : Except Nat ServerSettings :=
  if entry.1.name = "base_url" then do
    return { s with baseUrl := ← textOf entry.1.start entry.2 }
  else if entry.1.name = "timeout_secs" then do
    return { s with timeoutSeconds := ← secondsOf entry.1.start entry.2 }
  else return s

/-- Settings from values in order; those behind the second are passed over. -/
def ofItems (place : Nat) : List Node → Except Nat ServerSettings
  | [] => .ok standard
  | [url] => return { standard with baseUrl := ← textOf place url }
  | url :: seconds :: _ => return ⟨← textOf place url, ← secondsOf place seconds⟩

/-- Settings from a value; a date says nothing about them. -/
def ofNode (place : Nat) : Node → Except Nat ServerSettings
  | .table _ _ entries => entries.foldlM withEntry standard
  | .array _ items => ofItems place items
  | .tables items => ofItems place items
  | .scalar _ (.date _) => .ok standard
  | n => .error (n.start?.getD place)

/-- Settings from a document, or the place of what is wrong in it. -/
def ofDocument (entries : Entries) : Except Nat ServerSettings :=
  match List.find? (fun e : Key × Node => e.1.name == "server") entries with
  | some (key, n) => ofNode key.start n
  | none => .ok standard

/-- Settings from the text of a file. -/
def ofText (path text : String) : Except ClientError ServerSettings :=
  (Toml.read text >>= ofDocument).mapError fun offset =>
    let (line, column) := lineAndColumn text.toList offset
    .config ("Configuration error in " ++ path ++ ":\n  TOML parse error at line " ++ toString line
      ++ ", column " ++ toString column)

/-- Settings from what a file holds, or from the reason why it cannot be read. -/
def ofFile (path : String) (content : Except ReadFault ByteArray) :
    Except ClientError ServerSettings :=
  let unreadable (e : ReadFault) : ClientError :=
    .config ("Failed to read config file: " ++ e.message)
  match content with
  | .error e => .error (unreadable e)
  | .ok bytes =>
    match Text.ofBytes? bytes with
    | some text => ofText path text
    | none => .error (unreadable .notText)

end DataClient.ServerSettings
