import DataClient.Command.Run
import DataClient.Exchange.Wire
import Std.Async.DNS
import Std.Async.TCP
import Std.Async.Timer

/-!
# The program

Files, the standard streams, and connections. Each message has a connection of its own; services
that have to be reached through an encrypted one cannot be reached. Storage is granted up to a fixed
size, and of the domains beyond ASCII the common ones are read.
-/

set_option autoImplicit false

namespace DataClient.Program

open Std.Async Std.Net

/-- The number of an error of the system, which may be given with its sign turned. -/
def errorNumber (code : UInt32) : Nat := (min code (0 - code)).toNat

/-- Why the system could not read. -/
def readFault : IO.Error → ReadFault
  | .noFileOrDirectory .. => .notFound
  | .noSuchThing .. => .notFound
  | .permissionDenied .. => .denied
  | .inappropriateType _ code details =>
    match errorNumber code with
    | 20 => .notDirectory
    | 21 => .isDirectory
    | number => .other (details ++ " (os error " ++ toString number ++ ")")
  | e => .other (toString e)

/-- Whether a path leads to something. -/
def isPresent (path : String) : IO Bool := do
  try
    discard (IO.FS.realPath path)
    return true
  catch _ => return false

def readFile (path : String) : IO (Except ReadFault ByteArray) := do
  try return .ok (← IO.FS.readBinFile path)
  catch e => return .error (readFault e)

/-- The bytes of the standard input. -/
def readInput : IO (Except ReadFault ByteArray) := do
  try return .ok (← (← IO.getStdin).readBinToEnd)
  catch e => return .error (readFault e)

/-- The home directory of the user's account, as the list of accounts has it. -/
def accountHome : IO (Option String) := do
  try
    let user := (← IO.FS.lines "/proc/self/status").findSome? fun line =>
      match line.splitOn "\t" with
      | "Uid:" :: number :: _ => some number
      | _ => none
    return (← IO.FS.lines "/etc/passwd").findSome? fun line =>
      match line.splitOn ":" with
      | [_, _, number, _, _, home, _] => if some number = user then some home else none
      | _ => none
  catch _ => return none

def addresses (host : Web.Host) (port : UInt16) : Async (List SocketAddress) := do
  let word (ws : List Nat) (i : Nat) : UInt16 := (ws.getD i 0).toUInt16
  match host with
  | .ipv4 n =>
    let byte (i : Nat) : UInt8 := (n / Nat.pow 256 i).toUInt8
    return [.v4 ⟨.ofParts (byte 3) (byte 2) (byte 1) (byte 0), port⟩]
  | .ipv6 ws =>
    let w := word ws
    return [.v6 ⟨.ofParts (w 0) (w 1) (w 2) (w 3) (w 4) (w 5) (w 6) (w 7), port⟩]
  | .domain name =>
    let found ← DNS.getAddrInfo name (toString port.toNat)
    return found.toList.map fun
      | .v4 a => .v4 ⟨a, port⟩
      | .v6 a => .v6 ⟨a, port⟩

/-- A connection to the first address that accepts one. -/
def connect : List SocketAddress → Async (Option TCP.Socket.Client)
  | [] => return none
  | address :: rest => do
    try
      let client ← TCP.Socket.Client.mk
      client.connect address
      return some client
    catch _ => connect rest

/-- The most bytes that are taken from a connection at a time. -/
def pieceSize : UInt64 := 65536

/-- Takes bytes from a connection until what it led to is settled. -/
def receive (client : TCP.Socket.Client) : Async (Except LinkFault Incoming) := do
  let mut arrived := ByteArray.empty
  repeat
    let piece ← try client.recv? pieceSize catch _ => pure none
    arrived := arrived ++ piece.getD ByteArray.empty
    if let some outcome := Wire.outcome? piece.isNone arrived.data.toList then
      return outcome
  return .error .noAnswer

/-- Exchanges a message for an answer. -/
def exchange (message : Outgoing) : Async (Except LinkFault Incoming) := do
  match message.target.place with
  | some (host, some port) =>
    if message.target.scheme = "https" then return .error .unreachable
    let found ← try addresses host port.toUInt16 catch _ => pure []
    match ← connect found with
    | none => return .error .unreachable
    | some client =>
      try
        client.send (Wire.write message)
        receive client
      catch _ => return .error .noAnswer
  | _ => return .error .unreachable

/-- Gives up after so many milliseconds. -/
def giveUp (milliseconds : Nat) : Async (Except LinkFault Incoming) := do
  sleep (Std.Time.Millisecond.Offset.ofNat milliseconds)
  return .error .timeout

/-- Delivers a message over the network. -/
def network : Link IO := fun message =>
  (Async.race (exchange message) (giveUp message.timeout)).block

end DataClient.Program

open DataClient Web.Domain Allocator.Sized in
/-- Runs the program. -/
def main (arguments : List String) : IO UInt32 := do
  let names := ["UDS_BASE_URL", "UDS_TIMEOUT_SECS", "XDG_CONFIG_HOME", "HOME"]
  let environment ← names.mapM fun name => return (name, ← IO.getEnv name)
  let surroundings : Surroundings IO := {
    lookup := fun name => (environment.lookup name).join
    account := ← Program.accountHome
    present := Program.isPresent
    file := Program.readFile
    stdin := Program.readInput
    link := Program.network }
  match ← run surroundings arguments with
  | .ok exit =>
    IO.print exit.stdout
    IO.eprint exit.stderr
    return exit.code
  | .error crash =>
    IO.eprintln crash.message
    return if crash.isPanic then 101 else 134
