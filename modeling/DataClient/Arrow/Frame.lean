import DataClient.Arrow.Message
import DataClient.Error

/-!
# Frames

A payload in stream form is a sequence of frames: an optional marker, the length of the metadata,
the metadata, and the body that the metadata declares. A zero length, or the end of the bytes, ends
the sequence. `framesFrom` walks the frames and checks every declared length and buffer against the
bytes that are really there, before anything is sized by it.

A check has three ways to end: it goes on, it finds a fault in the payload, or it crashes because it
takes bytes from where there are none.
-/

set_option autoImplicit false

namespace DataClient.Arrow

/-- A check of a payload. -/
abbrev Checked := ExceptT PayloadFault (Except Crash)

def Checked.refuse {α : Type} (e : PayloadFault) : Checked α := ExceptT.mk (.ok (.error e))

/-- The bytes between two positions. -/
def cut (b : ByteArray) (start stop : Nat) : Checked ByteArray :=
  if start ≤ stop ∧ stop ≤ b.size then return b.extract start stop
  else ExceptT.lift (.error (.sliceOutOfRange start stop))

/-- The length that announces that the real length follows. -/
def continuationMarker : Nat := 0xFFFFFFFF

/-- The greatest length of metadata. -/
def maxMetadataLength : Nat := 0x7FFFFFFF

/-- A message in its place. -/
structure Frame where
  /-- Where the frame begins. -/
  start : Nat
  /-- Whether a marker stands before the length. -/
  marked : Bool
  metadataLength : Nat
  bodyLength : Nat
  message : Message

/-- Where the metadata begins. -/
def Frame.metadataStart (f : Frame) : Nat := f.start + (if f.marked then 8 else 4)

/-- Where the body begins. -/
def Frame.bodyStart (f : Frame) : Nat := f.metadataStart + f.metadataLength

/-- Where the frame ends. -/
def Frame.stop (f : Frame) : Nat := f.bodyStart + f.bodyLength

theorem Frame.start_lt_stop (f : Frame) : f.start < f.stop := by
  unfold Frame.stop Frame.bodyStart Frame.metadataStart
  split <;> omega

/-- A part of a given length lies before `limit`; its end. -/
def span (part : PayloadPart) (start length limit : Nat) : Checked Nat :=
  if start + length ≤ limit then return start + length else .refuse (.overrun part length start limit)

/-- A declared number that must not be negative. -/
def nonNegative (number : DeclaredNumber) (value : Int) : Checked Nat :=
  if 0 ≤ value then return value.toNat else .refuse (.negative number value)

/-- The numbers of the batch that a message carries, if it carries one. -/
def Message.batch? (m : Message) : Option BatchHeader :=
  match m.header with
  | .batch h => some h
  | .dictionary _ _ data => data
  | _ => none

/-- Every buffer lies in a body of the given length. -/
def checkBuffers (bodyLength : Nat) : List (Int × Int) → Checked Unit
  | [] => return ()
  | (offset, length) :: rest => do
    let offset ← nonNegative .bufferOffset offset
    let length ← nonNegative .bufferLength length
    let _ ← span .buffer offset length bodyLength
    checkBuffers bodyLength rest

/-- The buffers of the batch that a message carries lie in its body. -/
def Message.checkBuffers (m : Message) (bodyLength : Nat) : Checked Unit :=
  Arrow.checkBuffers bodyLength ((m.batch?.bind BatchHeader.buffers).getD [])

/-- Reads metadata as a message. -/
def readMessage (b : ByteArray) : Checked Message :=
  match Message.ofBytes? b with
  | some m => return m
  | none => .refuse (.unreadableMessage "its tables do not lie inside it")

/-- A length at a position. -/
def lengthAt (b : ByteArray) (pos : Nat) : Checked Nat :=
  match Bytes.u32? b pos with
  | some n => return n
  | none => .refuse (.truncatedLength pos)

/-- The length of the metadata of the frame at a position, and whether a marker stands before it. -/
def metadataLengthAt (b : ByteArray) (pos : Nat) : Checked (Bool × Nat) := do
  let n ← lengthAt b pos
  if n = continuationMarker then return (true, ← lengthAt b (pos + 4)) else return (false, n)

/-- The frame at a position, or nothing if a zero length ends the sequence there. -/
def frameAt (b : ByteArray) (pos : Nat) : Checked (Option Frame) := do
  let (marked, length) ← metadataLengthAt b pos
  if length = 0 then return none
  else if maxMetadataLength < length then .refuse (.lengthOutOfRange length)
  else
    let start := pos + (if marked then 8 else 4)
    let stop ← span .metadata start length b.size
    let message ← readMessage (← cut b start stop)
    let bodyLength ← nonNegative .bodyLength message.bodyLength
    message.checkBuffers bodyLength
    let _ ← span .body stop bodyLength b.size
    return some ⟨pos, marked, length, bodyLength, message⟩

/-- The frames from a position to the end of the sequence. -/
def framesFrom (b : ByteArray) (pos : Nat) : Checked (List Frame) := do
  if pos < b.size then
    match ← frameAt b pos with
    | none => return []
    | some f => if pos < f.stop then return f :: (← framesFrom b f.stop) else return [f]
  else return []
termination_by b.size - pos

/-- The frames of a payload. -/
def frames (b : ByteArray) : Checked (List Frame) := framesFrom b 0

end DataClient.Arrow
