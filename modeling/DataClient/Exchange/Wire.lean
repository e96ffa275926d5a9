import DataClient.Exchange.Remote
import DataClient.Number.Integer

/-!
# Messages on the wire

A message is a head of lines, an empty line, and a body. The head says how long the body is: so many
bytes, or chunks that announce their lengths up to an empty one, or everything until the connection
ends. What has arrived is either not yet an answer, or an answer, or can never become one.
-/

set_option autoImplicit false

namespace DataClient.Wire

/-! ## Sending -/

/-- A line of a head. -/
def fieldLine (name value : String) : String := name ++ ": " ++ value ++ "\r\n"

/-- A line of a head, if there is something to say. -/
def optionalLine (name : String) (value : Option String) : String := value.elim "" (fieldLine name)

/-- Whether a message says how long its body is. -/
def announcesLength (message : Outgoing) : Bool :=
  !message.body.isEmpty || message.method == .post || message.method == .put

/-- The bytes of a message on a connection of its own. -/
def write (message : Outgoing) : ByteArray :=
  let head := message.method.name ++ " " ++ message.target.writeTarget ++ " HTTP/1.1\r\n"
    ++ optionalLine "content-type" message.contentType
    ++ fieldLine "accept" message.accept
    ++ optionalLine "authorization" message.authorization
    ++ optionalLine "host" (message.target.authority.map (·.writePlace))
    ++ (if announcesLength message then fieldLine "content-length" (toString message.body.size) else "")
    ++ fieldLine "connection" "close" ++ "\r\n"
  head.toUTF8 ++ message.body

/-! ## Receiving -/

/-- The head of an answer. -/
structure Head where
  status : Nat
  /-- Names in lower case, and the bytes of the values. -/
  fields : List (String × List UInt8)

/-- How long a body is. -/
inductive BodyLength
  | exactly (n : Nat)
  | chunked
  | untilEnd
  deriving DecidableEq, Repr

/-- What the bytes that have arrived amount to. -/
inductive Arrival
  | incomplete
  | complete (answer : Incoming)
  | broken

/-- The bytes of the first line, without its end, and those behind it. -/
def cutLine : List UInt8 → Option (List UInt8 × List UInt8)
  | [] => none
  | 0x0A :: rest => some ([], rest)
  | 0x0D :: 0x0A :: rest => some ([], rest)
  | b :: rest => (cutLine rest).map fun (line, rest) => (b :: line, rest)

theorem cutLine_length {bytes line rest : List UInt8} (h : cutLine bytes = some (line, rest)) :
    rest.length < bytes.length := by
  fun_induction cutLine bytes generalizing line with
  | case1 => simp at h
  | case2 rest' =>
    simp only [Option.some.injEq, Prod.mk.injEq] at h
    simp only [← h.2, List.length_cons]
    omega
  | case3 rest' =>
    simp only [Option.some.injEq, Prod.mk.injEq] at h
    simp only [← h.2, List.length_cons]
    omega
  | case4 b rest' _ _ ih =>
    simp only [Option.map_eq_some_iff, Prod.mk.injEq, Prod.exists] at h
    obtain ⟨l, r, hc, _, rfl⟩ := h
    have := ih hc
    simp only [List.length_cons]
    omega

/-- The lines up to an empty one, and the bytes behind that. -/
def cutHead (bytes : List UInt8) : Option (List (List UInt8) × List UInt8) :=
  match _h : cutLine bytes with
  | none => none
  | some ([], rest) => some ([], rest)
  | some (line, rest) => (cutHead rest).map fun (lines, rest) => (line :: lines, rest)
termination_by bytes.length
decreasing_by exact cutLine_length _h

theorem cutHead_length {bytes rest : List UInt8} {lines : List (List UInt8)}
    (h : cutHead bytes = some (lines, rest)) : rest.length < bytes.length := by
  fun_induction cutHead bytes generalizing lines with
  | case1 => simp at h
  | case2 _ rest' hc =>
    simp only [Option.some.injEq, Prod.mk.injEq] at h
    exact h.2 ▸ cutLine_length hc
  | case3 _ line rest' _ hc ih =>
    simp only [Option.map_eq_some_iff, Prod.mk.injEq, Prod.exists] at h
    obtain ⟨l, r, hh, _, rfl⟩ := h
    have := ih hh
    have := cutLine_length hc
    omega

/-- Bytes as characters of the same numbers. -/
def latin (bytes : List UInt8) : String := String.ofList (bytes.map fun b => Char.ofNat b.toNat)

/-- The status of the first line of a head. -/
def status? (line : List UInt8) : Option Nat :=
  match Text.splitChars ' ' (latin line).toList with
  | version :: code :: _ =>
    if Text.startsWith "HTTP/1.".toList version ∧ code.length = 3 ∧ code.all Text.isDigit then
      some (code.foldl (fun n d => n * 10 + Text.digitValue d) 0)
    else none
  | _ => none

/-- Whether a byte is a blank inside a line. -/
def isBlank (b : UInt8) : Bool := b = 0x20 || b = 0x09

/-- A line of a head as a name and a value. -/
def field? (line : List UInt8) : Option (String × List UInt8) :=
  match line.dropWhile (· != 0x3A) with
  | _ :: value =>
    some (Text.lowerAscii (latin (line.takeWhile (· != 0x3A))),
      ((value.dropWhile isBlank).reverse.dropWhile isBlank).reverse)
  | [] => none

/-- The head that lines make. -/
def Head.ofLines? : List (List UInt8) → Option Head
  | [] => none
  | first :: lines => do return ⟨← status? first, ← lines.mapM field?⟩

namespace Head

/-- The first value of a name. -/
def find? (h : Head) (name : String) : Option (List UInt8) :=
  (h.fields.find? (·.1 == name)).map (·.2)

/-- Whether the answer is yet to come. -/
def isInterim (h : Head) : Bool := h.status < 200

/-- How long the body is. -/
def bodyLength? (h : Head) : Option BodyLength :=
  if h.status = 204 ∨ h.status = 304 then some (.exactly 0)
  else match h.find? "transfer-encoding", h.find? "content-length" with
    | some coding, _ =>
      some (if Text.lowerAscii (latin coding) = "chunked" then .chunked else .untilEnd)
    | none, some n => (Number.unsigned64 (latin n)).toOption.map .exactly
    | none, none => some .untilEnd

/-- The media type of the body, if its name is written in visible characters. -/
def contentType? (h : Head) : Option String := do
  let value ← h.find? "content-type"
  if value.all (fun b => b = 0x09 || (0x20 ≤ b && b < 0x7F)) then some (latin value) else none

/-- The address that the answer refers to. -/
def location? (h : Head) : Option String :=
  (h.find? "location").bind fun value => Text.ofBytes? ⟨value.toArray⟩

def answer (h : Head) (body : List UInt8) : Incoming :=
  ⟨h.status, h.contentType?, h.location?, ⟨body.toArray⟩⟩

end Head

/-- The length that the first line of a chunk announces; what follows a semicolon does not count. -/
def chunkSize? (line : List UInt8) : Option Nat :=
  let digits := Text.trimChars ((latin line).toList.takeWhile (· != ';'))
  if digits.isEmpty then none
  else digits.foldlM (fun n d => do return n * 16 + (← Text.hexValue? d)) 0

/-- What the bytes of chunks amount to: nothing yet, their contents, or, as an error, nothing at
all. The lines behind the empty chunk are left out. -/
def chunks (bytes : List UInt8) : Except Unit (Option (List UInt8)) :=
  match _h : cutLine bytes with
  | none => .ok none
  | some (line, rest) =>
    match chunkSize? line with
    | none => .error ()
    | some 0 => .ok ((cutHead rest).map fun _ => [])
    | some (n + 1) =>
      if rest.length < n + 1 then .ok none
      else match _h' : cutLine (rest.drop (n + 1)) with
        | none => .ok none
        | some (_ :: _, _) => .error ()
        | some ([], more) => (chunks more).map fun found => found.map (rest.take (n + 1) ++ ·)
termination_by bytes.length
decreasing_by
  have := cutLine_length _h
  have := cutLine_length _h'
  simp only [List.length_drop] at *
  omega

/-- What the bytes behind a head amount to. -/
def bodyArrival (head : Head) (ended : Bool) (bytes : List UInt8) : Arrival :=
  match head.bodyLength? with
  | none => .broken
  | some (.exactly n) =>
    if n ≤ bytes.length then .complete (head.answer (bytes.take n)) else .incomplete
  | some .chunked =>
    match chunks bytes with
    | .error () => .broken
    | .ok none => .incomplete
    | .ok (some body) => .complete (head.answer body)
  | some .untilEnd => if ended then .complete (head.answer bytes) else .incomplete

/-- What the bytes of a connection amount to; `ended` says that no more will come. -/
def arrival (ended : Bool) (bytes : List UInt8) : Arrival :=
  match _h : cutHead bytes with
  | none => .incomplete
  | some (lines, rest) =>
    match Head.ofLines? lines with
    | none => .broken
    | some head => if head.isInterim then arrival ended rest else bodyArrival head ended rest
termination_by bytes.length
decreasing_by exact cutHead_length _h

/-- What a connection has led to, if that is settled. -/
def outcome? (ended : Bool) (bytes : List UInt8) : Option (Except LinkFault Incoming) :=
  match arrival ended bytes with
  | .complete answer => some (.ok answer)
  | .broken => some (.error .noAnswer)
  | .incomplete =>
    if !ended then none
    else some (.error (if (cutHead bytes).isSome then .cutShort else .noAnswer))

end DataClient.Wire
