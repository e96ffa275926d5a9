import DataClient.Arrow.Container
import DataClient.Arrow.Load

/-!
# Reading payloads

What a payload holds: a schema and batches of vectors. A stream is read message by message, without
regard to the walk that checked it: the schema message comes first and is taken to have no body, and
a message without contents, a zero length or the end of the bytes ends the batches. A reading keeps
a list of the messages it has turned to, as their lengths are what it claims storage by. A file is
read block by block, dictionaries first.
-/

set_option autoImplicit false

namespace DataClient.Arrow

/-- The columns of a batch. -/
structure Batch where
  rowCount : Nat
  columns : List Vector
  deriving Inhabited

/-- What a payload holds. -/
structure Payload where
  schema : Schema
  batches : List Batch

/-- The version from which on unions have no bitmap of their own. -/
def unionsWithoutValidity : Int := 4

/-- Where a batch is loaded from. -/
structure Site where
  dictionaries : List (Int × Vector)
  version : Int
  body : ByteArray
  /-- Where the body lies relative to an aligned address. -/
  address : Nat

def loadColumns (s : Source) : Schema → Load (List Vector)
  | [] => return []
  | f :: fs => do
    let v ← Load.vector s f.info f.type
    return v :: (← loadColumns s fs)

/-- Loads a batch: every column has the declared number of rows, and no column has nulls that must
not have any. -/
def readBatch (schema : Schema) (site : Site) (h : BatchHeader) : Except String Batch := do
  let some nodes := h.nodes | .error "a batch lists no arrays"
  let some buffers := h.buffers | .error "a batch lists no buffers"
  match h.compression with
  | some n => if n ≠ 0 ∧ n ≠ 1 then .error "a compression is unknown"
  | none => pure ()
  let source : Source := {
    dictionaries := site.dictionaries
    compressed := h.compression.isSome
    unionValidity := site.version < unionsWithoutValidity
    body := site.body
    address := site.address }
  let (columns, rest) ← (loadColumns source schema).run ⟨nodes, buffers, h.variadicCounts⟩
  let rowCount := Load.countOf h.length
  if !rest.variadicCounts.isEmpty then .error "there are more buffer counts than columns of views"
  else if (schema.zip columns).any fun (f, v) => !f.info.nullable && v.hasNulls then
    .error "a column must not be null"
  else if columns.any fun v => v.length != rowCount then
    .error "a column has another length than its batch"
  else return ⟨rowCount, columns⟩

/-- Loads the values of a dictionary and adds them under its identifier. -/
def readDictionary (schema : Schema) (site : Site) (id : Int) (isDelta : Bool)
    (data : Option BatchHeader) : Except String (List (Int × Vector)) := do
  if isDelta then .error "a dictionary is extended"
  else match dictionaryValues? schema id with
    | none => .error "a dictionary belongs to no column"
    | some type =>
      let some header := data | .error "a dictionary has no values"
      let batch ← readBatch [⟨⟨"", true, 0, false, []⟩, type⟩] site header
      match batch.columns with
      | [values] => return (id, values) :: site.dictionaries.filter (·.1 != id)
      | _ => .error "a dictionary has no values"

/-! ## Streams -/

/-- A message that a reader has turned to: where it begins, the length of its metadata, and the
length that it declares for its body, if its metadata could be read. -/
structure Visit where
  start : Nat
  metadataLength : Nat
  bodyLength : Option Nat
  deriving DecidableEq, Repr

/-- What comes of reading, and the messages that were turned to on the way. -/
structure Reading (α : Type) where
  visits : List Visit
  result : Except String α

namespace Reading

variable {α β : Type}

/-- A result without turning to a message. -/
def done (r : Except String α) : Reading α := ⟨[], r⟩

/-- Turns to a message first. -/
def turn (v : Visit) (r : Reading α) : Reading α := ⟨v :: r.visits, r.result⟩

/-- Goes on with a result that is there without turning to a message. -/
def goOn (r : Except String α) (next : α → Reading β) : Reading β :=
  match r with
  | .ok a => next a
  | .error why => done (.error why)

/-- Changes the result. -/
def map (f : α → β) (r : Reading α) : Reading β := ⟨r.visits, r.result.map f⟩

end Reading

/-- The bytes that a stream reader takes next. -/
def take (b : ByteArray) (pos length : Nat) : Except String ByteArray :=
  match Bytes.slice? b pos length with
  | some part => .ok part
  | none => .error "the payload ends early"

/-- Where the metadata of the message at a position begins, and its length, or nothing at the end of
the bytes and at a zero length. -/
def announcedAt (b : ByteArray) (pos : Nat) : Except String (Option (Nat × Nat)) :=
  match Bytes.u32? b pos with
  | none => .ok none
  | some first =>
    if first = continuationMarker then
      match Bytes.u32? b (pos + 4) with
      | none => .error "the payload ends early"
      | some length => .ok (if length = 0 then none else some (pos + 8, length))
    else .ok (if first = 0 then none else some (pos + 4, first))

/-- The message whose metadata lies at a position. Lengths are signed words, so that one with the
highest bit set claims more storage than there is. -/
def messageAt (b : ByteArray) (start length : Nat) : Except String Message :=
  if maxMetadataLength < length then .error "a message is too long"
  else do
    let metadata ← take b start length
    match Message.ofBytes? metadata with
    | some m => .ok m
    | none => .error "a message is malformed"

/-- The message at a position as it is turned to. -/
def Visit.of (pos length : Nat) (message : Except String Message) : Visit where
  start := pos
  metadataLength := length
  bodyLength := message.toOption.map fun m => Load.countOf m.bodyLength

theorem announcedAt_lt {b : ByteArray} {pos start length : Nat}
    (h : announcedAt b pos = .ok (some (start, length))) : pos < start ∧ pos < b.size := by
  unfold announcedAt at h
  cases hw : Bytes.u32? b pos with
  | none => rw [hw] at h; cases h
  | some first =>
    have hlt : pos < b.size := Bytes.lt_size_of_word? hw
    rw [hw] at h
    dsimp only at h
    refine ⟨?_, hlt⟩
    split at h
    · split at h
      · cases h
      · split at h
        · cases h
        · injection h with h; injection h with h; injection h with hs _; omega
    · split at h
      · cases h
      · injection h with h; injection h with h; injection h with hs _; omega

/-- The body of a message, as what its batch is loaded from. -/
def siteAt (b : ByteArray) (start length : Nat) (version : Int) (dictionaries : List (Int × Vector)) :
    Except String Site := do
  return ⟨dictionaries, version, ← take b start length, 0⟩

/-- What a reader does with a message: it loads the batch or the dictionary in its body, `site`, and
goes on with `next`. A message without contents ends the batches. -/
def readContents (schema : Schema) (m : Message) (site : Except String Site)
    (dictionaries : List (Int × Vector)) (next : List (Int × Vector) → Reading (List Batch)) :
    Reading (List Batch) :=
  match m.header with
  | .none => .done (.ok [])
  | .schema _ => .done (.error "a second schema")
  | .other _ => .done (.error "a message of another kind")
  | .batch header =>
    .goOn (site.bind fun site => readBatch schema site header) fun batch =>
      (next dictionaries).map (batch :: ·)
  | .dictionary id isDelta data =>
    .goOn (site.bind fun site => readDictionary schema site id isDelta data) next

/-- Reads the batches of a stream from a position on. -/
def readMessages (b : ByteArray) (schema : Schema) (pos : Nat) (dictionaries : List (Int × Vector)) :
    Reading (List Batch) :=
  match _ : announcedAt b pos with
  | .error why => .done (.error why)
  | .ok none => .done (.ok [])
  | .ok (some (start, length)) =>
    let message := messageAt b start length
    .turn (.of pos length message) <| .goOn message fun m =>
      let bodyStart := start + length
      let bodyLength := Load.countOf m.bodyLength
      let site := siteAt b bodyStart bodyLength m.version dictionaries
      readContents schema m site dictionaries fun dictionaries =>
        readMessages b schema (bodyStart + bodyLength) dictionaries
termination_by b.size - pos
decreasing_by have := announcedAt_lt ‹announcedAt b pos = _›; omega

/-- The schema that a message carries. -/
def Message.schema (m : Message) : Except String Schema :=
  match m.header with
  | .schema t =>
    match schemaOfFlat? t with
    | some schema => .ok schema
    | none => .error "the schema has an unknown type"
  | _ => .error "the payload does not begin with a schema"

def readStream (b : ByteArray) : Reading Payload :=
  match announcedAt b 0 with
  | .error why => .done (.error why)
  | .ok none => .done (.error "the payload does not begin with a schema")
  | .ok (some (start, length)) =>
    let message := messageAt b start length
    .turn (.of 0 length message) <| .goOn (message.bind Message.schema) fun schema =>
      (readMessages b schema (start + length) []).map fun batches => ⟨schema, batches⟩

/-- The messages that a stream reader turns to. -/
def visits (b : ByteArray) : List Visit := (readStream b).visits

/-! ## Files -/

/-- The versions of a file and of a message have to agree, unless the file is of the first. -/
def versionOk (file message : Int) : Bool := file = 0 || message = file

/-- The body of a block. -/
def blockSite (b : ByteArray) (p : PlacedBlock) (dictionaries : List (Int × Vector)) : Site :=
  let start := p.start + p.metadataLength
  ⟨dictionaries, p.message.version, b.extract start (start + p.bodyLength), p.metadataLength⟩

def readFileDictionaries (b : ByteArray) (schema : Schema) (version : Int) :
    List PlacedBlock → List (Int × Vector) → Except String (List (Int × Vector))
  | [], dictionaries => .ok dictionaries
  | p :: ps, dictionaries =>
    if !versionOk version p.message.version then .error "a message has another version"
    else match p.message.header with
      | .dictionary id isDelta data => do
        let dictionaries ← readDictionary schema (blockSite b p dictionaries) id isDelta data
        readFileDictionaries b schema version ps dictionaries
      | _ => .error "a dictionary block holds no dictionary"

/-- Reads the batches of a file; a message without contents ends them. -/
def readFileBatches (b : ByteArray) (schema : Schema) (version : Int)
    (dictionaries : List (Int × Vector)) : List PlacedBlock → Except String (List Batch)
  | [] => .ok []
  | p :: ps =>
    if !versionOk version p.message.version then .error "a message has another version"
    else match p.message.header with
      | .none => .ok []
      | .batch h => do
        let batch ← readBatch schema (blockSite b p dictionaries) h
        return batch :: (← readFileBatches b schema version dictionaries ps)
      | _ => .error "a block holds no batch"

/-- Reads a file whose blocks have been checked. -/
def readFile (b : ByteArray) (f : CheckedFile) : Except String Payload := do
  let some batches := f.batches | .error "the footer lists no batches"
  if f.schema.int 0 2 0 ≠ 0 then .error "the words of the file are in another byte order"
  else match schemaOfFlat? f.schema with
    | none => .error "the schema has an unknown type"
    | some schema =>
      let dictionaries ← readFileDictionaries b schema f.version f.dictionaries []
      return ⟨schema, ← readFileBatches b schema f.version dictionaries batches⟩

/-- Checks a payload and reads it. -/
def readPayload (b : ByteArray) : Checked Payload := do
  let read ← if isFile b then do
      let f ← checkFile b
      pure (readFile b f)
    else do
      let _ ← frames b
      pure (readStream b).result
  match read with
  | .ok p => return p
  | .error why => .refuse (.unreadable why)

end DataClient.Arrow
