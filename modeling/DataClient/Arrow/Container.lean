import DataClient.Arrow.Frame

/-!
# Payloads in file form

A file begins with a magic word and ends with a footer, the length of the footer and the magic word
again. The footer holds the schema and lists the blocks, each a message with its body, in the order
in which they are to be read. `checkFile` checks the footer and every block against the bytes that
are really there.
-/

set_option autoImplicit false

namespace DataClient.Arrow

/-- The word that files begin and end with. -/
def magic : List UInt8 := "ARROW1".toUTF8.data.toList

/-- The magic word at the beginning, with what fills it up. -/
def fileHeaderLength : Nat := 8

/-- The length of the footer and the magic word at the end. -/
def fileTrailerLength : Nat := 10

/-- Whether a payload is in file form. -/
def isFile (b : ByteArray) : Bool := (b.extract 0 magic.length).data.toList == magic

/-- A message with its body, as the footer lists it. -/
structure Block where
  offset : Int
  metadataLength : Int
  bodyLength : Int
  deriving DecidableEq, Repr

/-- A footer that has a schema. -/
structure Footer where
  version : Int
  schema : Flat
  dictionaries : List Block
  /-- The list of record batches, if there is one. -/
  batches : Option (List Block)

/-- A list of blocks: an offset of eight bytes, a length of four, four unused bytes, a length of
eight. -/
def blocks? (t : Flat) (member : Nat) : Option (List Block) :=
  (t.vector? member).map fun (start, n) =>
    Flat.elements start 24
      (fun p => ⟨(Bytes.int? t.buffer p 8).getD 0, (Bytes.int? t.buffer (p + 8) 4).getD 0,
        (Bytes.int? t.buffer (p + 16) 8).getD 0⟩) n

/-- The length of the footer, from the trailer that starts at a position. -/
def footerLength (b : ByteArray) (trailer : Nat) : Checked Nat := do
  let bytes ← cut b trailer b.size
  if (bytes.extract 4 fileTrailerLength).data.toList ≠ magic then
    .refuse (.unreadable "the file does not end with its magic word")
  else match Bytes.int? bytes 0 4 with
    | some n => if 0 ≤ n then return n.toNat else .refuse (.unreadable "the footer has a negative length")
    | none => .refuse .fileTooShort

/-- Reads the footer; also where it starts. -/
def readFooter (b : ByteArray) : Checked (Footer × Nat) := do
  if b.size < fileHeaderLength + fileTrailerLength then .refuse .fileTooShort
  else
    let trailer := b.size - fileTrailerLength
    let length ← footerLength b trailer
    if trailer < length + fileHeaderLength then .refuse (.footerTooLong length)
    else
      let start := trailer - length
      let bytes ← cut b start trailer
      if Verify.root .footer bytes then
        let t := Flat.root bytes
        match t.table? 1 with
        | none => .refuse .footerWithoutSchema
        | some schema =>
          return (⟨t.int 0 2 0, schema, (blocks? t 2).getD [], blocks? t 3⟩, start)
      else .refuse (.unreadableFooter "its tables do not lie inside it")

/-- The metadata of a block without its length, and without the marker if there is one. -/
def blockMessage (b : ByteArray) (start stop : Nat) : Checked Message := do
  let metadata ← cut b start stop
  let first ← cut metadata 0 4
  let lengths := if Bytes.u32? first 0 = some continuationMarker then 8 else 4
  readMessage (← cut metadata lengths metadata.size)

/-- A block whose message and body have been found to lie before the footer. -/
structure PlacedBlock where
  start : Nat
  metadataLength : Nat
  bodyLength : Nat
  message : Message

/-- Checks that a block lies before `limit` and its buffers in its body. -/
def placeBlock (b : ByteArray) (limit : Nat) (block : Block) : Checked PlacedBlock := do
  let offset ← nonNegative .blockOffset block.offset
  let metadataLength ← nonNegative .blockMetadataLength block.metadataLength
  let bodyLength ← nonNegative .blockBodyLength block.bodyLength
  if metadataLength < 8 then .refuse (.shortBlockMetadata metadataLength)
  else
    let stop ← span .blockMetadata offset metadataLength limit
    let _ ← span .blockBody stop bodyLength limit
    let message ← blockMessage b offset stop
    message.checkBuffers bodyLength
    return ⟨offset, metadataLength, bodyLength, message⟩

/-- A file whose footer and blocks have been checked. -/
structure CheckedFile where
  version : Int
  schema : Flat
  dictionaries : List PlacedBlock
  batches : Option (List PlacedBlock)

/-- Checks the blocks of a list in turn. -/
def placeBlocks (b : ByteArray) (limit : Nat) : List Block → Checked (List PlacedBlock)
  | [] => return []
  | block :: rest => do
    let p ← placeBlock b limit block
    let ps ← placeBlocks b limit rest
    return p :: ps

/-- Checks the footer and every block that it lists. -/
def checkFile (b : ByteArray) : Checked CheckedFile := do
  let (footer, limit) ← readFooter b
  let dictionaries ← placeBlocks b limit footer.dictionaries
  match footer.batches with
  | none => return ⟨footer.version, footer.schema, dictionaries, none⟩
  | some batches => return ⟨footer.version, footer.schema, dictionaries, some (← placeBlocks b limit batches)⟩

end DataClient.Arrow
