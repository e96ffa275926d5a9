import DataClient.Proofs.Arrow.Alignment
import DataClient.Proofs.Arrow.Batches
import DataClient.Proofs.Arrow.Container
import DataClient.Proofs.Arrow.Truncation
import DataClient.Proofs.Table.Columnar

/-!
# A stream and a file with the same contents

The messages of record batches and their bodies can be written one behind the other, as a stream, or
as the blocks of a file. Both checks accept them exactly if the buffers of every batch lie in its
body, and both readers load every batch from the same bytes; only the place of the body differs. So
a table of the file is the table of the stream, and a table of the stream is that of the file if the
file has what only files need (`Footer.Admits`).
-/

set_option autoImplicit false

namespace DataClient.Arrow

open Outcome Bytes

/-! ## Batches with their bodies -/

/-- The message of a record batch with its body. -/
structure BatchPart where
  metadata : List UInt8
  body : List UInt8
  message : Message
  header : BatchHeader
  reads : Message.ofBytes? ⟨metadata.toArray⟩ = some message
  carries : message.header = .batch header
  bodyLength : message.bodyLength = body.length

namespace BatchPart

/-- The buffers of the batch lie in its body. -/
def Inside (p : BatchPart) : Prop := p.message.BuffersInside p.body.length

/-- What the batch is loaded from if its body lies at an aligned address. -/
def site (p : BatchPart) : Site := ⟨[], p.message.version, ⟨p.body.toArray⟩, 0⟩

/-- The batches that are loaded. -/
def Loaded (schema : Schema) : List BatchPart → List Batch → Prop :=
  List.Forall₂ fun p batch => readBatch schema p.site p.header = .ok batch

theorem four_le_length (p : BatchPart) : 4 ≤ p.metadata.length := Message.le_size p.reads

end BatchPart

/-! ## Streams -/

/-- Bytes that frame batches in order, up to their end or to a zero length. -/
inductive Streams : List BatchPart → List UInt8 → Prop
  | nothing : Streams [] []
  | stop (marked : Bool) (rest : List UInt8) : Streams [] (announcement marked 0 ++ rest)
  | part (marked : Bool) {p : BatchPart} {ps : List BatchPart} {rest : List UInt8}
    (hle : p.metadata.length ≤ maxMetadataLength) (hrest : Streams ps rest) :
    Streams (p :: ps) (announcement marked p.metadata.length ++ (p.metadata ++ (p.body ++ rest)))

/-- A payload in stream form that frames a schema message without a body and then batches. -/
structure StreamOf (b : ByteArray) (m : Message) (schema : Flat) (parts : List BatchPart) : Prop where
  notFile : isFile b = false
  carries : m.header = .schema schema
  bodyLength : m.bodyLength = 0
  framed : ∃ marked metadata rest,
    b.data.toList = announcement marked metadata.length ++ (metadata ++ ([] ++ rest)) ∧
      metadata.length ≤ maxMetadataLength ∧ Message.ofBytes? ⟨metadata.toArray⟩ = some m ∧
      Streams parts rest

/-- A frame that stands where a message and its body are written is made up of these. -/
theorem Frame.In.made_of {f : Frame} {b : ByteArray} (h : f.In b) {marked : Bool}
    {metadata body rest : List UInt8} {m : Message}
    (hs : suffix b f.start = announcement marked metadata.length ++ (metadata ++ (body ++ rest)))
    (hle : metadata.length ≤ maxMetadataLength) (hm : Message.ofBytes? ⟨metadata.toArray⟩ = some m)
    (hbody : m.bodyLength = body.length) :
    f.message = m ∧ f.body b = body ∧ suffix b f.stop = rest := by
  obtain ⟨rfl, hlength⟩ := h.announced.unique (announced_of_suffix hs hle)
  have hsuffix := h.suffix_eq
  rw [h.length_metadata, hlength, hs] at hsuffix
  have hmeta : metadata.length = (f.metadata b).length := by rw [h.length_metadata, hlength]
  obtain ⟨hmetadata, hsuffix⟩ := List.append_inj (List.append_cancel_left hsuffix) hmeta
  have hmessage : f.message = m := by
    have hread := h.message
    rw [eq_of_toList (b := b.extract _ _) hmetadata.symm, hm] at hread
    exact (Option.some.inj hread).symm
  have hlength : body.length = (f.body b).length := by
    have hsame := h.bodyLength
    rw [hmessage, hbody] at hsame
    rw [h.length_body]
    exact Int.ofNat.inj hsame
  obtain ⟨hbody, hrest⟩ := List.append_inj hsuffix hlength
  exact ⟨hmessage, hbody.symm, hrest.symm⟩

theorem Streams.framed {parts : List BatchPart} {bytes : List UInt8} (h : Streams parts bytes)
    (hinside : ∀ p ∈ parts, p.Inside) : Framed bytes := by
  induction h with
  | nothing => exact .nothing
  | stop marked rest => exact .stop marked rest
  | @part marked p ps rest hle _ ih =>
    obtain ⟨hp, hps⟩ := List.forall_mem_cons.1 hinside
    exact .frame marked
      ⟨Nat.lt_of_lt_of_le (by omega) p.four_le_length, hle, p.message, p.reads, p.bodyLength, hp⟩ (ih hps)

theorem readContents_batch_eq_ok {schema : Schema} {m : Message} {header : BatchHeader} {site : Site}
    {dictionaries : List (Int × Vector)} {next : List (Int × Vector) → Reading (List Batch)}
    {batches : List Batch} (hm : m.header = .batch header) :
    (readContents schema m (.ok site) dictionaries next).result = .ok batches ↔
      ∃ batch rest, readBatch schema site header = .ok batch ∧
        (next dictionaries).result = .ok rest ∧ batches = batch :: rest := by
  rw [readContents, hm]
  dsimp only [Except.bind]
  cases hbatch : readBatch schema site header with
  | error why => simp [Reading.goOn, Reading.done]
  | ok batch =>
    cases hrest : (next dictionaries).result with
    | error why => simp [Reading.goOn, Reading.map, hrest, Except.map]
    | ok rest => simp [Reading.goOn, Reading.map, hrest, Except.map, eq_comm]

/-- **Where the walk finds batches, their buffers lie inside and the reader loads them.** -/
theorem Streams.of_walk {b : ByteArray} {parts : List BatchPart} {bytes : List UInt8}
    (h : Streams parts bytes) : ∀ {pos : Nat} {fs : List Frame}, suffix b pos = bytes → Walk b pos fs →
      (∀ p ∈ parts, p.Inside) ∧ ∀ schema batches,
        (readMessages b schema pos []).result = .ok batches ↔ BatchPart.Loaded schema parts batches := by
  induction h with
  | nothing =>
    intro pos fs hs _
    have hsize : b.size ≤ pos := by
      have := congrArg List.length hs
      rw [length_suffix, List.length_nil] at this
      omega
    refine ⟨fun p hp => absurd hp List.not_mem_nil, fun schema batches => ?_⟩
    rw [readMessages_end (announcedAt_of_size_le hsize), BatchPart.Loaded, List.forall₂_nil_left_iff]
    simp [Reading.done, eq_comm]
  | stop marked rest =>
    intro pos fs hs _
    refine ⟨fun p hp => absurd hp List.not_mem_nil, fun schema batches => ?_⟩
    rw [readMessages_end (announced_of_suffix hs (Nat.zero_le _)).announcedAt_eq, BatchPart.Loaded,
      List.forall₂_nil_left_iff]
    simp [Reading.done, eq_comm]
  | @part marked p ps rest hle _ ih =>
    intro pos fs hs hw
    have hann := announced_of_suffix hs hle
    have hpos := p.four_le_length
    -- A length is announced here, so the walk has neither run out of bytes nor met a zero.
    cases hw with
    | done h =>
      have := hann.lt_size
      omega
    | stop h =>
      have := (h.unique hann).2
      omega
    | @frame f fs hf hw =>
      obtain ⟨hmessage, hbody, hrest⟩ := hf.made_of hs hle p.reads p.bodyLength
      obtain ⟨hinside, hload⟩ := ih hrest hw
      have hsite : f.site b [] = p.site := by
        rw [Frame.site, BatchPart.site, hmessage, eq_of_toList (b := b.extract _ _) hbody]
      refine ⟨List.forall_mem_cons.2 ⟨?_, hinside⟩, fun schema batches => ?_⟩
      · have := hf.buffers
        rwa [hmessage, ← hf.length_body, hbody] at this
      · rw [readMessages_frame hf]
        show (readContents _ _ _ _ _).result = _ ↔ _
        rw [hmessage, hsite, readContents_batch_eq_ok p.carries, BatchPart.Loaded,
          List.forall₂_cons_left_iff]
        constructor
        · rintro ⟨batch, rest, hbatch, hrest, rfl⟩
          exact ⟨batch, rest, hbatch, (hload schema rest).1 hrest, rfl⟩
        · rintro ⟨batch, rest, hbatch, hrest, rfl⟩
          exact ⟨batch, rest, hbatch, (hload schema rest).2 hrest, rfl⟩

section StreamOf

variable {b : ByteArray} {m : Message} {t : Flat} {parts : List BatchPart}

/-- A run of the walk over a stream begins with its schema and goes on with its batches. -/
theorem StreamOf.walk_inv (h : StreamOf b m t parts) {fs : List Frame} (hw : Walk b 0 fs) :
    ∃ f rest bytes, fs = f :: rest ∧ f.start = 0 ∧ f.In b ∧ f.message = m ∧ Streams parts bytes ∧
      suffix b f.bodyStart = bytes ∧ Walk b f.bodyStart rest := by
  obtain ⟨marked, metadata, bytes, hs, hle, hm, hparts⟩ := h.framed
  have hs : suffix b 0 = announcement marked metadata.length ++ (metadata ++ ([] ++ bytes)) := hs
  have hne : metadata.length ≠ 0 :=
    Nat.pos_iff_ne_zero.1 (Nat.lt_of_lt_of_le (by omega) (Message.le_size hm))
  cases fs with
  | nil =>
    have hann := (announced_of_suffix hs hle).announcedAt_eq
    rw [hw.announcedAt_nil, if_neg hne] at hann
    cases hann
  | cons f rest =>
    obtain ⟨hstart, hf, hw⟩ := hw.cons_inv
    have hbody : m.bodyLength = ([] : List UInt8).length := h.bodyLength
    obtain ⟨hmessage, hbody, hrest⟩ := hf.made_of (hstart ▸ hs) hle hm hbody
    have hlength : f.bodyLength = 0 := by rw [← hf.length_body, hbody, List.length_nil]
    have hstop : f.stop = f.bodyStart := by rw [Frame.stop, hlength, Nat.add_zero]
    exact ⟨f, rest, bytes, rfl, hstart, hf, hmessage, hparts, hstop ▸ hrest, hstop ▸ hw⟩

/-- **A stream of batches is accepted exactly if all their buffers lie inside.** -/
theorem StreamOf.frames_iff (h : StreamOf b m t parts) :
    (∃ fs, frames b = pure fs) ↔ ∀ p ∈ parts, p.Inside := by
  constructor
  · rintro ⟨fs, hfs⟩
    obtain ⟨_, _, _, -, -, -, -, hparts, hs, hw⟩ := h.walk_inv (framesFrom_eq_pure.1 hfs)
    exact (hparts.of_walk hs hw).1
  · intro hinside
    obtain ⟨marked, metadata, bytes, hs, hle, hm, hparts⟩ := h.framed
    have hpos : 0 < metadata.length := Nat.lt_of_lt_of_le (by omega) (Message.le_size hm)
    have hschema : m.BuffersInside 0 := by
      rw [Message.BuffersInside, h.carries]
      trivial
    rw [exists_frames_iff, hs]
    exact .frame marked ⟨hpos, hle, m, hm, h.bodyLength, hschema⟩ (hparts.framed hinside)

/-- **What a stream of batches holds.** -/
theorem StreamOf.readPayload_iff (h : StreamOf b m t parts) {p : Payload} :
    readPayload b = pure p ↔ (∀ q ∈ parts, q.Inside) ∧ schemaOfFlat? t = some p.schema ∧
      BatchPart.Loaded p.schema parts p.batches := by
  rw [readPayload_eq_pure h.notFile, h.frames_iff]
  refine and_congr_right fun hinside => ?_
  obtain ⟨fs, hfs⟩ := h.frames_iff.2 hinside
  obtain ⟨f, _, _, -, hstart, hf, hmessage, hparts, hs, hw⟩ := h.walk_inv (framesFrom_eq_pure.1 hfs)
  have hload := (hparts.of_walk hs hw).2
  rw [readStream_frame hf hstart, hmessage, Message.schema, h.carries]
  dsimp only [Reading.turn]
  cases hschema : schemaOfFlat? t with
  | none => simp [Reading.goOn, Reading.done]
  | some schema =>
    dsimp only [Reading.goOn, Reading.map]
    obtain ⟨schema', batches⟩ := p
    rw [Option.some.injEq]
    constructor
    · intro hread
      obtain ⟨read, hbatches, hp⟩ := Reading.map_eq_ok hread
      cases hp
      exact ⟨rfl, (hload schema _).1 hbatches⟩
    · rintro ⟨rfl, hbatches⟩
      rw [(hload schema batches).2 hbatches]
      rfl

end StreamOf

/-! ## Files -/

/-- A block that begins at `start` holds a batch with its body, before `limit`. -/
structure Block.Holds (b : ByteArray) (limit start : Nat) (block : Block) (p : BatchPart) : Prop where
  listed : block = ⟨start, (prefixLength b start + p.metadata.length : Nat), p.body.length⟩
  stop_le : start + (prefixLength b start + p.metadata.length) + p.body.length ≤ limit
  holds : ∃ rest, suffix b (start + prefixLength b start) = p.metadata ++ (p.body ++ rest)

/-- A payload in file form whose footer lists blocks that hold batches. -/
structure FileOf (b : ByteArray) (footer : Footer) (limit : Nat) (parts : List BatchPart) : Prop where
  isFile : isFile b = true
  stands : footer.In b limit
  dictionaries : footer.dictionaries = []
  batches : List.Forall₂ (fun block p => ∃ start, block.Holds b limit start p)
    (footer.batches.getD []) parts

/-- The metadata of every block is a multiple of four bytes long. -/
def Footer.Even (footer : Footer) : Prop :=
  ∀ block ∈ footer.batches.getD [], block.metadataLength % 4 = 0

theorem four_le_prefixLength (b : ByteArray) (start : Nat) : 4 ≤ prefixLength b start := by
  unfold prefixLength
  split <;> omega

/-- The block of a batch is placed exactly if the buffers of the batch lie inside, as it is listed. -/
theorem Block.Holds.in_iff {b : ByteArray} {limit start : Nat} {block : Block} {p : BatchPart}
    (h : block.Holds b limit start p) (q : PlacedBlock) :
    q.In b limit block ↔ q = ⟨start, prefixLength b start + p.metadata.length, p.body.length, p.message⟩ ∧
      p.Inside := by
  obtain ⟨rest, hrest⟩ := h.holds
  have hmetadata : b.extract (start + prefixLength b start)
      (start + (prefixLength b start + p.metadata.length)) = ⟨p.metadata.toArray⟩ := by
    apply eq_of_toList
    rw [← Nat.add_assoc, toList_extract, hrest, List.take_left]
  constructor
  · intro hq
    obtain ⟨qstart, qmetadata, qbody, message⟩ := q
    -- The listing fixes the three numbers of the block, and the metadata fixes its message.
    have hlisted := h.listed.symm.trans hq.listed
    rw [Block.mk.injEq] at hlisted
    obtain ⟨hstart, hlength, hbody⟩ := hlisted
    obtain rfl := Int.ofNat.inj hstart
    obtain rfl := Int.ofNat.inj hlength
    obtain rfl := Int.ofNat.inj hbody
    have hmessage := hq.message
    dsimp only at hmessage
    rw [hmetadata, p.reads] at hmessage
    obtain rfl := Option.some.inj hmessage
    exact ⟨rfl, hq.buffers⟩
  · rintro ⟨rfl, hinside⟩
    have hlead := four_le_prefixLength b start
    have hpos := p.four_le_length
    exact {
      listed := h.listed
      metadataLength_ge := by dsimp only; omega
      stop_le := h.stop_le
      message := by rw [hmetadata]; exact p.reads
      buffers := hinside }

/-- The batch of a block is loaded as from an aligned address, if its metadata is a multiple of four
bytes long or there are no dense unions. -/
theorem Block.Holds.readBatch_eq {b : ByteArray} {limit start : Nat} {block : Block} {p : BatchPart}
    (h : block.Holds b limit start p) {schema : Schema}
    (heven : schema.hasDense = true → block.metadataLength % 4 = 0) :
    readBatch schema (blockSite b ⟨start, prefixLength b start + p.metadata.length, p.body.length,
      p.message⟩ []) p.header = readBatch schema p.site p.header := by
  obtain ⟨rest, hrest⟩ := h.holds
  have hbody : b.extract (start + (prefixLength b start + p.metadata.length))
      (start + (prefixLength b start + p.metadata.length) + p.body.length) = ⟨p.body.toArray⟩ := by
    apply eq_of_toList
    rw [← Nat.add_assoc, toList_extract, suffix_add, hrest, List.drop_left, List.take_left]
  -- The address of a body matters to dense unions only, and to them only modulo four.
  have halike (hdense : schema.hasDense = true) :
      Alike (prefixLength b start + p.metadata.length) p.site.address := by
    have := heven hdense
    rw [h.listed] at this
    show _ % 4 = 0 % 4
    dsimp only at this
    omega
  unfold blockSite
  dsimp only
  rw [hbody]
  exact readBatch_congr halike p.header

theorem exists_placed {b : ByteArray} {limit : Nat} {blocks : List Block} {parts : List BatchPart}
    (h : List.Forall₂ (fun block p => ∃ start, block.Holds b limit start p) blocks parts)
    (hinside : ∀ p ∈ parts, p.Inside) :
    ∃ qs : List PlacedBlock, List.Forall₂ (fun q block => q.In b limit block) qs blocks := by
  induction h with
  | nil => exact ⟨[], .nil⟩
  | cons hblock _ ih =>
    obtain ⟨start, hblock⟩ := hblock
    obtain ⟨hp, hps⟩ := List.forall_mem_cons.1 hinside
    obtain ⟨qs, hqs⟩ := ih hps
    exact ⟨_ :: qs, .cons ((hblock.in_iff _).2 ⟨rfl, hp⟩) hqs⟩

/-- **Where blocks of batches are placed, their buffers lie inside and the reader loads them** if their
versions agree with that of the file. -/
theorem of_placed {b : ByteArray} {limit : Nat} {blocks : List Block} {parts : List BatchPart}
    (h : List.Forall₂ (fun block p => ∃ start, block.Holds b limit start p) blocks parts) :
    ∀ {qs : List PlacedBlock}, List.Forall₂ (fun q block => q.In b limit block) qs blocks →
      (∀ p ∈ parts, p.Inside) ∧ ∀ schema version batches,
        (Schema.hasDense schema = true → ∀ block ∈ blocks, block.metadataLength % 4 = 0) →
        (readFileBatches b schema version [] qs = .ok batches ↔
          (∀ p ∈ parts, versionOk version p.message.version = true) ∧
            BatchPart.Loaded schema parts batches) := by
  induction h with
  | nil =>
    intro qs hplaced
    obtain rfl := List.forall₂_nil_right_iff.1 hplaced
    refine ⟨fun p hp => absurd hp List.not_mem_nil, fun schema version batches _ => ?_⟩
    rw [readFileBatches, BatchPart.Loaded, List.forall₂_nil_left_iff, Except.ok.injEq]
    exact ⟨fun h => ⟨fun p hp => absurd hp List.not_mem_nil, h.symm⟩, fun h => h.2.symm⟩
  | @cons block p blocks parts hblock _ ih =>
    intro qs hplaced
    obtain ⟨q, qs, hq, hqs, rfl⟩ := List.forall₂_cons_right_iff.1 hplaced
    obtain ⟨start, hblock⟩ := hblock
    obtain ⟨rfl, hinside⟩ := (hblock.in_iff q).1 hq
    obtain ⟨hall, hread⟩ := ih hqs
    refine ⟨List.forall_mem_cons.2 ⟨hinside, hall⟩, fun schema version batches heven => ?_⟩
    have heven_rest : Schema.hasDense schema = true → ∀ block ∈ blocks,
        block.metadataLength % 4 = 0 := fun hdense => (List.forall_mem_cons.1 (heven hdense)).2
    have heven_first : Schema.hasDense schema = true → block.metadataLength % 4 = 0 :=
      fun hdense => (List.forall_mem_cons.1 (heven hdense)).1
    have hbatch := hblock.readBatch_eq heven_first
    rw [readFileBatches, List.forall_mem_cons, BatchPart.Loaded, List.forall₂_cons_left_iff]
    dsimp only
    rw [p.carries]
    dsimp only
    rw [hbatch]
    by_cases hversion : versionOk version p.message.version = true
    · rw [hversion]
      simp only [Bool.not_true, Bool.false_eq_true, if_false, true_and]
      constructor
      · intro h
        obtain ⟨batch, hloaded, h⟩ := bind_eq_ok.1 h
        obtain ⟨rest, hrest, h⟩ := bind_eq_ok.1 h
        obtain ⟨hversions, hrest⟩ := (hread schema version rest heven_rest).1 hrest
        exact ⟨hversions, batch, rest, hloaded, hrest, (Except.ok.inj h).symm⟩
      · rintro ⟨hversions, batch, rest, hloaded, hrest, rfl⟩
        have hrest := (hread schema version rest heven_rest).2 ⟨hversions, hrest⟩
        exact bind_eq_ok.2 ⟨batch, hloaded, bind_eq_ok.2 ⟨rest, hrest, rfl⟩⟩
    · simp [hversion]

/-- What a file has to have beyond a stream of the same batches: a list of them, words in the order of
bytes in which they are read, and its own version in every message. -/
structure Footer.Admits (footer : Footer) (parts : List BatchPart) : Prop where
  listed : footer.batches.isSome = true
  byteOrder : footer.schema.int 0 2 0 = 0
  versions : ∀ p ∈ parts, versionOk footer.version p.message.version = true

theorem Footer.In.unique {b : ByteArray} {footer footer' : Footer} {start start' : Nat}
    (h : footer.In b start) (h' : footer'.In b start') : footer = footer' ∧ start = start' := by
  have hpair := pure_inj.1 ((readFooter_eq_pure.2 h).symm.trans (readFooter_eq_pure.2 h'))
  exact Prod.mk.inj hpair

theorem readFile_eq_ok {b : ByteArray} {f : CheckedFile} {p : Payload}
    (hdictionaries : f.dictionaries = []) :
    readFile b f = .ok p ↔ ∃ qs, f.batches = some qs ∧ f.schema.int 0 2 0 = 0 ∧
      schemaOfFlat? f.schema = some p.schema ∧
      readFileBatches b p.schema f.version [] qs = .ok p.batches := by
  obtain ⟨schema', batches'⟩ := p
  unfold readFile
  rw [hdictionaries]
  constructor
  · intro h
    split at h
    · rename_i qs hqs
      split at h
      · cases h
      · rename_i horder
        split at h
        · cases h
        · rename_i schema hfields
          obtain ⟨dictionaries, hnone, h⟩ := bind_eq_ok.1 h
          obtain rfl := Except.ok.inj hnone
          obtain ⟨batches, hbatches, h⟩ := bind_eq_ok.1 h
          cases h
          exact ⟨qs, hqs, not_not.1 horder, hfields, hbatches⟩
    · cases h
  · rintro ⟨qs, hqs, horder, hfields, hbatches⟩
    rw [hqs]
    dsimp only
    rw [if_neg (not_not.2 horder), hfields]
    exact bind_eq_ok.2 ⟨[], rfl, bind_eq_ok.2 ⟨batches', hbatches, rfl⟩⟩

section FileOf

variable {b : ByteArray} {footer : Footer} {limit : Nat} {parts : List BatchPart}

theorem FileOf.in_inv (h : FileOf b footer limit parts) {f : CheckedFile} (hf : checkFile b = pure f) :
    f.version = footer.version ∧ f.schema = footer.schema ∧ f.dictionaries = [] ∧
      Option.Rel (List.Forall₂ fun q block => q.In b limit block) f.batches footer.batches := by
  obtain ⟨footer', start, hin⟩ := checkFile_eq_pure.1 hf
  obtain ⟨rfl, rfl⟩ := h.stands.unique hin.stands
  have hdictionaries := hin.dictionaries
  rw [h.dictionaries] at hdictionaries
  exact ⟨hin.version, hin.schema, List.forall₂_nil_right_iff.1 hdictionaries, hin.batches⟩

/-- **A file of batches is accepted exactly if all their buffers lie inside.** -/
theorem FileOf.checkFile_iff (h : FileOf b footer limit parts) :
    (∃ f, checkFile b = pure f) ↔ ∀ p ∈ parts, p.Inside := by
  have hbatches := h.batches
  constructor
  · rintro ⟨f, hf⟩
    obtain ⟨-, -, -, hplaced⟩ := h.in_inv hf
    generalize footer.batches = listed at hbatches hplaced
    generalize f.batches = placed at hplaced
    cases hplaced with
    | none =>
      obtain rfl := List.forall₂_nil_left_iff.1 hbatches
      exact fun p hp => absurd hp List.not_mem_nil
    | some hplaced => exact (of_placed hbatches hplaced).1
  · intro hinside
    obtain ⟨qs, hqs⟩ := exists_placed hbatches hinside
    refine ⟨⟨footer.version, footer.schema, [], footer.batches.map fun _ => qs⟩,
      checkFile_eq_pure.2 ⟨footer, limit, h.stands, rfl, rfl, ?_, ?_⟩⟩
    · rw [h.dictionaries]
      exact .nil
    · cases hlisted : footer.batches with
      | none => exact .none
      | some blocks =>
        rw [hlisted] at hqs
        exact .some hqs

/-- **What a file of batches holds.** -/
theorem FileOf.readPayload_iff (h : FileOf b footer limit parts)
    (heven : ∀ schema ∈ schemaOfFlat? footer.schema, schema.hasDense = true → footer.Even)
    {p : Payload} :
    readPayload b = pure p ↔ (∀ q ∈ parts, q.Inside) ∧ footer.Admits parts ∧
      schemaOfFlat? footer.schema = some p.schema ∧ BatchPart.Loaded p.schema parts p.batches := by
  rw [readPayload_file_eq_pure h.isFile]
  have hbatches := h.batches
  constructor
  · rintro ⟨f, hf, hread⟩
    obtain ⟨hversion, hschema, hdictionaries, hplaced⟩ := h.in_inv hf
    obtain ⟨qs, hqs, horder, hfields, hread⟩ := (readFile_eq_ok hdictionaries).1 hread
    rw [hversion, hschema] at *
    rw [hqs] at hplaced
    cases hlisted : footer.batches with
    | none =>
      rw [hlisted] at hplaced
      cases hplaced
    | some blocks =>
      have heven := heven _ hfields
      unfold Footer.Even at heven
      rw [hlisted] at hplaced hbatches heven
      cases hplaced with
      | some hplaced =>
        obtain ⟨hversions, hloaded⟩ := ((of_placed hbatches hplaced).2 _ _ _ heven).1 hread
        exact ⟨(of_placed hbatches hplaced).1, ⟨by rw [hlisted]; rfl, horder, hversions⟩, hfields,
          hloaded⟩
  · rintro ⟨hinside, hadmits, hfields, hloaded⟩
    obtain ⟨f, hf⟩ := h.checkFile_iff.2 hinside
    obtain ⟨hversion, hschema, hdictionaries, hplaced⟩ := h.in_inv hf
    refine ⟨f, hf, (readFile_eq_ok hdictionaries).2 ?_⟩
    obtain ⟨blocks, hlisted⟩ := Option.isSome_iff_exists.1 hadmits.listed
    have heven := heven _ hfields
    unfold Footer.Even at heven
    rw [hlisted] at hplaced hbatches heven
    generalize hqs : f.batches = placed at hplaced
    cases hplaced with
    | @some qs _ hplaced =>
      rw [hversion, hschema]
      exact ⟨qs, rfl, hadmits.byteOrder, hfields,
        ((of_placed hbatches hplaced).2 _ _ _ heven).2 ⟨hadmits.versions, hloaded⟩⟩

end FileOf

/-! ## Both forms -/

/-- A stream and a file with the same contents: the same schema and version, and the same batches in
the same order. -/
structure SameContents (stream file : ByteArray) (m : Message) (schema : Flat) (footer : Footer)
    (limit : Nat) (parts : List BatchPart) : Prop where
  stream : StreamOf stream m schema parts
  file : FileOf file footer limit parts
  version : footer.version = m.version
  byteOrder : footer.schema.int 0 2 0 = schema.int 0 2 0
  fields : schemaOfFlat? footer.schema = schemaOfFlat? schema

theorem decode_eq_pure_iff [Allocator] {b : ByteArray} {t : Table} : Columnar.decode b = pure t ↔
    ∃ p, readPayload b = pure p ∧ Columnar.tableOf p = pure t := by
  rw [Columnar.decode_eq_pure]
  refine and_iff_right_of_imp ?_
  rintro ⟨p, hp, -⟩ hempty
  have hsize := size_pos_of_readPayload hp
  rw [ByteArray.isEmpty, beq_iff_eq] at hempty
  omega

/-- **The two forms agree.** The check of a stream accepts it exactly if the check of a file with the
same contents accepts that. A table of the file is a table of the stream, and a table of the stream
is a table of the file exactly if the file has what only files need. This leaves one thing aside:
the offsets of dense unions have to lie at a multiple of four bytes, so a schema with such unions
asks for blocks whose bodies begin at one. -/
theorem containers_agree [Allocator] {stream file : ByteArray} {m : Message} {schema : Flat}
    {footer : Footer}
    {limit : Nat} {parts : List BatchPart}
    (h : SameContents stream file m schema footer limit parts) :
    ((∃ fs, frames stream = pure fs) ↔ ∃ f, checkFile file = pure f) ∧
    ((∀ s ∈ schemaOfFlat? schema, s.hasDense = true → footer.Even) → ∀ t,
      Columnar.decode file = pure t ↔ Columnar.decode stream = pure t ∧ footer.Admits parts) := by
  refine ⟨h.stream.frames_iff.trans h.file.checkFile_iff.symm, fun heven t => ?_⟩
  have hfile : ∀ p, readPayload file = pure p ↔ readPayload stream = pure p ∧ footer.Admits parts := by
    intro p
    rw [h.stream.readPayload_iff, h.file.readPayload_iff (h.fields ▸ heven), h.fields]
    tauto
  rw [decode_eq_pure_iff, decode_eq_pure_iff]
  constructor
  · rintro ⟨p, hp, ht⟩
    obtain ⟨hp, hadmits⟩ := (hfile p).1 hp
    exact ⟨⟨p, hp, ht⟩, hadmits⟩
  · rintro ⟨⟨p, hp, ht⟩, hadmits⟩
    exact ⟨p, (hfile p).2 ⟨hp, hadmits⟩, ht⟩

/-! ## One number in both forms -/

/-- The metadata of a schema message with a column of integers of two bytes, in an order of bytes. -/
def numberSchema (order : UInt8) : List UInt8 :=
  [20, 0, 0, 0, 0, 0, 0, 0, 12, 0, 19, 0, 16, 0, 18, 0, 12, 0, 4, 0,
   12, 0, 0, 0, 0, 0, 0, 0, 0, 0, 0, 0, 16, 0, 0, 0, 4, 0, 1, 0,
   8, 0, 10, 0, 8, 0, 4, 0, 8, 0, 0, 0, 8, 0, 0, 0, order, 0, 0, 0,
   1, 0, 0, 0, 20, 0, 0, 0, 16, 0, 17, 0, 4, 0, 0, 0, 16, 0, 8, 0,
   0, 0, 12, 0, 16, 0, 0, 0, 16, 0, 0, 0, 28, 0, 0, 0, 36, 0, 0, 0,
   2, 0, 0, 0, 1, 0, 0, 0, 118, 0, 0, 0, 8, 0, 9, 0, 4, 0, 8, 0,
   8, 0, 0, 0, 16, 0, 0, 0, 1, 0, 0, 0, 0, 0, 0, 0]

/-- The metadata of a batch of one row. -/
def numberBatch : List UInt8 :=
  [20, 0, 0, 0, 0, 0, 0, 0, 12, 0, 19, 0, 16, 0, 18, 0, 12, 0, 4, 0,
   12, 0, 0, 0, 8, 0, 0, 0, 0, 0, 0, 0, 20, 0, 0, 0, 4, 0, 3, 0,
   0, 0, 10, 0, 20, 0, 4, 0, 12, 0, 16, 0, 10, 0, 0, 0, 1, 0, 0, 0,
   0, 0, 0, 0, 12, 0, 0, 0, 32, 0, 0, 0, 0, 0, 0, 0, 1, 0, 0, 0,
   1, 0, 0, 0, 0, 0, 0, 0, 0, 0, 0, 0, 0, 0, 0, 0, 0, 0, 0, 0,
   2, 0, 0, 0, 0, 0, 0, 0, 0, 0, 0, 0, 0, 0, 0, 0, 0, 0, 0, 0,
   0, 0, 0, 0, 0, 0, 0, 0, 2, 0, 0, 0, 0, 0, 0, 0]

def numberBody : List UInt8 := [0, 1, 0, 0, 0, 0, 0, 0]

/-- A footer that lists one block. -/
def numberFooter (order : UInt8) : List UInt8 :=
  [16, 0, 0, 0, 12, 0, 18, 0, 16, 0, 4, 0, 8, 0, 12, 0, 12, 0, 0, 0,
   24, 0, 0, 0, 108, 0, 0, 0, 112, 0, 0, 0, 4, 0, 0, 0, 8, 0, 10, 0,
   8, 0, 4, 0, 8, 0, 0, 0, 8, 0, 0, 0, order, 0, 0, 0, 1, 0, 0, 0,
   20, 0, 0, 0, 16, 0, 17, 0, 4, 0, 0, 0, 16, 0, 8, 0, 0, 0, 12, 0,
   16, 0, 0, 0, 16, 0, 0, 0, 28, 0, 0, 0, 36, 0, 0, 0, 2, 0, 0, 0,
   1, 0, 0, 0, 118, 0, 0, 0, 8, 0, 9, 0, 4, 0, 8, 0, 8, 0, 0, 0,
   16, 0, 0, 0, 1, 0, 0, 0, 0, 0, 0, 0, 0, 0, 0, 0, 0, 0, 0, 0,
   1, 0, 0, 0, 8, 0, 0, 0, 0, 0, 0, 0, 144, 0, 0, 0, 0, 0, 0, 0,
   8, 0, 0, 0, 0, 0, 0, 0]

def numberStream (order : UInt8) : ByteArray :=
  payloadOf [announcement true 136, numberSchema order, announcement true 136, numberBatch, numberBody]

def numberFile (order : UInt8) : ByteArray :=
  payloadOf [magic, [0, 0], announcement true 136, numberBatch, numberBody, numberFooter order,
    ofWord 4 168, magic]

theorem length_numberSchema (order : UInt8) : (numberSchema order).length = 136 := by
  simp [numberSchema]

theorem length_numberBatch : numberBatch.length = 136 := by
  decide +kernel

/-- The schema of the column. -/
def numberFields : Schema := [⟨⟨"v", false, 0, false, []⟩, .int true .w16⟩]

def isNumberFields : Option Schema → Bool
  | some [⟨⟨"v", false, 0, false, []⟩, .int true .w16⟩] => true
  | _ => false

theorem isNumberFields_inv {s : Option Schema} (h : isNumberFields s = true) :
    s = some numberFields := by
  unfold isNumberFields at h
  split at h
  · rfl
  · cases h

/-- The schema or the record batch that a message carries. -/
def Message.carried (m : Message) : Option (Flat ⊕ BatchHeader) :=
  match m.header with
  | .schema t => some (.inl t)
  | .batch header => some (.inr header)
  | _ => none

theorem Message.header_of_carried {m : Message} :
    (∀ t, m.carried = some (.inl t) → m.header = .schema t) ∧
      ∀ header, m.carried = some (.inr header) → m.header = .batch header := by
  unfold carried
  constructor <;> intro x h <;> split at h <;> cases h <;> assumption

/-- The numbers of the batch. -/
def numberHeader : BatchHeader := ⟨1, some [(1, 0)], some [(0, 0), (0, 2)], none, []⟩

section

open scoped Allocator.Sized

/-- The batch of one number is loaded, whatever form it stands in. -/
theorem exists_numberPart : ∃ p : BatchPart, p.metadata = numberBatch ∧ p.body = numberBody ∧
    p.message.version = 4 ∧ p.Inside ∧ ∃ batch, BatchPart.Loaded numberFields [p] [batch] ∧
      Yields (Columnar.tableOf ⟨numberFields, [batch]⟩) fun t =>
        t.rows.map (·.map Cell.int?) = [[some 256]] := by
  have hread : ∃ m ∈ Message.ofBytes? ⟨numberBatch.toArray⟩, m.bodyLength = 8 ∧ m.version = 4 ∧
      ∃ header ∈ m.carried.bind Sum.getRight?, header.length = 1 ∧
        header.nodes = some [(1, 0)] ∧ header.buffers = some [(0, 0), (0, 2)] ∧
        header.compression = none ∧ header.variadicCounts = [] := by
    decide +kernel
  obtain ⟨m, hm, hlength, hversion, header, hheader, hnumbers⟩ := hread
  obtain ⟨carried, hcarried, hright⟩ := Option.bind_eq_some_iff.1 hheader
  obtain rfl := Sum.getRight?_eq_some_iff.1 hright
  obtain rfl : header = numberHeader := by
    obtain ⟨_, _, _, _, _⟩ := header
    obtain ⟨rfl, rfl, rfl, rfl, rfl⟩ := hnumbers
    rfl
  have hbatch : ∃ batch ∈ (readBatch numberFields ⟨[], 4, ⟨numberBody.toArray⟩, 0⟩
      numberHeader).toOption, Yields (Columnar.tableOf ⟨numberFields, [batch]⟩) fun t =>
        t.rows.map (·.map Cell.int?) = [[some 256]] := by
    decide +kernel
  obtain ⟨batch, hbatch, htable⟩ := hbatch
  have hcarries := Message.header_of_carried.2 numberHeader hcarried
  refine ⟨⟨numberBatch, numberBody, m, numberHeader, hm, hcarries, hlength⟩, rfl, rfl, hversion, ?_,
    batch, .cons ?_ .nil, htable⟩
  · show m.BuffersInside 8
    unfold Message.BuffersInside
    rw [hcarries]
    show ∀ buffers ∈ some [((0 : Int), (0 : Int)), (0, 2)], _
    decide
  · unfold BatchPart.site
    dsimp only
    rw [hversion]
    exact toOption_eq_some.1 hbatch

theorem exists_numberStream {order : UInt8} (h : order = 0 ∨ order = 1) {p : BatchPart}
    (hmetadata : p.metadata = numberBatch) (hbody : p.body = numberBody) :
    ∃ m t, StreamOf (numberStream order) m t [p] ∧ m.version = 4 ∧ t.int 0 2 0 = order.toNat ∧
      schemaOfFlat? t = some numberFields := by
  have hread : ∃ m ∈ Message.ofBytes? ⟨(numberSchema order).toArray⟩, m.bodyLength = 0 ∧
      m.version = 4 ∧ ∃ t ∈ m.carried.bind Sum.getLeft?, t.int 0 2 0 = order.toNat ∧
        isNumberFields (schemaOfFlat? t) = true := by
    rcases h with rfl | rfl <;> decide +kernel
  obtain ⟨m, hm, hlength, hversion, schema, hschema, horder, hfields⟩ := hread
  obtain ⟨carried, hcarried, hleft⟩ := Option.bind_eq_some_iff.1 hschema
  obtain rfl := Sum.getLeft?_eq_some_iff.1 hleft
  refine ⟨m, schema, ?_, hversion, horder, isNumberFields_inv hfields⟩
  have hparts : Streams [p] (announcement true 136 ++ (numberBatch ++ (numberBody ++ []))) := by
    have := Streams.part true (p := p) (by rw [hmetadata, length_numberBatch]; decide) .nothing
    rwa [hmetadata, hbody, length_numberBatch] at this
  exact {
    notFile := by rcases h with rfl | rfl <;> decide +kernel
    carries := Message.header_of_carried.1 schema hcarried
    bodyLength := hlength
    framed := ⟨true, numberSchema order, _, rfl, by rw [length_numberSchema]; decide, hm, hparts⟩ }

theorem exists_numberFile {order : UInt8} (h : order = 0 ∨ order = 1) {p : BatchPart}
    (hmetadata : p.metadata = numberBatch) (hbody : p.body = numberBody) :
    ∃ footer, FileOf (numberFile order) footer 160 [p] ∧ footer.version = 4 ∧
      footer.batches = some [⟨8, 144, 8⟩] ∧ footer.schema.int 0 2 0 = order.toNat ∧
      schemaOfFlat? footer.schema = some numberFields := by
  have hbytes : (numberFile order).extract 160 328 = ⟨(numberFooter order).toArray⟩ := by
    apply eq_of_toList
    rw [toList_extract (numberFile order) 160 168]
    rcases h with rfl | rfl <;> decide +kernel
  have hsize : (numberFile order).size = 338 := by rcases h with rfl | rfl <;> decide +kernel
  have hread : Verify.root .footer ⟨(numberFooter order).toArray⟩ = true ∧
      ∃ schema ∈ (Flat.root ⟨(numberFooter order).toArray⟩).table? 1,
        schema.int 0 2 0 = order.toNat ∧ isNumberFields (schemaOfFlat? schema) = true := by
    rcases h with rfl | rfl <;> decide +kernel
  obtain ⟨hverified, schema, hschema, horder, hfields⟩ := hread
  have hlists : (Flat.root ⟨(numberFooter order).toArray⟩).int 0 2 0 = 4 ∧
      (blocks? (Flat.root ⟨(numberFooter order).toArray⟩) 2).getD [] = [] ∧
      blocks? (Flat.root ⟨(numberFooter order).toArray⟩) 3 = some [⟨8, 144, 8⟩] := by
    rcases h with rfl | rfl <;> decide +kernel
  have htrailed : Trailed (numberFile order) 168 := by
    refine ⟨?_, ?_⟩ <;> rw [hsize] <;> rcases h with rfl | rfl <;> decide +kernel
  have hstop : (numberFile order).size - fileTrailerLength = 328 := by
    rw [hsize]
    rfl
  have hstands : Footer.In ⟨4, schema, [], some [⟨8, 144, 8⟩]⟩ (numberFile order) 160 := {
    size := by rw [hsize]; decide
    start_ge := by decide
    start_le := by rw [hstop]; decide
    trailed := by rw [hstop]; exact htrailed
    verified := by rw [hstop, hbytes]; exact hverified
    schema := by rw [hstop, hbytes]; exact hschema
    version := by rw [hstop, hbytes]; exact hlists.1.symm
    dictionaries := by rw [hstop, hbytes]; exact hlists.2.1.symm
    batches := by rw [hstop, hbytes]; exact hlists.2.2.symm }
  refine ⟨⟨4, schema, [], some [⟨8, 144, 8⟩]⟩, ?_, rfl, rfl, horder, isNumberFields_inv hfields⟩
  have hlead : prefixLength (numberFile order) 8 = 8 := by
    rcases h with rfl | rfl <;> decide +kernel
  have hholds : Block.Holds (numberFile order) 160 8 ⟨8, 144, 8⟩ p := by
    refine ⟨?_, ?_, numberFooter order ++ (ofWord 4 168 ++ magic), ?_⟩
    · rw [hlead, hmetadata, hbody, length_numberBatch]
      rfl
    · rw [hlead, hmetadata, hbody, length_numberBatch]
      decide
    · rw [hlead, hmetadata, hbody]
      rcases h with rfl | rfl <;> decide +kernel
  exact {
    isFile := by rcases h with rfl | rfl <;> decide +kernel
    stands := hstands
    dictionaries := rfl
    batches := .cons ⟨8, hholds⟩ .nil }

/-- The stream and the file of one number have the same contents, in either order of bytes. The stream
has a table; the file has what it needs if the order is the one that numbers are read in. -/
theorem exists_sameContents_number {order : UInt8} (h : order = 0 ∨ order = 1) :
    ∃ m t footer p, SameContents (numberStream order) (numberFile order) m t footer 160 [p] ∧
      footer.Even ∧ footer.schema.int 0 2 0 = order.toNat ∧ (order = 0 → footer.Admits [p]) ∧
      ∃ table, Columnar.decode (numberStream order) = pure table ∧
        table.rows.map (·.map Cell.int?) = [[some 256]] := by
  obtain ⟨p, hmetadata, hbody, hpart, hinside, batch, hbatch, table, htable, hrows⟩ :=
    exists_numberPart
  obtain ⟨m, t, hstream, hmessage, horder, hfields⟩ := exists_numberStream h hmetadata hbody
  obtain ⟨footer, hfile, hversion, hbatches, horder', hfields'⟩ := exists_numberFile h hmetadata hbody
  refine ⟨m, t, footer, p, ⟨hstream, hfile, hversion.trans hmessage.symm, horder'.trans horder.symm,
    hfields'.trans hfields.symm⟩, ?_, horder', ?_, table, ?_, hrows⟩
  · unfold Footer.Even
    rw [hbatches]
    decide
  · rintro rfl
    refine ⟨by rw [hbatches]; rfl, horder', List.forall_mem_singleton.2 ?_⟩
    rw [hversion, hpart]
    decide
  · exact decode_eq_pure_iff.2 ⟨_, hstream.readPayload_iff.2
      ⟨List.forall_mem_singleton.2 hinside, hfields, hbatch⟩, htable⟩

/-- The bytes 0 and 1, least significant first: both forms have the same table. -/
theorem containers_agree_littleEndian : ∃ m t footer p,
    SameContents (numberStream 0) (numberFile 0) m t footer 160 [p] ∧
    ∃ table, Columnar.decode (numberStream 0) = pure table ∧
      Columnar.decode (numberFile 0) = pure table ∧ table.rows.map (·.map Cell.int?) = [[some 256]] := by
  obtain ⟨m, t, footer, p, h, heven, -, hadmits, table, htable, hrows⟩ :=
    exists_sameContents_number (.inl rfl)
  have hagree := (containers_agree h).2 (fun _ _ _ => heven) table
  exact ⟨m, t, footer, p, h, table, htable, hagree.2 ⟨htable, hadmits rfl⟩, hrows⟩

/-- The same bytes, most significant first: the stream has a table as if they were not, and the file
has none. -/
theorem not_agree_bigEndian : ∃ m t footer p,
    SameContents (numberStream 1) (numberFile 1) m t footer 160 [p] ∧
    (∃ table, Columnar.decode (numberStream 1) = pure table ∧
      table.rows.map (·.map Cell.int?) = [[some 256]]) ∧
    ¬ ∃ table, Columnar.decode (numberFile 1) = pure table := by
  obtain ⟨m, t, footer, p, h, heven, horder, -, htable⟩ := exists_sameContents_number (.inr rfl)
  refine ⟨m, t, footer, p, h, htable, ?_⟩
  rintro ⟨table, htable⟩
  obtain ⟨q, hq, -⟩ := decode_eq_pure_iff.1 htable
  have hzero := ((h.file.readPayload_iff fun _ _ _ => heven).1 hq).2.1.byteOrder
  rw [horder] at hzero
  cases hzero

end

end DataClient.Arrow
