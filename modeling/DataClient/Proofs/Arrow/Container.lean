import DataClient.Proofs.Arrow.Framing
import DataClient.Proofs.Arrow.Message
import Mathlib.Data.List.Forall2

/-!
# What a payload in file form holds

A payload in file form is read from its end: the trailer says where the footer begins, the footer
lists the blocks, and each block says how long its message and its body are. `Footer.In` and
`PlacedBlock.In` say that a footer and a block stand where they are said to; the check of a file finds
exactly these (`checkFile_eq_pure`), and what a reader takes from the blocks that it has found lies
inside the payload (`PlacedBlock.In.readable`).
-/

set_option autoImplicit false

namespace DataClient.Arrow

open Outcome Bytes

/-! ## The footer -/

/-- The trailer of a payload that is long enough: the length of the footer, and the magic word. -/
structure Trailed (b : ByteArray) (length : Nat) : Prop where
  magic : (b.extract (b.size - magic.length) b.size).data.toList = magic
  length : int? b (b.size - fileTrailerLength) 4 = some (length : Int)

/-- A footer that stands in a payload from a position on. -/
structure Footer.In (f : Footer) (b : ByteArray) (start : Nat) : Prop where
  size : fileHeaderLength + fileTrailerLength ≤ b.size
  start_ge : fileHeaderLength ≤ start
  start_le : start ≤ b.size - fileTrailerLength
  trailed : Trailed b (b.size - fileTrailerLength - start)
  verified : Verify.root .footer (b.extract start (b.size - fileTrailerLength)) = true
  schema : (Flat.root (b.extract start (b.size - fileTrailerLength))).table? 1 = some f.schema
  version : f.version = (Flat.root (b.extract start (b.size - fileTrailerLength))).int 0 2 0
  dictionaries : f.dictionaries =
    (blocks? (Flat.root (b.extract start (b.size - fileTrailerLength))) 2).getD []
  batches : f.batches = blocks? (Flat.root (b.extract start (b.size - fileTrailerLength))) 3

theorem length_magic : magic.length = 6 := rfl

/-- The trailer is cut out of a payload that is long enough to have one. -/
theorem footerLength_eq {b : ByteArray} (h : fileTrailerLength ≤ b.size) :
    footerLength b (b.size - fileTrailerLength) =
      if (b.extract (b.size - magic.length) b.size).data.toList ≠ magic then
        .refuse (.unreadable "the file does not end with its magic word")
      else match int? b (b.size - fileTrailerLength) 4 with
        | some n =>
          if 0 ≤ n then return n.toNat else .refuse (.unreadable "the footer has a negative length")
        | none => .refuse .fileTooShort := by
  have hword : int? (b.extract (b.size - fileTrailerLength) b.size) 0 4
      = int? b (b.size - fileTrailerLength) 4 := by
    unfold int?
    rw [word?_extract (by unfold fileTrailerLength at h ⊢; omega), Nat.add_zero]
  have hmagic : (b.extract (b.size - fileTrailerLength) b.size).extract 4 fileTrailerLength
      = b.extract (b.size - magic.length) b.size := by
    have hstart : b.size - fileTrailerLength + 4 = b.size - magic.length := by
      rw [length_magic]
      unfold fileTrailerLength at h ⊢
      omega
    rw [ByteArray.extract_extract, hstart, Nat.sub_add_cancel h, Nat.min_self]
  have hread := footerLength.eq_1 b (b.size - fileTrailerLength)
  rw [cut_of_le (Nat.sub_le _ _) (Nat.le_refl _), pure_bind, hword, hmagic] at hread
  exact hread

theorem footerLength_eq_pure {b : ByteArray} {n : Nat} (h : fileTrailerLength ≤ b.size) :
    footerLength b (b.size - fileTrailerLength) = pure n ↔ Trailed b n := by
  rw [footerLength_eq h]
  constructor
  · intro h
    obtain ⟨hmagic, h⟩ := Checked.ite_refuse_eq_pure.1 h
    split at h
    · rename_i length hlength
      obtain ⟨hpos, h⟩ := Checked.ite_else_refuse_eq_pure.1 h
      obtain rfl := pure_inj.1 h
      exact ⟨not_not.1 hmagic, by rw [hlength, Int.toNat_of_nonneg hpos]⟩
    · exact absurd h Checked.refuse_ne_pure
  · rintro ⟨hmagic, hlength⟩
    rw [if_neg (not_not.2 hmagic), hlength]
    exact if_pos (Int.natCast_nonneg n)

theorem safe_footerLength {b : ByteArray} (h : fileTrailerLength ≤ b.size) :
    Safe (footerLength b (b.size - fileTrailerLength)) := by
  rw [footerLength_eq h]
  split
  · exact Checked.safe_refuse _
  · split
    · split
      · exact .pure _
      · exact Checked.safe_refuse _
    · exact Checked.safe_refuse _

/-- **The footer that is read is the one that stands before the trailer.** -/
theorem readFooter_eq_pure {b : ByteArray} {f : Footer} {start : Nat} :
    readFooter b = pure (f, start) ↔ f.In b start := by
  constructor
  · intro h
    obtain ⟨hsize, h⟩ := Checked.ite_refuse_eq_pure.1 h
    have hsize := Nat.le_of_not_lt hsize
    have htrailer : fileTrailerLength ≤ b.size := Nat.le_trans (Nat.le_add_left _ _) hsize
    obtain ⟨length, hlength, h⟩ := bind_eq_pure.1 h
    have htrailed := (footerLength_eq_pure htrailer).1 hlength
    obtain ⟨hroom, h⟩ := Checked.ite_refuse_eq_pure.1 h
    dsimp only at h
    rw [cut_of_le (Nat.sub_le _ _) (Nat.sub_le _ _), pure_bind] at h
    obtain ⟨hverified, h⟩ := Checked.ite_else_refuse_eq_pure.1 h
    split at h
    · exact absurd h Checked.refuse_ne_pure
    · rename_i schema hschema
      obtain ⟨rfl, rfl⟩ := Prod.mk.inj (pure_inj.1 h)
      have hlength : b.size - fileTrailerLength - (b.size - fileTrailerLength - length)
          = length := by omega
      exact {
        size := hsize
        start_ge := by omega
        start_le := Nat.sub_le _ _
        trailed := by rw [hlength]; exact htrailed
        verified := hverified
        schema := hschema
        version := rfl
        dictionaries := rfl
        batches := rfl }
  · intro h
    obtain ⟨version, schema, dictionaries, batches⟩ := f
    obtain ⟨hsize, hge, hle, htrailed, hverified, hschema, rfl, rfl, rfl⟩ := h
    have htrailer : fileTrailerLength ≤ b.size := Nat.le_trans (Nat.le_add_left _ _) hsize
    have hstart : b.size - fileTrailerLength - (b.size - fileTrailerLength - start) = start := by
      omega
    unfold readFooter
    rw [if_neg (Nat.not_lt.2 hsize)]
    refine bind_eq_pure.2 ⟨_, (footerLength_eq_pure htrailer).2 htrailed, ?_⟩
    dsimp only
    rw [if_neg (by omega), hstart, cut_of_le hle (Nat.sub_le _ _), pure_bind, if_pos hverified, hschema]

/-- Reading the footer takes no bytes from outside the payload: the trailer is there because the
payload is long enough, and the footer because its length has been compared with what is left. -/
theorem safe_readFooter (b : ByteArray) : Safe (readFooter b) := by
  unfold readFooter
  split
  · exact Checked.safe_refuse _
  · rename_i hsize
    have htrailer : fileTrailerLength ≤ b.size :=
      Nat.le_trans (Nat.le_add_left _ _) (Nat.le_of_not_lt hsize)
    refine (safe_footerLength htrailer).bind fun length _ => ?_
    split
    · exact Checked.safe_refuse _
    · dsimp only
      rw [cut_of_le (Nat.sub_le _ _) (Nat.sub_le _ _), pure_bind]
      split
      · split
        · exact Checked.safe_refuse _
        · exact .pure _
      · exact Checked.safe_refuse _

/-! ## Blocks -/

/-- How many bytes stand before the message in the metadata of the block at a position: a length,
behind a marker or by itself. -/
def prefixLength (b : ByteArray) (start : Nat) : Nat :=
  if u32? b start = some continuationMarker then 8 else 4

/-- A block that stands before `limit` as it was listed, with its message and its buffers. -/
structure PlacedBlock.In (p : PlacedBlock) (b : ByteArray) (limit : Nat) (block : Block) : Prop where
  listed : block = ⟨p.start, p.metadataLength, p.bodyLength⟩
  metadataLength_ge : 8 ≤ p.metadataLength
  stop_le : p.start + p.metadataLength + p.bodyLength ≤ limit
  message : Message.ofBytes?
    (b.extract (p.start + prefixLength b p.start) (p.start + p.metadataLength)) = some p.message
  buffers : p.message.BuffersInside p.bodyLength

/-- The message of a block that is long enough for a marker and a length. -/
theorem blockMessage_eq {b : ByteArray} {start stop : Nat} (hlength : start + 8 ≤ stop)
    (hstop : stop ≤ b.size) :
    blockMessage b start stop = readMessage (b.extract (start + prefixLength b start) stop) := by
  have hsize : (b.extract start stop).size = stop - start := size_extract_of_le hstop
  have hfirst : u32? ((b.extract start stop).extract 0 4) 0 = u32? b start := by
    unfold u32?
    rw [word?_extract (by omega), word?_extract (by omega), Nat.add_zero]
  have hlead : prefixLength b start ≤ stop - start := by
    unfold prefixLength
    split <;> omega
  have hrest : (b.extract start stop).extract (prefixLength b start) (stop - start)
      = b.extract (start + prefixLength b start) stop := by
    rw [ByteArray.extract_extract, Nat.add_sub_cancel' (by omega), Nat.min_self]
  unfold blockMessage
  rw [cut_of_le (by omega) hstop, pure_bind, cut_of_le (by omega) (by omega), pure_bind, hfirst, hsize]
  change cut (b.extract start stop) (prefixLength b start) (stop - start) >>= readMessage = _
  rw [cut_of_le hlead (by omega), pure_bind, hrest]

/-- **A block that is placed stands in the payload as it was listed.** -/
theorem placeBlock_eq_pure {b : ByteArray} {limit : Nat} {block : Block} {p : PlacedBlock}
    (hlimit : limit ≤ b.size) : placeBlock b limit block = pure p ↔ p.In b limit block := by
  constructor
  · intro h
    obtain ⟨offset, hoffset, h⟩ := bind_eq_pure.1 h
    obtain ⟨metadataLength, hmetadata, h⟩ := bind_eq_pure.1 h
    obtain ⟨bodyLength, hbody, h⟩ := bind_eq_pure.1 h
    rw [nonNegative_eq_pure] at hoffset hmetadata hbody
    obtain ⟨hlength, h⟩ := Checked.ite_refuse_eq_pure.1 h
    obtain ⟨stop, hstop, h⟩ := bind_eq_pure.1 h
    obtain ⟨rfl, hstop⟩ := span_eq_pure.1 hstop
    obtain ⟨_, hend, h⟩ := bind_eq_pure.1 h
    obtain ⟨rfl, hend⟩ := span_eq_pure.1 hend
    rw [blockMessage_eq (by omega) (by omega)] at h
    obtain ⟨message, hmessage, h⟩ := bind_eq_pure.1 h
    obtain ⟨_, hbuffers, h⟩ := bind_eq_pure.1 h
    obtain rfl := pure_inj.1 h
    obtain ⟨_, _, _⟩ := block
    exact {
      listed := by rw [Block.mk.injEq]; exact ⟨hoffset, hmetadata, hbody⟩
      metadataLength_ge := Nat.le_of_not_lt hlength
      stop_le := hend
      message := readMessage_eq_pure.1 hmessage
      buffers := Message.checkBuffers_eq_pure.1 hbuffers }
  · rintro ⟨rfl, hlength, hstop, hmessage, hbuffers⟩
    refine bind_eq_pure.2 ⟨_, nonNegative_eq_pure.2 rfl, ?_⟩
    refine bind_eq_pure.2 ⟨_, nonNegative_eq_pure.2 rfl, ?_⟩
    refine bind_eq_pure.2 ⟨_, nonNegative_eq_pure.2 rfl, ?_⟩
    rw [if_neg (Nat.not_lt.2 hlength)]
    refine bind_eq_pure.2 ⟨_, span_eq_pure.2 ⟨rfl, by omega⟩, ?_⟩
    refine bind_eq_pure.2 ⟨_, span_eq_pure.2 ⟨rfl, hstop⟩, ?_⟩
    rw [blockMessage_eq (by omega) (by omega)]
    refine bind_eq_pure.2 ⟨_, readMessage_eq_pure.2 hmessage, ?_⟩
    exact bind_eq_pure.2 ⟨_, Message.checkBuffers_eq_pure.2 hbuffers, rfl⟩

/-- Placing a block takes no bytes from outside the payload: its metadata is cut out only after its end
has been found to lie before the footer, and it is long enough for what is read before its message. -/
theorem safe_placeBlock {b : ByteArray} {limit : Nat} (hlimit : limit ≤ b.size) (block : Block) :
    Safe (placeBlock b limit block) := by
  refine (safe_nonNegative _ _).bind fun offset _ => ?_
  refine (safe_nonNegative _ _).bind fun metadataLength _ => ?_
  refine (safe_nonNegative _ _).bind fun bodyLength _ => ?_
  split
  · exact Checked.safe_refuse _
  · refine (safe_span _ _ _ _).bind fun stop hstop => ?_
    obtain ⟨rfl, hstop⟩ := span_eq_pure.1 hstop
    refine (safe_span _ _ _ _).bind fun _ _ => ?_
    rw [blockMessage_eq (by omega) (by omega)]
    refine (safe_readMessage _).bind fun m _ => ?_
    exact (safe_checkBuffers _ _).bind fun _ _ => .pure _

theorem placeBlocks_eq_pure {b : ByteArray} {limit : Nat} (hlimit : limit ≤ b.size)
    {blocks : List Block} {ps : List PlacedBlock} :
    placeBlocks b limit blocks = pure ps ↔
      List.Forall₂ (fun p block => p.In b limit block) ps blocks := by
  induction blocks generalizing ps with
  | nil =>
    rw [placeBlocks, pure_inj, List.forall₂_nil_right_iff]
    exact eq_comm
  | cons block rest ih =>
    rw [placeBlocks, List.forall₂_cons_right_iff]
    constructor
    · intro h
      obtain ⟨p, hp, h⟩ := bind_eq_pure.1 h
      obtain ⟨ps, hps, h⟩ := bind_eq_pure.1 h
      exact ⟨p, ps, (placeBlock_eq_pure hlimit).1 hp, ih.1 hps, (pure_inj.1 h).symm⟩
    · rintro ⟨p, ps, hp, hps, rfl⟩
      refine bind_eq_pure.2 ⟨p, (placeBlock_eq_pure hlimit).2 hp, ?_⟩
      exact bind_eq_pure.2 ⟨ps, ih.2 hps, rfl⟩

theorem safe_placeBlocks {b : ByteArray} {limit : Nat} (hlimit : limit ≤ b.size)
    (blocks : List Block) : Safe (placeBlocks b limit blocks) := by
  induction blocks with
  | nil => exact .pure _
  | cons block rest ih =>
    refine (safe_placeBlock hlimit block).bind fun _ _ => ?_
    exact ih.bind fun _ _ => .pure _

/-! ## What a reader takes from a block -/

/-- What a reader takes from a block is there: the block, its body in the block, and in the body every
buffer that the message lists. -/
structure PlacedBlock.Readable (p : PlacedBlock) (b : ByteArray) : Prop where
  block : (slice? b p.start (p.metadataLength + p.bodyLength)).isSome
  body : ∀ dictionaries, slice? b (p.start + p.metadataLength) p.bodyLength =
    some (blockSite b p dictionaries).body
  buffers : ∀ dictionaries, ∀ header ∈ p.message.batch?, ∀ buffers ∈ header.buffers, ∀ q ∈ buffers,
    (slice? (blockSite b p dictionaries).body (Load.countOf q.1) (Load.countOf q.2)).isSome

theorem slice?_of_le {b : ByteArray} {start len : Nat} (h : start + len ≤ b.size) :
    slice? b start len = some (b.extract start (start + len)) := if_pos h

theorem Message.BuffersInside.of_batch? {m : Message} {size : Nat} (h : m.BuffersInside size)
    {header : BatchHeader} (hheader : m.batch? = some header) : header.BuffersInside size := by
  unfold BuffersInside at h
  unfold batch? at hheader
  cases hm : m.header with
  | batch =>
    rw [hm] at h hheader
    exact Option.some.inj hheader ▸ h
  | dictionary _ _ data =>
    rw [hm] at h hheader
    obtain rfl : data = some header := hheader
    exact h
  | none | schema | other =>
    rw [hm] at hheader
    cases hheader

/-- A block that stands in the payload can be read, if the length of its body is a word. -/
theorem PlacedBlock.In.readable {p : PlacedBlock} {b : ByteArray} {limit : Nat} {block : Block}
    (h : p.In b limit block) (hlimit : limit ≤ b.size) (hword : IsWord block.bodyLength) :
    p.Readable b := by
  have hstop := h.stop_le
  have hbody : (p.bodyLength : Int) < 0x8000000000000000 := by
    have := hword.2
    rwa [h.listed] at this
  have hsize : ∀ dictionaries, (blockSite b p dictionaries).body.size = p.bodyLength := by
    intro dictionaries
    show (b.extract _ _).size = _
    rw [size_extract_of_le (by omega)]
    omega
  refine ⟨?_, fun dictionaries => slice?_of_le (by omega), ?_⟩
  · rw [slice?_of_le (by omega)]
    rfl
  · intro dictionaries header hheader buffers hbuffers q hq
    obtain ⟨hoffset, hlength, hinside⟩ := h.buffers.of_batch? hheader buffers hbuffers q hq
    have hoffset := Load.countOf_of_nonneg ⟨by omega, by omega⟩ hoffset
    have hlength := Load.countOf_of_nonneg ⟨by omega, by omega⟩ hlength
    rw [slice?_of_le (by rw [hsize]; omega)]
    rfl

/-- The lengths that a list of blocks declares are signed words. -/
theorem isWord_of_blocks? {t : Flat} {member : Nat} {blocks : List Block}
    (h : blocks? t member = some blocks) : ∀ block ∈ blocks, IsWord block.bodyLength := by
  obtain ⟨⟨start, n⟩, -, rfl⟩ := Option.map_eq_some_iff.1 h
  intro block hblock
  obtain ⟨i, -, rfl⟩ := List.mem_map.1 hblock
  dsimp only
  cases hword : int? t.buffer (start + i * 24 + 16) 8 with
  | none => exact ⟨by decide, by decide⟩
  | some length => exact int?_bounds hword

/-! ## The check of a file -/

/-- The blocks of a file, dictionaries first. -/
def CheckedFile.blocks (f : CheckedFile) : List PlacedBlock := f.dictionaries ++ f.batches.getD []

/-- A file stands in a payload: its footer stands at `start`, and all the blocks that the footer lists
stand before it, as they are listed. -/
structure CheckedFile.In (f : CheckedFile) (b : ByteArray) (footer : Footer) (start : Nat) : Prop where
  stands : footer.In b start
  version : f.version = footer.version
  schema : f.schema = footer.schema
  dictionaries : List.Forall₂ (fun p block => p.In b start block) f.dictionaries footer.dictionaries
  batches : Option.Rel (List.Forall₂ fun p block => p.In b start block) f.batches footer.batches

theorem Footer.In.start_le_size {f : Footer} {b : ByteArray} {start : Nat} (h : f.In b start) :
    start ≤ b.size := Nat.le_trans h.start_le (Nat.sub_le _ _)

/-- **The check of a file finds exactly the files that stand in the payload.** -/
theorem checkFile_eq_pure {b : ByteArray} {f : CheckedFile} :
    checkFile b = pure f ↔ ∃ footer start, f.In b footer start := by
  constructor
  · intro h
    obtain ⟨⟨footer, start⟩, hfooter, h⟩ := bind_eq_pure.1 h
    have hfooter := readFooter_eq_pure.1 hfooter
    obtain ⟨dictionaries, hdictionaries, h⟩ := bind_eq_pure.1 h
    have hdictionaries := (placeBlocks_eq_pure hfooter.start_le_size).1 hdictionaries
    refine ⟨footer, start, ?_⟩
    cases hbatches : footer.batches with
    | none =>
      rw [hbatches] at h
      obtain rfl := pure_inj.1 h
      exact ⟨hfooter, rfl, rfl, hdictionaries, hbatches ▸ .none⟩
    | some blocks =>
      rw [hbatches] at h
      obtain ⟨batches, hplaced, h⟩ := bind_eq_pure.1 h
      obtain rfl := pure_inj.1 h
      refine ⟨hfooter, rfl, rfl, hdictionaries, hbatches ▸ .some ?_⟩
      exact (placeBlocks_eq_pure hfooter.start_le_size).1 hplaced
  · rintro ⟨footer, start, hfooter, hversion, hschema, hdictionaries, hbatches⟩
    obtain ⟨version, schema, dictionaries, batches⟩ := f
    obtain rfl := hversion
    obtain rfl := hschema
    refine bind_eq_pure.2 ⟨_, readFooter_eq_pure.2 hfooter, ?_⟩
    refine bind_eq_pure.2 ⟨_, (placeBlocks_eq_pure hfooter.start_le_size).2 hdictionaries, ?_⟩
    dsimp only at hbatches ⊢
    cases hlisted : footer.batches with
    | none =>
      rw [hlisted] at hbatches
      cases hbatches
      rfl
    | some blocks =>
      rw [hlisted] at hbatches
      cases hbatches with
      | some hplaced =>
        exact bind_eq_pure.2 ⟨_, (placeBlocks_eq_pure hfooter.start_le_size).2 hplaced, rfl⟩

theorem safe_checkFile (b : ByteArray) : Safe (checkFile b) := by
  refine (safe_readFooter b).bind ?_
  rintro ⟨footer, start⟩ hfooter
  have hstart := (readFooter_eq_pure.1 hfooter).start_le_size
  refine (safe_placeBlocks hstart _).bind fun dictionaries _ => ?_
  split
  · exact .pure _
  · exact (safe_placeBlocks hstart _).bind fun _ _ => .pure _

/-- All the blocks of a file that stands in a payload can be read. -/
theorem CheckedFile.In.readable {f : CheckedFile} {b : ByteArray} {footer : Footer} {start : Nat}
    (h : f.In b footer start) : ∀ p ∈ f.blocks, p.Readable b := by
  have hlimit := h.stands.start_le_size
  have readable : ∀ (ps : List PlacedBlock) (blocks : List Block),
      List.Forall₂ (fun p block => p.In b start block) ps blocks →
      (∀ block ∈ blocks, IsWord block.bodyLength) → ∀ p ∈ ps, p.Readable b := by
    intro ps blocks hplaced
    induction hplaced with
    | nil => exact fun _ p hp => absurd hp List.not_mem_nil
    | cons hp _ ih =>
      intro hwords
      obtain ⟨hword, hrest⟩ := List.forall_mem_cons.1 hwords
      exact List.forall_mem_cons.2 ⟨hp.readable hlimit hword, ih hrest⟩
  refine List.forall_mem_append.2 ⟨readable _ _ h.dictionaries ?_, ?_⟩
  · rw [h.stands.dictionaries]
    cases hblocks : blocks? (Flat.root (b.extract start (b.size - fileTrailerLength))) 2 with
    | none => exact fun block hblock => absurd hblock List.not_mem_nil
    | some blocks => exact isWord_of_blocks? hblocks
  · have hbatches := h.batches
    generalize hlisted : footer.batches = listed at hbatches
    generalize f.batches = placed at hbatches ⊢
    cases hbatches with
    | none => exact fun p hp => absurd hp List.not_mem_nil
    | some hplaced =>
      exact readable _ _ hplaced (isWord_of_blocks? (h.stands.batches.symm.trans hlisted))

theorem not_isEmpty_of_isFile {b : ByteArray} (h : isFile b = true) : ¬ b.isEmpty = true := by
  intro hempty
  have hsize : b.size = 0 := eq_of_beq hempty
  have hlength := congrArg List.length (eq_of_beq h)
  rw [Array.length_toList, ByteArray.size_data, ByteArray.size_extract, length_magic] at hlength
  omega

/-- **The check of a file is sound.** It ends with every payload and never takes bytes from outside of
it. It passes exactly the payloads that have a trailer, before the trailer a footer with a schema, and
before the footer every block that the footer lists, with its message and its buffers; then all that
a reader takes from the blocks is there. Every other payload is refused as one that cannot be read,
and such a payload has no table. -/
theorem checkFile_sound [Allocator] (b : ByteArray) :
    (∀ crash, (checkFile b).run ≠ .error crash) ∧
    (∀ f, checkFile b = pure f ↔ ∃ footer start, f.In b footer start) ∧
    (∀ f, checkFile b = pure f → 18 ≤ b.size ∧ ∀ p ∈ f.blocks, p.Readable b) ∧
    ((∃ fault, checkFile b = .refuse fault) ↔
      ¬ ∃ (f : CheckedFile) (footer : Footer) (start : Nat), f.In b footer start) ∧
    (∀ fault, checkFile b = .refuse fault → isFile b = true →
      Columnar.decode b = Columnar.fail (.arrow fault)) := by
  have hsafe := safe_checkFile b
  refine ⟨?_, fun f => checkFile_eq_pure, fun f hf => ?_, ?_, fun fault h hb => ?_⟩
  · intro crash h
    obtain ⟨r, hr⟩ := hsafe
    rw [hr] at h
    cases h
  · obtain ⟨footer, start, hin⟩ := checkFile_eq_pure.1 hf
    exact ⟨hin.stands.size, hin.readable⟩
  · constructor
    · rintro ⟨fault, h⟩ ⟨f, hf⟩
      exact Checked.refuse_ne_pure (h.symm.trans (checkFile_eq_pure.2 hf))
    · intro h
      rcases Checked.refuse_or_pure hsafe with hr | ⟨f, hf⟩
      · exact hr
      · exact absurd ⟨f, checkFile_eq_pure.1 hf⟩ h
  · refine decode_of_unread (not_isEmpty_of_isFile hb) ?_
    unfold readPayload
    rw [if_pos hb, h]
    rfl

end DataClient.Arrow
