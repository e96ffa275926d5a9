import DataClient.Proofs.Arrow.Frame
import DataClient.Table.Columnar

/-!
# The language of framed payloads

`Framed` says which bytes are a payload in stream form, as they are written: announcements, metadata
and bodies one behind the other, up to the end of the bytes or to a zero length that anything may
follow. The walk over a payload accepts exactly these bytes; whatever else comes is refused as a
payload that cannot be read, and no bytes are ever taken from where there are none.
-/

set_option autoImplicit false

namespace DataClient.Arrow

open Outcome Bytes

/-- The bytes that announce metadata of a length. -/
def announcement (marked : Bool) (length : Nat) : List UInt8 :=
  (if marked then ofWord 4 continuationMarker else []) ++ ofWord 4 length

/-- Metadata that may stand in front of a body. -/
structure Describes (metadata body : List UInt8) : Prop where
  length_pos : 0 < metadata.length
  length_le : metadata.length ≤ maxMetadataLength
  message : ∃ m, Message.ofBytes? ⟨metadata.toArray⟩ = some m ∧ m.bodyLength = body.length ∧
    m.BuffersInside body.length

/-- Bytes that are a sequence of frames. -/
inductive Framed : List UInt8 → Prop
  | nothing : Framed []
  /-- A zero length ends the sequence, whatever follows it. -/
  | stop (marked : Bool) (rest : List UInt8) : Framed (announcement marked 0 ++ rest)
  | frame (marked : Bool) {metadata body rest : List UInt8} (h : Describes metadata body)
    (hrest : Framed rest) :
    Framed (announcement marked metadata.length ++ (metadata ++ (body ++ rest)))

/-! ## Announcements -/

theorem Announced.suffix_eq {b : ByteArray} {pos length : Nat} {marked : Bool}
    (h : Announced b pos marked length) :
    suffix b pos = announcement marked length ++ suffix b (pos + if marked then 8 else 4) := by
  cases marked with
  | true =>
    obtain ⟨hm, hl⟩ := h
    have hm := take_suffix_of_word? hm
    have hl := take_suffix_of_word? hl
    rw [suffix_eq_append b pos 4, hm, suffix_eq_append b (pos + 4) 4, hl]
    exact (List.append_assoc _ _ _).symm
  | false =>
    rw [suffix_eq_append b pos 4, take_suffix_of_word? h.1]
    rfl

theorem announced_of_suffix {b : ByteArray} {pos length : Nat} {marked : Bool} {rest : List UInt8}
    (h : suffix b pos = announcement marked length ++ rest) (hle : length ≤ maxMetadataLength) :
    Announced b pos marked length := by
  have hlt : length < Nat.pow 256 4 := Nat.lt_of_le_of_lt hle (by decide)
  cases marked with
  | true =>
    have h : suffix b pos = ofWord 4 continuationMarker ++ (ofWord 4 length ++ rest) := by
      rw [h, announcement, if_pos rfl, List.append_assoc]
    have hl : suffix b (pos + 4) = ofWord 4 length ++ rest := by
      rw [suffix_add, h, List.drop_left' (length_ofWord 4 _)]
    exact ⟨word?_of_suffix (by decide) h, word?_of_suffix hlt hl⟩
  | false =>
    refine ⟨word?_of_suffix hlt h, ?_⟩
    unfold maxMetadataLength at hle
    unfold continuationMarker
    omega

@[simp] theorem length_announcement (marked : Bool) (length : Nat) :
    (announcement marked length).length = if marked then 8 else 4 := by
  cases marked <;> simp [announcement]

/-- What follows an announcement stands behind it. -/
theorem suffix_behind {b : ByteArray} {pos length : Nat} {marked : Bool} {rest : List UInt8}
    (h : suffix b pos = announcement marked length ++ rest) :
    suffix b (pos + if marked then 8 else 4) = rest := by
  rw [suffix_add, h, List.drop_left' (length_announcement marked length)]

/-! ## Frames as bytes -/

/-- The metadata of a frame. -/
def Frame.metadata (b : ByteArray) (f : Frame) : List UInt8 :=
  (b.extract f.metadataStart f.bodyStart).data.toList

/-- The body of a frame. -/
def Frame.body (b : ByteArray) (f : Frame) : List UInt8 :=
  (b.extract f.bodyStart f.stop).data.toList

theorem Frame.In.length_metadata {f : Frame} {b : ByteArray} (h : f.In b) :
    (f.metadata b).length = f.metadataLength := by
  rw [Frame.metadata, Array.length_toList, ByteArray.size_data, size_extract_of_le h.bodyStart_le,
    Frame.bodyStart]
  omega

theorem Frame.In.length_body {f : Frame} {b : ByteArray} (h : f.In b) :
    (f.body b).length = f.bodyLength := by
  rw [Frame.body, Array.length_toList, ByteArray.size_data, size_extract_of_le h.stop_le,
    Frame.stop]
  omega

theorem Frame.In.describes {f : Frame} {b : ByteArray} (h : f.In b) :
    Describes (f.metadata b) (f.body b) where
  length_pos := h.length_metadata ▸ h.length_pos
  length_le := h.length_metadata ▸ h.length_le
  message := ⟨f.message, h.message, by rw [h.length_body]; exact h.bodyLength,
    by rw [h.length_body]; exact h.buffers⟩

/-- The bytes from a frame on are its announcement, its metadata, its body and what follows. -/
theorem Frame.In.suffix_eq {f : Frame} {b : ByteArray} (h : f.In b) :
    suffix b f.start = announcement f.marked (f.metadata b).length ++
      (f.metadata b ++ (f.body b ++ suffix b f.stop)) := by
  have hmeta : suffix b f.metadataStart = f.metadata b ++ suffix b f.bodyStart := by
    rw [suffix_eq_append b f.metadataStart f.metadataLength, Frame.metadata, Frame.bodyStart,
      toList_extract]
  have hbody : suffix b f.bodyStart = f.body b ++ suffix b f.stop := by
    rw [suffix_eq_append b f.bodyStart f.bodyLength, Frame.body, Frame.stop, toList_extract]
  rw [h.length_metadata, h.announced.suffix_eq, ← hbody, ← hmeta]
  rfl

theorem Walk.framed {b : ByteArray} {pos : Nat} {fs : List Frame} (h : Walk b pos fs) :
    Framed (suffix b pos) := by
  induction h with
  | done h => rw [suffix_eq_nil h]; exact .nothing
  | stop h => rw [h.suffix_eq]; exact .stop _ _
  | frame h _ ih => rw [h.suffix_eq]; exact .frame _ h.describes ih

/-! ## Bytes as frames -/

/-- Where metadata and a body that it describes follow an announcement, there stands a frame. -/
theorem Describes.exists_frame {b : ByteArray} {pos : Nat} {marked : Bool}
    {metadata body rest : List UInt8} (h : Describes metadata body)
    (hs : suffix b pos = announcement marked metadata.length ++ (metadata ++ (body ++ rest))) :
    ∃ f : Frame, f.start = pos ∧ f.In b ∧ suffix b f.stop = rest := by
  obtain ⟨m, hm, hbody, hbuf⟩ := h.message
  -- The lengths of the parts say where each part of the frame begins.
  let f : Frame := ⟨pos, marked, metadata.length, body.length, m⟩
  have hmeta : suffix b f.metadataStart = metadata ++ (body ++ rest) := suffix_behind hs
  have hbodyAt : suffix b f.bodyStart = body ++ rest := by
    rw [Frame.bodyStart, suffix_add, hmeta, List.drop_left]
  have hstop : suffix b f.stop = rest := by
    rw [Frame.stop, suffix_add, hbodyAt, List.drop_left]
  have hbytes : b.extract f.metadataStart f.bodyStart = ⟨metadata.toArray⟩ := by
    apply eq_of_toList
    rw [Frame.bodyStart, toList_extract, hmeta, List.take_left]
  have hann := announced_of_suffix hs h.length_le
  -- The body is there in full because all of it stands behind the announcement.
  have hsize : f.stop ≤ b.size := by
    have hlen := congrArg List.length hmeta
    have hmle := hann.le_size
    rw [length_suffix, List.length_append, List.length_append] at hlen
    have hmle : f.metadataStart ≤ b.size := hmle
    show f.metadataStart + metadata.length + body.length ≤ b.size
    omega
  exact ⟨f, rfl, {
    announced := hann
    length_pos := h.length_pos
    length_le := h.length_le
    message := by rw [hbytes]; exact hm
    bodyLength := hbody
    buffers := hbuf
    stop_le := hsize }, hstop⟩

theorem Framed.exists_walk {b : ByteArray} {bytes : List UInt8} (h : Framed bytes) :
    ∀ pos, suffix b pos = bytes → ∃ fs, Walk b pos fs := by
  induction h with
  | nothing =>
    intro pos hs
    have hlen := congrArg List.length hs
    rw [length_suffix, List.length_nil] at hlen
    exact ⟨[], .done (by omega)⟩
  | stop marked rest =>
    intro pos hs
    exact ⟨[], .stop (announced_of_suffix hs (Nat.zero_le _))⟩
  | frame marked h _ ih =>
    intro pos hs
    obtain ⟨f, rfl, hf, hrest⟩ := h.exists_frame hs
    obtain ⟨fs, hw⟩ := ih f.stop hrest
    exact ⟨f :: fs, .frame hf hw⟩

/-! ## The walk accepts the language -/

theorem exists_frames_iff (b : ByteArray) :
    (∃ fs, frames b = pure fs) ↔ Framed b.data.toList := by
  constructor
  · rintro ⟨fs, h⟩
    exact (framesFrom_eq_pure.1 h).framed
  · intro h
    obtain ⟨fs, hw⟩ := h.exists_walk 0 (rfl : suffix b 0 = _)
    exact ⟨fs, framesFrom_eq_pure.2 hw⟩

theorem frames_empty {b : ByteArray} (h : b.isEmpty = true) : frames b = pure [] := by
  have hs : b.size = 0 := eq_of_beq h
  exact framesFrom_eq_pure.2 (.done (by omega))

/-- A payload that cannot be read has no table. -/
theorem decode_of_unread [Allocator] {b : ByteArray} {fault : PayloadFault}
    (hne : ¬ b.isEmpty = true)
    (h : readPayload b = .refuse fault) : Columnar.decode b = Columnar.fail (.arrow fault) := by
  rw [Columnar.decode, if_neg hne, h]
  rfl

/-- What the walk refuses is no table but an error of the payload. -/
theorem decode_of_refused [Allocator] {b : ByteArray} {fault : PayloadFault} (hb : isFile b = false)
    (h : frames b = .refuse fault) : Columnar.decode b = Columnar.fail (.arrow fault) := by
  refine decode_of_unread ?_ ?_
  · intro he
    rw [frames_empty he] at h
    exact Checked.refuse_ne_pure h.symm
  · unfold readPayload
    rw [hb, h]
    rfl

/-- **The walk over a payload accepts exactly the framed bytes.** It ends with every payload and
never takes bytes from outside of it; what is not framed it refuses, and such a payload has no
table. -/
theorem frames_iff_framed [Allocator] (b : ByteArray) :
    (∀ crash, (frames b).run ≠ .error crash) ∧
    ((∃ fs, frames b = pure fs) ↔ Framed b.data.toList) ∧
    ((∃ fault, frames b = .refuse fault) ↔ ¬ Framed b.data.toList) ∧
    (∀ fault, frames b = .refuse fault → isFile b = false →
      Columnar.decode b = Columnar.fail (.arrow fault)) := by
  have hsafe : Safe (frames b) := safe_framesFrom b 0
  refine ⟨?_, exists_frames_iff b, ?_, fun fault h hb => decode_of_refused hb h⟩
  · intro crash h
    obtain ⟨r, hr⟩ := hsafe
    rw [hr] at h
    cases h
  · rw [← exists_frames_iff]
    constructor
    · rintro ⟨fault, h⟩ ⟨fs, hfs⟩
      exact Checked.refuse_ne_pure (h.symm.trans hfs)
    · intro h
      rcases Checked.refuse_or_pure hsafe with hr | hp
      · exact hr
      · exact absurd hp h

end DataClient.Arrow
