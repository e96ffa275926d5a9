import DataClient.Proofs.Bytes.Words
import DataClient.Proofs.Outcome

/-!
# What the walk over frames finds

`Frame.In b f` says that the frame `f` stands in the payload `b`: its length is announced where it
begins, its metadata reads as its message, and its body and buffers lie inside. One step of the walk
finds exactly such frames (`frameAt_eq_some`), stops exactly at a zero length (`frameAt_eq_none`),
and takes no bytes from outside the payload (`safe_frameAt`). `Walk` puts the steps together, and
the walk over a payload is a run of it (`framesFrom_eq_pure`).
-/

set_option autoImplicit false

namespace DataClient.Arrow

open Outcome

/-! ## Checks of numbers -/

@[simp] theorem span_eq_pure {part : PayloadPart} {start length limit stop : Nat} :
    span part start length limit = pure stop ↔ start + length = stop ∧ stop ≤ limit := by
  unfold span
  rw [Checked.ite_else_refuse_eq_pure, pure_inj]
  omega

theorem safe_span (part : PayloadPart) (start length limit : Nat) :
    Safe (span part start length limit) := by
  unfold span
  split
  · exact .pure _
  · exact Checked.safe_refuse _

@[simp] theorem nonNegative_eq_pure {number : DeclaredNumber} {value : Int} {n : Nat} :
    nonNegative number value = pure n ↔ value = n := by
  unfold nonNegative
  rw [Checked.ite_else_refuse_eq_pure, pure_inj]
  omega

theorem safe_nonNegative (number : DeclaredNumber) (value : Int) :
    Safe (nonNegative number value) := by
  unfold nonNegative
  split
  · exact .pure _
  · exact Checked.safe_refuse _

/-! ## Buffers -/

/-- The buffers that a batch lists lie in a body of `size` bytes. -/
def BatchHeader.BuffersInside (h : BatchHeader) (size : Nat) : Prop :=
  ∀ buffers ∈ h.buffers, ∀ p ∈ buffers, 0 ≤ p.1 ∧ 0 ≤ p.2 ∧ p.1 + p.2 ≤ size

/-- The buffers of the record batch, or of the dictionary batch with data, that a message carries
lie in a body of `size` bytes. -/
def Message.BuffersInside (m : Message) (size : Nat) : Prop :=
  match m.header with
  | .batch h => h.BuffersInside size
  | .dictionary _ _ (some h) => h.BuffersInside size
  | _ => True

@[simp] theorem checkBuffers_eq_pure {size : Nat} {buffers : List (Int × Int)} :
    checkBuffers size buffers = pure () ↔
      ∀ p ∈ buffers, 0 ≤ p.1 ∧ 0 ≤ p.2 ∧ p.1 + p.2 ≤ size := by
  induction buffers with
  | nil => exact ⟨fun _ p hp => absurd hp List.not_mem_nil, fun _ => rfl⟩
  | cons p rest ih =>
    obtain ⟨offset, length⟩ := p
    rw [checkBuffers, List.forall_mem_cons, ← ih]
    constructor
    · intro h
      obtain ⟨o, ho, h⟩ := bind_eq_pure.1 h
      obtain ⟨l, hl, h⟩ := bind_eq_pure.1 h
      obtain ⟨stop, hs, h⟩ := bind_eq_pure.1 h
      rw [nonNegative_eq_pure] at ho hl
      rw [span_eq_pure] at hs
      refine ⟨?_, h⟩
      dsimp only
      omega
    · rintro ⟨⟨ho, hl, hs⟩, h⟩
      dsimp only at ho hl hs
      refine bind_eq_pure.2 ⟨offset.toNat, nonNegative_eq_pure.2 (by omega), ?_⟩
      refine bind_eq_pure.2 ⟨length.toNat, nonNegative_eq_pure.2 (by omega), ?_⟩
      exact bind_eq_pure.2 ⟨_, span_eq_pure.2 ⟨rfl, by omega⟩, h⟩

theorem safe_checkBuffers (size : Nat) (buffers : List (Int × Int)) :
    Safe (checkBuffers size buffers) := by
  induction buffers with
  | nil => exact .pure _
  | cons p rest ih =>
    rw [checkBuffers]
    refine (safe_nonNegative _ _).bind fun _ _ => ?_
    refine (safe_nonNegative _ _).bind fun _ _ => ?_
    exact (safe_span _ _ _ _).bind fun _ _ => ih

@[simp] theorem Message.checkBuffers_eq_pure {m : Message} {size : Nat} :
    m.checkBuffers size = pure () ↔ m.BuffersInside size := by
  have batch : ∀ h : BatchHeader,
      (∀ p ∈ h.buffers.getD [], 0 ≤ p.1 ∧ 0 ≤ p.2 ∧ p.1 + p.2 ≤ size) ↔ h.BuffersInside size := by
    intro h
    unfold BatchHeader.BuffersInside
    cases h.buffers with
    | none => simp
    | some buffers => simp
  rw [Message.checkBuffers, Arrow.checkBuffers_eq_pure, Message.batch?, Message.BuffersInside]
  cases m.header with
  | batch h => exact batch h
  | dictionary id isDelta data =>
    cases data with
    | none => simp
    | some h => exact batch h
  | none => simp
  | schema t => simp
  | other n => simp

/-! ## One frame -/

@[simp] theorem lengthAt_eq_pure {b : ByteArray} {pos n : Nat} :
    lengthAt b pos = pure n ↔ Bytes.u32? b pos = some n := by
  unfold lengthAt
  cases Bytes.u32? b pos with
  | none => exact ⟨fun h => absurd h Checked.refuse_ne_pure, fun h => by cases h⟩
  | some m => rw [pure_inj, Option.some.injEq]

theorem safe_lengthAt (b : ByteArray) (pos : Nat) : Safe (lengthAt b pos) := by
  unfold lengthAt
  split
  · exact .pure _
  · exact Checked.safe_refuse _

/-- A length stands at a position, behind a marker or by itself; a length by itself does not look
like the marker. -/
def Announced (b : ByteArray) (pos : Nat) (marked : Bool) (length : Nat) : Prop :=
  if marked then
    Bytes.u32? b pos = some continuationMarker ∧ Bytes.u32? b (pos + 4) = some length
  else Bytes.u32? b pos = some length ∧ length ≠ continuationMarker

@[simp] theorem metadataLengthAt_eq_pure {b : ByteArray} {pos length : Nat} {marked : Bool} :
    metadataLengthAt b pos = pure (marked, length) ↔ Announced b pos marked length := by
  constructor
  · intro h
    obtain ⟨n, hn, h⟩ := bind_eq_pure.1 h
    rw [lengthAt_eq_pure] at hn
    split at h
    · rename_i hmark
      obtain ⟨n', hn', h⟩ := bind_eq_pure.1 h
      rw [lengthAt_eq_pure] at hn'
      obtain ⟨rfl, rfl⟩ := Prod.mk.inj (pure_inj.1 h)
      exact ⟨hmark ▸ hn, hn'⟩
    · rename_i hmark
      obtain ⟨rfl, rfl⟩ := Prod.mk.inj (pure_inj.1 h)
      exact ⟨hn, hmark⟩
  · intro h
    cases marked with
    | true =>
      obtain ⟨hm, hl⟩ := h
      refine bind_eq_pure.2 ⟨_, lengthAt_eq_pure.2 hm, ?_⟩
      rw [if_pos rfl]
      exact bind_eq_pure.2 ⟨_, lengthAt_eq_pure.2 hl, rfl⟩
    | false =>
      obtain ⟨hl, hne⟩ := h
      refine bind_eq_pure.2 ⟨_, lengthAt_eq_pure.2 hl, ?_⟩
      rw [if_neg hne]

theorem safe_metadataLengthAt (b : ByteArray) (pos : Nat) : Safe (metadataLengthAt b pos) := by
  refine (safe_lengthAt b pos).bind fun n _ => ?_
  split
  · exact (safe_lengthAt b (pos + 4)).bind fun _ _ => .pure _
  · exact .pure _

/-- The announcement lies inside the payload. -/
theorem Announced.le_size {b : ByteArray} {pos length : Nat} {marked : Bool}
    (h : Announced b pos marked length) : pos + (if marked then 8 else 4) ≤ b.size := by
  cases marked with
  | true =>
    have := Bytes.le_size_of_word? (by omega) h.2
    simpa using this
  | false =>
    have := Bytes.le_size_of_word? (by omega) h.1
    simpa using this

/-- A frame stands in a payload. -/
structure Frame.In (f : Frame) (b : ByteArray) : Prop where
  announced : Announced b f.start f.marked f.metadataLength
  length_pos : 0 < f.metadataLength
  length_le : f.metadataLength ≤ maxMetadataLength
  message : Message.ofBytes? (b.extract f.metadataStart f.bodyStart) = some f.message
  bodyLength : f.message.bodyLength = f.bodyLength
  buffers : f.message.BuffersInside f.bodyLength
  stop_le : f.stop ≤ b.size

theorem Frame.In.bodyStart_le {f : Frame} {b : ByteArray} (h : f.In b) : f.bodyStart ≤ b.size :=
  Nat.le_trans (Nat.le_add_right _ _) h.stop_le

theorem Frame.metadataStart_le_bodyStart (f : Frame) : f.metadataStart ≤ f.bodyStart :=
  Nat.le_add_right _ _

@[simp] theorem readMessage_eq_pure {b : ByteArray} {m : Message} :
    readMessage b = pure m ↔ Message.ofBytes? b = some m := by
  unfold readMessage
  cases Message.ofBytes? b with
  | none => exact ⟨fun h => absurd h Checked.refuse_ne_pure, fun h => by cases h⟩
  | some n => rw [pure_inj, Option.some.injEq]

theorem safe_readMessage (b : ByteArray) : Safe (readMessage b) := by
  unfold readMessage
  split
  · exact .pure _
  · exact Checked.safe_refuse _

theorem cut_of_le {b : ByteArray} {start stop : Nat} (h : start ≤ stop) (hs : stop ≤ b.size) :
    cut b start stop = pure (b.extract start stop) := by
  rw [cut, if_pos ⟨h, hs⟩]

/-- **A step of the walk finds exactly the frames that stand at its position.** -/
theorem frameAt_eq_some {b : ByteArray} {pos : Nat} {f : Frame} :
    frameAt b pos = pure (some f) ↔ f.start = pos ∧ f.In b := by
  constructor
  · intro h
    obtain ⟨⟨marked, length⟩, hm, h⟩ := bind_eq_pure.1 h
    rw [metadataLengthAt_eq_pure] at hm
    dsimp only at h
    split at h
    · cases pure_inj.1 h
    · rename_i hpos
      obtain ⟨hle, h⟩ := Checked.ite_refuse_eq_pure.1 h
      obtain ⟨stop, hstop, h⟩ := bind_eq_pure.1 h
      obtain ⟨rfl, hstop⟩ := span_eq_pure.1 hstop
      rw [cut_of_le (Nat.le_add_right _ _) hstop, pure_bind] at h
      obtain ⟨m, hmsg, h⟩ := bind_eq_pure.1 h
      obtain ⟨n, hbody, h⟩ := bind_eq_pure.1 h
      obtain ⟨_, hbuf, h⟩ := bind_eq_pure.1 h
      obtain ⟨_, hend, h⟩ := bind_eq_pure.1 h
      obtain ⟨rfl, hend⟩ := span_eq_pure.1 hend
      obtain rfl := Option.some.inj (pure_inj.1 h)
      exact ⟨rfl, {
        announced := hm
        length_pos := Nat.pos_of_ne_zero hpos
        length_le := Nat.le_of_not_lt hle
        message := readMessage_eq_pure.1 hmsg
        bodyLength := nonNegative_eq_pure.1 hbody
        buffers := Message.checkBuffers_eq_pure.1 hbuf
        stop_le := hend }⟩
  · rintro ⟨rfl, hf⟩
    refine bind_eq_pure.2 ⟨_, metadataLengthAt_eq_pure.2 hf.announced, ?_⟩
    dsimp only
    rw [if_neg (Nat.pos_iff_ne_zero.1 hf.length_pos), if_neg (Nat.not_lt.2 hf.length_le)]
    refine bind_eq_pure.2 ⟨f.bodyStart, span_eq_pure.2 ⟨rfl, hf.bodyStart_le⟩, ?_⟩
    refine bind_eq_pure.2 ⟨_, cut_of_le f.metadataStart_le_bodyStart hf.bodyStart_le, ?_⟩
    refine bind_eq_pure.2 ⟨_, readMessage_eq_pure.2 hf.message, ?_⟩
    refine bind_eq_pure.2 ⟨_, nonNegative_eq_pure.2 hf.bodyLength, ?_⟩
    refine bind_eq_pure.2 ⟨_, Message.checkBuffers_eq_pure.2 hf.buffers, ?_⟩
    exact bind_eq_pure.2 ⟨_, span_eq_pure.2 ⟨rfl, hf.stop_le⟩, rfl⟩

/-- **A step of the walk ends it exactly at a zero length.** -/
theorem frameAt_eq_none {b : ByteArray} {pos : Nat} :
    frameAt b pos = pure none ↔ ∃ marked, Announced b pos marked 0 := by
  constructor
  · intro h
    obtain ⟨⟨marked, length⟩, hm, h⟩ := bind_eq_pure.1 h
    rw [metadataLengthAt_eq_pure] at hm
    dsimp only at h
    split at h
    · rename_i hz
      exact ⟨marked, hz ▸ hm⟩
    · -- Behind the length there are six checks, and behind these a frame.
      obtain ⟨-, h⟩ := Checked.ite_refuse_eq_pure.1 h
      obtain ⟨_, _, h⟩ := bind_eq_pure.1 h
      obtain ⟨_, _, h⟩ := bind_eq_pure.1 h
      obtain ⟨_, _, h⟩ := bind_eq_pure.1 h
      obtain ⟨_, _, h⟩ := bind_eq_pure.1 h
      obtain ⟨_, _, h⟩ := bind_eq_pure.1 h
      obtain ⟨_, _, h⟩ := bind_eq_pure.1 h
      cases pure_inj.1 h
  · rintro ⟨marked, h⟩
    exact bind_eq_pure.2 ⟨_, metadataLengthAt_eq_pure.2 h, rfl⟩

/-- A step of the walk takes no bytes from outside the payload: the metadata is cut out only after
its end has been found to lie inside. -/
theorem safe_frameAt (b : ByteArray) (pos : Nat) : Safe (frameAt b pos) := by
  refine (safe_metadataLengthAt b pos).bind ?_
  rintro ⟨marked, length⟩ _
  dsimp only
  split
  · exact .pure _
  · split
    · exact Checked.safe_refuse _
    · refine (safe_span _ _ _ _).bind fun stop hstop => ?_
      obtain ⟨rfl, hstop⟩ := span_eq_pure.1 hstop
      rw [cut_of_le (Nat.le_add_right _ _) hstop, pure_bind]
      refine (safe_readMessage _).bind fun m _ => ?_
      refine (safe_nonNegative _ _).bind fun n _ => ?_
      refine (safe_checkBuffers _ _).bind fun _ _ => ?_
      exact (safe_span _ _ _ _).bind fun _ _ => .pure _

/-! ## The walk -/

/-- A run of the walk from a position on, and the frames that it finds. -/
inductive Walk (b : ByteArray) : Nat → List Frame → Prop
  /-- All bytes have been walked over. -/
  | done {pos : Nat} (h : b.size ≤ pos) : Walk b pos []
  /-- A zero length stands here. -/
  | stop {pos : Nat} {marked : Bool} (h : Announced b pos marked 0) : Walk b pos []
  | frame {f : Frame} {fs : List Frame} (h : f.In b) (rest : Walk b f.stop fs) :
    Walk b f.start (f :: fs)

theorem Announced.lt_size {b : ByteArray} {pos length : Nat} {marked : Bool}
    (h : Announced b pos marked length) : pos < b.size := by
  have := h.le_size
  split at this <;> omega

theorem Walk.of_framesFrom {b : ByteArray} {pos : Nat} {fs : List Frame}
    (h : framesFrom b pos = pure fs) : Walk b pos fs := by
  fun_induction framesFrom b pos generalizing fs with
  | case1 pos hlt ih =>
    obtain ⟨o, ho, h⟩ := bind_eq_pure.1 h
    cases o with
    | none =>
      obtain rfl := pure_inj.1 h
      obtain ⟨marked, ha⟩ := frameAt_eq_none.1 ho
      exact .stop ha
    | some f =>
      obtain ⟨rfl, hf⟩ := frameAt_eq_some.1 ho
      dsimp only at h
      rw [if_pos f.start_lt_stop] at h
      obtain ⟨rest, hrest, h⟩ := bind_eq_pure.1 h
      obtain rfl := pure_inj.1 h
      exact .frame hf (ih f f.start_lt_stop hrest)
  | case2 pos hge =>
    obtain rfl := pure_inj.1 h
    exact .done (Nat.le_of_not_lt hge)

theorem Walk.framesFrom_eq {b : ByteArray} {pos : Nat} {fs : List Frame} (h : Walk b pos fs) :
    framesFrom b pos = pure fs := by
  induction h with
  | done h => rw [framesFrom, if_neg (Nat.not_lt.2 h)]
  | stop h =>
    rw [framesFrom, if_pos h.lt_size, frameAt_eq_none.2 ⟨_, h⟩]
    rfl
  | @frame f fs h _ ih =>
    rw [framesFrom, if_pos h.announced.lt_size, frameAt_eq_some.2 ⟨rfl, h⟩]
    rw [pure_bind]
    dsimp only
    rw [if_pos f.start_lt_stop, ih]
    rfl

/-- **The frames from a position on are those of a run of the walk.** -/
theorem framesFrom_eq_pure {b : ByteArray} {pos : Nat} {fs : List Frame} :
    framesFrom b pos = pure fs ↔ Walk b pos fs :=
  ⟨Walk.of_framesFrom, Walk.framesFrom_eq⟩

theorem safe_framesFrom (b : ByteArray) (pos : Nat) : Safe (framesFrom b pos) := by
  fun_induction framesFrom b pos with
  | case1 pos hlt ih =>
    refine (safe_frameAt b pos).bind fun o _ => ?_
    cases o with
    | none => exact .pure _
    | some f =>
      dsimp only
      split
      · rename_i h
        exact (ih f h).bind fun _ _ => .pure _
      · exact .pure _
  | case2 pos hge => exact .pure _

theorem Walk.cons_inv {b : ByteArray} {pos : Nat} {f : Frame} {fs : List Frame}
    (h : Walk b pos (f :: fs)) : f.start = pos ∧ f.In b ∧ Walk b f.stop fs := by
  cases h with
  | frame hf rest => exact ⟨rfl, hf, rest⟩

/-- Every frame that the walk finds stands in the payload. -/
theorem Walk.in {b : ByteArray} {pos : Nat} {fs : List Frame} (h : Walk b pos fs) :
    ∀ f ∈ fs, f.In b := by
  induction h with
  | done | stop => exact fun f hf => absurd hf List.not_mem_nil
  | frame h _ ih => exact List.forall_mem_cons.2 ⟨h, ih⟩

/-! ## Small payloads

The smallest payloads with a batch are those of a schema without columns. -/

/-- A schema without columns in front of a body. -/
def schemaFrame (bodyLength : UInt8) : List UInt8 :=
  [255, 255, 255, 255, 56, 0, 0, 0,
   16, 0, 0, 0, 12, 0, 20, 0, 16, 0, 18, 0, 4, 0, 8, 0, 12, 0, 0, 0, 24, 0, 0, 0,
   bodyLength, 0, 0, 0, 0, 0, 0, 0, 4, 0, 1, 0,
   8, 0, 8, 0, 0, 0, 4, 0, 8, 0, 0, 0, 4, 0, 0, 0, 0, 0, 0, 0]

/-- A batch of rows without cells. -/
def batchFrame (rows : UInt8) : List UInt8 :=
  [255, 255, 255, 255, 80, 0, 0, 0,
   16, 0, 0, 0, 12, 0, 20, 0, 16, 0, 18, 0, 4, 0, 8, 0, 12, 0, 0, 0, 28, 0, 0, 0,
   0, 0, 0, 0, 0, 0, 0, 0, 4, 0, 3, 0,
   10, 0, 24, 0, 8, 0, 4, 0, 16, 0, 0, 0, 12, 0, 0, 0, 20, 0, 0, 0,
   rows, 0, 0, 0, 0, 0, 0, 0, 12, 0, 0, 0, 0, 0, 0, 0, 0, 0, 0, 0, 0, 0, 0, 0]

/-- A message that carries nothing. -/
def emptyFrame : List UInt8 :=
  [255, 255, 255, 255, 36, 0, 0, 0,
   16, 0, 0, 0, 12, 0, 20, 0, 16, 0, 0, 0, 0, 0, 8, 0, 12, 0, 0, 0, 0, 0, 0, 0,
   0, 0, 0, 0, 0, 0, 0, 0, 4, 0, 0, 0]

def payloadOf (parts : List (List UInt8)) : ByteArray := ⟨parts.flatten.toArray⟩

/-- A schema, a batch of three rows and a zero length. -/
def sample : ByteArray := payloadOf [schemaFrame 0, batchFrame 3, [255, 255, 255, 255, 0, 0, 0, 0]]

theorem sample_frames : ∃ f g, frames sample = pure [f, g] ∧ f.bodyLength = 0 ∧ f.stop = 64 ∧
    g.stop = 152 := by
  have hframes : Yields (frames sample) fun fs =>
      fs.map (fun f => (f.bodyLength, f.stop)) = [(0, 64), (0, 152)] := by decide +kernel
  obtain ⟨fs, h, hfs⟩ := hframes
  obtain ⟨f, rest, rfl, hf, hrest⟩ := List.map_eq_cons_iff.1 hfs
  obtain ⟨g, rest, rfl, hg, hnil⟩ := List.map_eq_cons_iff.1 hrest
  obtain rfl := List.map_eq_nil_iff.1 hnil
  obtain ⟨hbody, hstop⟩ := Prod.mk.inj hf
  exact ⟨f, g, h, hbody, hstop, (Prod.mk.inj hg).2⟩

end DataClient.Arrow
