import DataClient.Arrow.Reader
import DataClient.Proofs.Arrow.Frame
import DataClient.Proofs.Arrow.Message

/-!
# The reader beside the walk

A stream is gone over twice: the walk checks it, and the reader reads it without regard to the walk.
Where a frame of the walk stands, the reader turns to the same message and takes the same lengths
(`readMessages_frame`), and where the walk ends, so does the reader (`readMessages_end`). So the two
stay in step from any position at which they are together.

They are together at the beginning, but the reader takes the schema message to have no body. It goes
on directly behind the metadata, the walk behind the body. `InStep` says when that makes no
difference: exactly then the reader turns to no message that was not checked.
-/

set_option autoImplicit false

namespace DataClient.Arrow

open Outcome Bytes

/-- A frame as the reader turns to it. -/
def Frame.visit (f : Frame) : Visit := ⟨f.start, f.metadataLength, some f.bodyLength⟩

/-- What the batch of a frame is loaded from. -/
def Frame.site (b : ByteArray) (f : Frame) (dictionaries : List (Int × Vector)) : Site :=
  ⟨dictionaries, f.message.version, b.extract f.bodyStart f.stop, 0⟩

/-! ## Lengths and messages -/

theorem Announced.announcedAt_eq {b : ByteArray} {pos length : Nat} {marked : Bool}
    (h : Announced b pos marked length) :
    announcedAt b pos =
      .ok (if length = 0 then none else some (pos + (if marked then 8 else 4), length)) := by
  unfold announcedAt
  cases marked with
  | true =>
    obtain ⟨hm, hl⟩ := h
    rw [hm]
    dsimp only
    rw [if_pos rfl, hl]
    rfl
  | false =>
    obtain ⟨hl, hne⟩ := h
    rw [hl]
    dsimp only
    rw [if_neg hne]
    rfl

theorem announcedAt_of_size_le {b : ByteArray} {pos : Nat} (h : b.size ≤ pos) :
    announcedAt b pos = .ok none := by
  unfold announcedAt
  cases hw : u32? b pos with
  | none => rfl
  | some n =>
    have := le_size_of_word? (by omega) hw
    omega

theorem Walk.announcedAt_nil {b : ByteArray} {pos : Nat} (h : Walk b pos []) :
    announcedAt b pos = .ok none := by
  cases h with
  | done h => exact announcedAt_of_size_le h
  | stop h => exact h.announcedAt_eq

theorem take_of_le {b : ByteArray} {start length : Nat} (h : start + length ≤ b.size) :
    take b start length = .ok (b.extract start (start + length)) := by
  rw [take, slice?, if_pos h]

section In

variable {f : Frame} {b : ByteArray}

theorem Frame.In.announcedAt_eq (h : f.In b) :
    announcedAt b f.start = .ok (some (f.metadataStart, f.metadataLength)) := by
  rw [h.announced.announcedAt_eq, if_neg (Nat.pos_iff_ne_zero.1 h.length_pos)]
  rfl

theorem Frame.In.messageAt_eq (h : f.In b) :
    messageAt b f.metadataStart f.metadataLength = .ok f.message := by
  have htake : take b f.metadataStart f.metadataLength
      = .ok (b.extract f.metadataStart f.bodyStart) := take_of_le h.bodyStart_le
  rw [messageAt, if_neg (Nat.not_lt.2 h.length_le), htake]
  dsimp only [bind, Except.bind]
  rw [h.message]

theorem Frame.In.countOf_bodyLength (h : f.In b) :
    Load.countOf f.message.bodyLength = f.bodyLength := by
  have hword := Message.isWord_bodyLength h.message
  have hcount := Load.countOf_of_nonneg hword (by rw [h.bodyLength]; omega)
  rw [h.bodyLength] at hcount ⊢
  exact Int.ofNat.inj hcount

theorem Frame.In.visit_eq (h : f.In b) :
    Visit.of f.start f.metadataLength (.ok f.message) = f.visit := by
  rw [Frame.visit, ← h.countOf_bodyLength]
  rfl

theorem Frame.In.siteAt_eq (h : f.In b) (dictionaries : List (Int × Vector)) :
    siteAt b f.bodyStart f.bodyLength f.message.version dictionaries
      = .ok (f.site b dictionaries) := by
  rw [siteAt, take_of_le h.stop_le]
  rfl

end In

/-! ## One message -/

theorem readMessages_eq (b : ByteArray) (schema : Schema) (pos : Nat)
    (dictionaries : List (Int × Vector)) :
    readMessages b schema pos dictionaries =
      match announcedAt b pos with
      | .error why => .done (.error why)
      | .ok none => .done (.ok [])
      | .ok (some (start, length)) =>
        .turn (.of pos length (messageAt b start length)) <|
          .goOn (messageAt b start length) fun m =>
            readContents schema m
              (siteAt b (start + length) (Load.countOf m.bodyLength) m.version dictionaries)
              dictionaries
              (readMessages b schema (start + length + Load.countOf m.bodyLength)) := by
  -- The recursion is well-founded because of the announcement, so the equation of the definition
  -- binds a proof of it and cannot be rewritten with.
  rw [readMessages]
  split <;> rename_i heq <;> rw [heq]

/-- **Where a frame of the walk stands, the reader turns to it**, and goes on where the walk
does. -/
theorem readMessages_frame {b : ByteArray} {f : Frame} (h : f.In b) (schema : Schema)
    (dictionaries : List (Int × Vector)) :
    readMessages b schema f.start dictionaries =
      .turn f.visit (readContents schema f.message (.ok (f.site b dictionaries)) dictionaries
        (readMessages b schema f.stop)) := by
  rw [readMessages_eq, h.announcedAt_eq]
  dsimp only
  rw [h.messageAt_eq, h.visit_eq]
  dsimp only [Reading.goOn]
  rw [h.countOf_bodyLength, ← Frame.bodyStart, h.siteAt_eq]
  rfl

/-- **Where the walk ends, so does the reader.** -/
theorem readMessages_end {b : ByteArray} {pos : Nat} (h : announcedAt b pos = .ok none)
    (schema : Schema) (dictionaries : List (Int × Vector)) :
    readMessages b schema pos dictionaries = .done (.ok []) := by
  rw [readMessages_eq, h]

theorem readMessages_error {b : ByteArray} {pos : Nat} {why : String}
    (h : announcedAt b pos = .error why) (schema : Schema) (dictionaries : List (Int × Vector)) :
    readMessages b schema pos dictionaries = .done (.error why) := by
  rw [readMessages_eq, h]

/-- Where a length is announced, the reader turns to a message that begins there. -/
theorem exists_visit_of_announced {b : ByteArray} {pos : Nat} {place : Nat × Nat}
    (h : announcedAt b pos = .ok (some place)) (schema : Schema)
    (dictionaries : List (Int × Vector)) :
    ∃ v vs, (readMessages b schema pos dictionaries).visits = v :: vs ∧ v.start = pos := by
  rw [readMessages_eq, h]
  exact ⟨_, _, rfl, rfl⟩

/-! ## The messages that are turned to -/

/-- Reading the contents of a message turns to no other messages than going on does. -/
theorem visits_readContents {schema : Schema} {m : Message} {site : Except String Site}
    {dictionaries : List (Int × Vector)} {next : List (Int × Vector) → Reading (List Batch)}
    {vs : List Visit} (h : ∀ d, (next d).visits <+: vs) :
    (readContents schema m site dictionaries next).visits <+: vs := by
  unfold readContents
  cases m.header with
  | none | schema _ | other _ => exact List.nil_prefix
  | batch header =>
    dsimp only
    cases site.bind fun site => readBatch schema site header with
    | error why => exact List.nil_prefix
    | ok batch => exact h dictionaries
  | dictionary id isDelta data =>
    dsimp only
    cases site.bind fun site => readDictionary schema site id isDelta data with
    | error why => exact List.nil_prefix
    | ok dictionaries => exact h dictionaries

/-- **In step, the reader turns only to messages that the walk has checked**, and to these in
order. -/
theorem Walk.visits_inStep {b : ByteArray} {pos : Nat} {fs : List Frame} (h : Walk b pos fs)
    (schema : Schema) (dictionaries : List (Int × Vector)) :
    (readMessages b schema pos dictionaries).visits <+: fs.map Frame.visit := by
  induction h generalizing dictionaries with
  | done h => rw [readMessages_end (announcedAt_of_size_le h)]; exact List.nil_prefix
  | stop h => rw [readMessages_end h.announcedAt_eq]; exact List.nil_prefix
  | @frame f fs hf _ ih =>
    rw [readMessages_frame hf, List.map_cons]
    exact List.cons_prefix_cons.2 ⟨rfl, visits_readContents ih⟩

/-! ## Streams -/

/-- The reader turns to the first message and, if that is a schema, goes on directly behind its
metadata. -/
theorem readStream_frame {b : ByteArray} {f : Frame} (h : f.In b) (hpos : f.start = 0) :
    readStream b = .turn f.visit (.goOn f.message.schema fun schema =>
      (readMessages b schema f.bodyStart []).map fun batches => ⟨schema, batches⟩) := by
  have hann := h.announcedAt_eq
  have hvisit := h.visit_eq
  rw [hpos] at hann hvisit
  rw [readStream, hann]
  dsimp only
  rw [h.messageAt_eq, hvisit]
  rfl

/-- The reader stays in step with the walk behind the first message: that has no body, or the reader
turns to no other message. -/
def InStep (b : ByteArray) (fs : List Frame) : Prop :=
  ∀ f ∈ fs.head?, f.bodyLength = 0 ∨ (∀ schema, f.message.schema ≠ .ok schema) ∨
    ∀ place, announcedAt b f.bodyStart ≠ .ok (some place)

/-- The visits of a reader behind the first message, if it stays in step. -/
theorem Frame.In.visits_of_inStep {b : ByteArray} {f : Frame} {fs : List Frame} (hf : f.In b)
    (hpos : f.start = 0) (hrest : Walk b f.stop fs) (hstep : InStep b (f :: fs)) :
    visits b <+: (f :: fs).map Frame.visit := by
  rw [visits, readStream_frame hf hpos, List.map_cons]
  refine List.cons_prefix_cons.2 ⟨rfl, ?_⟩
  cases hs : f.message.schema with
  | error why => exact List.nil_prefix
  | ok schema =>
    show (readMessages b schema f.bodyStart []).visits <+: fs.map Frame.visit
    rcases hstep f rfl with hzero | hno | hend
    · -- Without a body the reader goes on where the walk does.
      have hstop : f.stop = f.bodyStart := by rw [Frame.stop, hzero, Nat.add_zero]
      exact (hstop ▸ hrest).visits_inStep schema []
    · exact absurd hs (hno schema)
    · cases ha : announcedAt b f.bodyStart with
      | error why => rw [readMessages_error ha]; exact List.nil_prefix
      | ok place =>
        cases place with
        | none => rw [readMessages_end ha]; exact List.nil_prefix
        | some place => exact absurd ha (hend place)

/-- Out of step, the next message that the reader turns to begins inside the body of the first,
where no frame of the walk begins. -/
theorem Frame.In.inStep_of_visits {b : ByteArray} {f : Frame} {fs : List Frame} (hf : f.In b)
    (hpos : f.start = 0) (hrest : Walk b f.stop fs)
    (hp : visits b <+: (f :: fs).map Frame.visit) : InStep b (f :: fs) := by
  intro g hg
  obtain rfl : f = g := Option.some.inj hg
  by_cases hbody : f.bodyLength = 0
  · exact .inl hbody
  · cases hs : f.message.schema with
    | error why => exact .inr (.inl fun schema h => by cases h)
    | ok schema =>
      refine .inr (.inr fun place ha => ?_)
      obtain ⟨v, vs, hv, hstart⟩ := exists_visit_of_announced ha schema []
      rw [visits, readStream_frame hf hpos, hs, List.map_cons] at hp
      have hp : (readMessages b schema f.bodyStart []).visits <+: fs.map Frame.visit :=
        (List.cons_prefix_cons.1 hp).2
      rw [hv] at hp
      generalize hstop : f.stop = stop at hrest
      cases hrest with
      | done | stop => exact absurd (List.prefix_nil.1 hp) (List.cons_ne_nil v vs)
      | @frame g =>
        -- The next frame begins behind the body, the next visit in front of it.
        have hg : v = g.visit := (List.cons_prefix_cons.1 hp).1
        have hgstart : g.start = f.bodyStart := by rw [← hstart, hg, Frame.visit]
        rw [Frame.stop, ← hgstart] at hstop
        exact hbody (by omega)

theorem read_eq_pure {read : Except String Payload} {p : Payload} :
    (match read with
      | .ok q => pure q
      | .error why => .refuse (.unreadable why) : Checked Payload) = pure p ↔ read = .ok p := by
  cases read with
  | ok q => simp
  | error why => exact ⟨fun h => absurd h Checked.refuse_ne_pure, fun h => (by cases h)⟩

theorem readPayload_of_frames {b : ByteArray} {fs : List Frame} (hb : isFile b = false)
    (h : frames b = pure fs) :
    readPayload b =
      match (readStream b).result with
      | .ok p => pure p
      | .error why => .refuse (.unreadable why) := by
  unfold readPayload
  rw [hb, h]
  rfl

theorem readPayload_eq_pure {b : ByteArray} {p : Payload} (hb : isFile b = false) :
    readPayload b = pure p ↔ (∃ fs, frames b = pure fs) ∧ (readStream b).result = .ok p := by
  constructor
  · intro h
    obtain ⟨fs, hfs⟩ : ∃ fs, frames b = pure fs := by
      unfold readPayload at h
      rw [hb] at h
      obtain ⟨fs, hfs, _⟩ := bind_eq_pure.1 h
      exact ⟨fs, hfs⟩
    rw [readPayload_of_frames hb hfs] at h
    exact ⟨⟨fs, hfs⟩, read_eq_pure.1 h⟩
  · rintro ⟨⟨fs, hfs⟩, hr⟩
    rw [readPayload_of_frames hb hfs, hr]

theorem readPayload_file_eq_pure {b : ByteArray} {p : Payload} (hb : isFile b = true) :
    readPayload b = pure p ↔ ∃ f, checkFile b = pure f ∧ readFile b f = .ok p := by
  unfold readPayload
  rw [if_pos hb]
  constructor
  · intro h
    obtain ⟨f, hf, h⟩ := bind_eq_pure.1 h
    exact ⟨f, hf, read_eq_pure.1 h⟩
  · rintro ⟨f, hf, hread⟩
    refine bind_eq_pure.2 ⟨f, hf, ?_⟩
    rw [pure_bind, hread]

/-- **The reader turns only to messages that the walk has checked exactly if it stays in step**, and
then to these in order, with the lengths that were checked. Every frame of the walk stands in the
payload, so no length that is taken exceeds what is there. -/
theorem visits_prefix_iff {b : ByteArray} {fs : List Frame} (h : frames b = pure fs) :
    (visits b <+: fs.map Frame.visit ↔ InStep b fs) ∧ ∀ f ∈ fs, f.In b := by
  refine ⟨?_, (framesFrom_eq_pure.1 h).in⟩
  cases fs with
  | nil =>
    have hann := (framesFrom_eq_pure.1 h).announcedAt_nil
    have hv : visits b = [] := by rw [visits, readStream, hann]; rfl
    rw [hv]
    exact ⟨fun _ f hf => (by cases hf), fun _ => List.nil_prefix⟩
  | cons f fs =>
    obtain ⟨hpos, hf, hrest⟩ := (framesFrom_eq_pure.1 h).cons_inv
    exact ⟨hf.inStep_of_visits hpos hrest, hf.visits_of_inStep hpos hrest⟩

/-- A schema without a body and a batch are read in step. -/
theorem visits_sample : ∃ fs, frames sample = pure fs ∧ visits sample <+: fs.map Frame.visit ∧
    ∀ f ∈ fs, f.In sample := by
  obtain ⟨f, g, h, hbody, -, -⟩ := sample_frames
  have hstep : InStep sample [f, g] := by
    intro first hfirst
    obtain rfl : f = first := Option.some.inj hfirst
    exact .inl hbody
  exact ⟨[f, g], h, (visits_prefix_iff h).1.2 hstep, (visits_prefix_iff h).2⟩

/-- A schema whose body is a batch. -/
def nested : ByteArray := payloadOf [schemaFrame 88, batchFrame 3]

/-- The batch is read although the walk has not checked it. -/
theorem visits_nested : ∃ fs, isFile nested = false ∧ frames nested = pure fs ∧
    ¬ visits nested <+: fs.map Frame.visit := by
  have hframes : Yields (frames nested) fun fs => fs.map Frame.visit = [⟨0, 56, some 88⟩] := by
    decide +kernel
  have hvisits : visits nested = [⟨0, 56, some 88⟩, ⟨64, 80, some 0⟩] := by decide +kernel
  obtain ⟨fs, h, hfs⟩ := hframes
  refine ⟨fs, by decide +kernel, h, ?_⟩
  rw [hvisits, hfs]
  decide

end DataClient.Arrow
