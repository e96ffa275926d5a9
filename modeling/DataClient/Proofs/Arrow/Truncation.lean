import DataClient.Proofs.Arrow.Framing

/-!
# Truncated payloads

A payload that was cut off is not taken for a shorter one, unless the cut lies between two frames.
Two runs of the walk are compared, one over the payload and one over what is left of it: bytes that
are left are the same bytes, so both runs find the same frame at the same position
(`Frame.In.unique`), and the shorter run is stuck at the frame or end marker that the cut goes
through. What is left is accepted exactly if the cut lies where a frame begins or ends
(`exists_frames_extract_iff`).
-/

set_option autoImplicit false

namespace DataClient.Arrow

open Outcome Bytes

/-! ## There is one frame at a position -/

/-- At a position at most one length is announced, in one way. -/
theorem Announced.unique {b : ByteArray} {pos length length' : Nat} {marked marked' : Bool}
    (h : Announced b pos marked length) (h' : Announced b pos marked' length') :
    marked = marked' ∧ length = length' := by
  have mixed : ∀ {n n' : Nat}, Announced b pos true n → ¬ Announced b pos false n' := by
    rintro n n' ⟨hm, _⟩ ⟨hl, hne⟩
    rw [hm] at hl
    exact hne (Option.some.inj hl).symm
  cases marked with
  | true =>
    cases marked' with
    | true => exact ⟨rfl, Option.some.inj (h.2.symm.trans h'.2)⟩
    | false => exact absurd h' (mixed h)
  | false =>
    cases marked' with
    | true => exact absurd h (mixed h')
    | false => exact ⟨rfl, Option.some.inj (h.1.symm.trans h'.1)⟩

/-- At a position there stands at most one frame. -/
theorem Frame.In.unique {b : ByteArray} {f g : Frame} (hf : f.In b) (hg : g.In b)
    (hs : f.start = g.start) : f = g := by
  obtain ⟨start, marked, length, bodyLength, message⟩ := f
  obtain ⟨start', marked', length', bodyLength', message'⟩ := g
  obtain rfl : start = start' := hs
  obtain ⟨rfl, rfl⟩ := hf.announced.unique hg.announced
  have hm : message = message' := Option.some.inj (hf.message.symm.trans hg.message)
  subst hm
  have hb : (bodyLength : Int) = bodyLength' := hf.bodyLength.symm.trans hg.bodyLength
  obtain rfl : bodyLength = bodyLength' := Int.ofNat.inj hb
  rfl

/-- Where a zero length ends the sequence, there stands no frame. -/
theorem Announced.not_frame {b : ByteArray} {f : Frame} {marked : Bool}
    (h : Announced b f.start marked 0) : ¬ f.In b := by
  intro hf
  have := (h.unique hf.announced).2
  have := hf.length_pos
  omega

/-! ## What is left of a payload -/

theorem size_extract_zero {b : ByteArray} {k : Nat} (h : k ≤ b.size) :
    (b.extract 0 k).size = k := by
  rw [size_extract_of_le h]
  omega

theorem announced_extract {b : ByteArray} {k pos length : Nat} {marked : Bool}
    (h : pos + (if marked then 8 else 4) ≤ k) :
    Announced (b.extract 0 k) pos marked length ↔ Announced b pos marked length := by
  cases marked with
  | true =>
    have h : pos + 8 ≤ k := h
    unfold Announced u32?
    rw [if_pos rfl, if_pos rfl, word?_extract_zero (by omega), word?_extract_zero (by omega)]
  | false =>
    have h : pos + 4 ≤ k := h
    unfold Announced u32?
    rw [if_neg Bool.false_ne_true, if_neg Bool.false_ne_true, word?_extract_zero h]

/-- A length that is announced in what is left was announced before. -/
theorem Announced.of_extract {b : ByteArray} {k pos length : Nat} {marked : Bool} (hk : k ≤ b.size)
    (h : Announced (b.extract 0 k) pos marked length) : Announced b pos marked length := by
  refine (announced_extract ?_).1 h
  rw [← size_extract_zero hk]
  exact h.le_size

theorem extract_extract_zero {b : ByteArray} {k start stop : Nat} (h : stop ≤ k) :
    (b.extract 0 k).extract start stop = b.extract start stop := by
  rw [ByteArray.extract_extract]
  congr 1 <;> omega

/-- The frames that stand in what is left are those of the payload that end before the cut. -/
theorem Frame.in_extract {b : ByteArray} {f : Frame} {k : Nat} (hk : k ≤ b.size) :
    f.In (b.extract 0 k) ↔ f.In b ∧ f.stop ≤ k := by
  have hsize := size_extract_zero hk
  constructor
  · intro h
    have hstop : f.stop ≤ k := hsize ▸ h.stop_le
    have hbody : f.bodyStart ≤ k := hsize ▸ h.bodyStart_le
    exact ⟨{ h with
      announced := h.announced.of_extract hk
      message := by rw [← extract_extract_zero hbody]; exact h.message
      stop_le := Nat.le_trans hstop hk }, hstop⟩
  · rintro ⟨h, hstop⟩
    have hbody : f.bodyStart ≤ k := Nat.le_trans (Nat.le_add_right _ _) hstop
    have hann : f.metadataStart ≤ k := Nat.le_trans f.metadataStart_le_bodyStart hbody
    exact { h with
      announced := (announced_extract hann).2 h.announced
      message := by rw [extract_extract_zero hbody]; exact h.message
      stop_le := by rw [hsize]; exact hstop }

/-! ## Cuts -/

/-- Where the sequence of frames from a position on ends: behind the zero length, if there is one,
else at the end of the bytes. -/
def sequenceEnd (b : ByteArray) : (pos : Nat) → List Frame → Nat
  | pos, [] =>
    if pos < b.size then pos + (if u32? b pos = some continuationMarker then 8 else 4) else b.size
  | _, f :: fs => sequenceEnd b f.stop fs

/-- The positions from `pos` on at which a frame begins or ends. -/
def boundaries (pos : Nat) (fs : List Frame) : List Nat := pos :: fs.map Frame.stop

theorem Announced.sequenceEnd_eq {b : ByteArray} {pos length : Nat} {marked : Bool}
    (h : Announced b pos marked length) :
    sequenceEnd b pos [] = pos + (if marked then 8 else 4) := by
  rw [sequenceEnd, if_pos h.lt_size]
  congr 1
  cases marked with
  | true => exact if_pos h.1
  | false =>
    obtain ⟨hl, hne⟩ := h
    rw [hl]
    exact if_neg fun he => hne (Option.some.inj he)

theorem Walk.sequenceEnd_le {b : ByteArray} {pos : Nat} {fs : List Frame} (h : Walk b pos fs) :
    sequenceEnd b pos fs ≤ b.size := by
  induction h with
  | done h => exact Nat.le_of_eq (by rw [sequenceEnd, if_neg (Nat.not_lt.2 h)])
  | stop h => rw [h.sequenceEnd_eq]; exact h.le_size
  | frame _ _ ih => exact ih

theorem Walk.le_boundaries {b : ByteArray} {pos : Nat} {fs : List Frame} (h : Walk b pos fs) :
    ∀ k ∈ boundaries pos fs, pos ≤ k := by
  induction h with
  | done | stop => exact fun k hk => Nat.le_of_eq (List.mem_singleton.1 hk).symm
  | @frame f fs _ _ ih =>
    intro k hk
    rcases List.mem_cons.1 hk with rfl | hk
    · exact Nat.le_refl _
    · exact Nat.le_trans (Nat.le_of_lt f.start_lt_stop) (ih k hk)

section Cut

variable {b : ByteArray} {k : Nat}

/-- A walk over what is left may end at the cut. -/
theorem Walk.at_cut (hk : k ≤ b.size) : Walk (b.extract 0 k) k [] :=
  .done (Nat.le_of_eq (size_extract_zero hk))

/-- A cut goes through the end marker: the marker is the same one in what is left, and so it is too
long. -/
theorem Announced.exists_extract_iff {pos : Nat} {marked : Bool} (h : Announced b pos marked 0)
    (hk : k ≤ b.size) (hpos : pos ≤ k) (hlt : k < pos + if marked then 8 else 4) :
    (∃ fs, Walk (b.extract 0 k) pos fs) ↔ k = pos := by
  have hsize := size_extract_zero hk
  constructor
  · rintro ⟨fs, hw⟩
    cases hw with
    | done hle => omega
    | stop h' =>
      obtain ⟨rfl, _⟩ := h.unique (h'.of_extract hk)
      have := h'.le_size
      omega
    | frame hf _ => exact absurd ((Frame.in_extract hk).1 hf).1 h.not_frame
  · rintro rfl
    exact ⟨[], .at_cut hk⟩

/-- A cut behind the beginning of a frame: what is left either ends there or holds the frame. -/
theorem Frame.In.exists_extract_iff {f : Frame} (h : f.In b) (hk : k ≤ b.size)
    (hpos : f.start ≤ k) :
    (∃ fs, Walk (b.extract 0 k) f.start fs) ↔
      k = f.start ∨ f.stop ≤ k ∧ ∃ fs, Walk (b.extract 0 k) f.stop fs := by
  constructor
  · rintro ⟨fs, hw⟩
    generalize hp : f.start = p at hw
    cases hw with
    | done hle =>
      have := size_extract_zero hk
      exact .inl (by omega)
    -- A zero length or another frame in what is left would stand in the payload as well.
    | stop h' => exact absurd h (hp ▸ h'.of_extract hk).not_frame
    | frame hg hrest =>
      obtain ⟨hg, hstop⟩ := (Frame.in_extract hk).1 hg
      obtain rfl := h.unique hg hp
      exact .inr ⟨hstop, _, hrest⟩
  · rintro (rfl | ⟨hstop, fs, hw⟩)
    · exact ⟨[], .at_cut hk⟩
    · exact ⟨f :: fs, .frame ((Frame.in_extract hk).2 ⟨h, hstop⟩) hw⟩

/-- What is left behind a cut inside the sequence is walked over to its end exactly if the cut lies
between frames. The induction is on the run over the whole payload; the run over what is left finds
the same frames until the cut. -/
theorem Walk.exists_extract_iff {pos : Nat} {fs : List Frame} (h : Walk b pos fs)
    (hpos : pos ≤ k) (hk : k < sequenceEnd b pos fs) :
    (∃ fs', Walk (b.extract 0 k) pos fs') ↔ k ∈ boundaries pos fs := by
  have hkb : k ≤ b.size := Nat.le_of_lt (Nat.lt_of_lt_of_le hk h.sequenceEnd_le)
  induction h with
  | done h =>
    rw [sequenceEnd, if_neg (Nat.not_lt.2 h)] at hk
    omega
  | stop h =>
    rw [h.sequenceEnd_eq] at hk
    rw [h.exists_extract_iff hkb hpos hk, boundaries, List.map_nil, List.mem_singleton]
  | @frame f fs hf rest ih =>
    rw [hf.exists_extract_iff hkb hpos, boundaries, List.mem_cons, List.map_cons]
    refine or_congr_right ?_
    constructor
    · rintro ⟨hstop, hw⟩
      exact (ih hstop hk).1 hw
    · intro hmem
      have hstop : f.stop ≤ k := rest.le_boundaries k hmem
      exact ⟨hstop, (ih hstop hk).2 hmem⟩

end Cut

/-- What is left of an accepted payload behind a cut inside the sequence of frames is accepted
exactly if the cut lies where a frame begins or ends. -/
theorem exists_frames_extract_iff {b : ByteArray} {fs : List Frame} {k : Nat}
    (h : frames b = pure fs) (hk : k < sequenceEnd b 0 fs) :
    (∃ fs', frames (b.extract 0 k) = pure fs') ↔ k ∈ boundaries 0 fs := by
  rw [← (framesFrom_eq_pure.1 h).exists_extract_iff (Nat.zero_le k) hk]
  exact exists_congr fun fs' => framesFrom_eq_pure

theorem isFile_extract {b : ByteArray} {k : Nat} (h : isFile b = false) :
    isFile (b.extract 0 k) = false := by
  unfold isFile at h ⊢
  rw [beq_eq_false_iff_ne] at h ⊢
  intro he
  have hlen : ((b.extract 0 k).extract 0 magic.length).size = magic.length :=
    congrArg List.length he
  have hk : magic.length ≤ k := by
    rw [ByteArray.size_extract, ByteArray.size_extract] at hlen
    omega
  rw [extract_extract_zero hk] at he
  exact h he

/-- **Truncation is detected.** A payload that is cut off inside its frames or its end marker, and
not between two frames, is refused, and there is no table for what is left of it. -/
theorem refused_of_truncated [Allocator] {b : ByteArray} {fs : List Frame} {k : Nat}
    (h : frames b = pure fs) (hk : k < sequenceEnd b 0 fs) (hcut : k ∉ boundaries 0 fs) :
    ∃ fault, frames (b.extract 0 k) = .refuse fault ∧
      (isFile b = false → Columnar.decode (b.extract 0 k) = Columnar.fail (.arrow fault)) := by
  rcases Checked.refuse_or_pure (safe_framesFrom (b.extract 0 k) 0) with ⟨fault, hr⟩ | hp
  · exact ⟨fault, hr, fun hb => decode_of_refused (isFile_extract hb) hr⟩
  · exact absurd ((exists_frames_extract_iff h hk).1 hp) hcut

section

open scoped Allocator.Sized

/-- A schema and half of the batch behind it. -/
theorem refused_half_sample : ∃ fs fault, frames sample = pure fs ∧
    (100 < sequenceEnd sample 0 fs ∧ 100 ∉ boundaries 0 fs) ∧
    Columnar.decode (sample.extract 0 100) = Columnar.fail (.arrow fault) := by
  obtain ⟨f, g, h, -, hf, hg⟩ := sample_frames
  have hend : 100 < sequenceEnd sample 0 [f, g] := by
    rw [sequenceEnd, sequenceEnd, hg]
    decide +kernel
  have hcut : 100 ∉ boundaries 0 [f, g] := by
    rw [boundaries, List.map_cons, List.map_cons, hf, hg]
    decide
  obtain ⟨fault, _, hdecode⟩ := refused_of_truncated h hend hcut
  exact ⟨[f, g], fault, h, ⟨hend, hcut⟩, hdecode (by decide +kernel)⟩

end

end DataClient.Arrow
