import DataClient.Proofs.Table.RowMajor

/-!
# Which slots become null

A slot holds no value if the bitmap of its vector says so, if the vector is one of nulls, or if it
refers to such a slot: the key of a dictionary, the run of a position and the variant of a union
each stand for a slot of another vector (`Vector.referent?`). Conversion looks at the bitmap and at
the type alone (`cellAt_null_iff`). So no value ever becomes null, and a slot without a value becomes
null unless it is a reference that its own bitmap does not mark; that becomes a text.
-/

set_option autoImplicit false

namespace DataClient.Arrow

open Outcome Columnar

namespace Vector

/-- The slot that a slot stands for, for the types that are encoded over other values. -/
def referent? (i : Nat) : Vector → Option (Vector × Nat)
  | .dictionary _ _ _ width keys values => some (values, slotNat keys width i)
  | .runs _ _ width ends count values => some (values, runAt ends width count i)
  | .union _ _ numbers offsets variants =>
    (variants.lookup (variantNumber numbers i)).map fun (_, v) => (v, variantSlot offsets i)
  | _ => none

/-- The slot holds no value. -/
inductive Absent : Vector → Nat → Prop
  | unset {v : Vector} {i : Nat} (h : v.isNull i = true) : Absent v i
  | null {n i : Nat} : Absent (.null n) i
  | reference {v w : Vector} {i j : Nat} (h : v.referent? i = some (w, j)) (hj : j < w.length)
    (hw : Absent w j) : Absent v i

/-- The slot refers to one that holds no value, and is not marked itself. -/
def AbsentByReference (v : Vector) (i : Nat) : Prop :=
  v.isNull i = false ∧ ∃ w j, v.referent? i = some (w, j) ∧ j < w.length ∧ w.Absent j

/-- A slot without a value is marked, or one of nulls, or refers to another one. -/
theorem absent_iff {v : Vector} {i : Nat} :
    v.Absent i ↔ v.isNull i = true ∨ (∃ n, v = .null n) ∨ v.AbsentByReference i := by
  constructor
  · intro h
    cases h with
    | unset h => exact .inl h
    | null => exact .inr (.inl ⟨_, rfl⟩)
    | reference h hj hw =>
      by_cases hv : v.isNull i = true
      · exact .inl hv
      · exact .inr (.inr ⟨by simpa using hv, _, _, h, hj, hw⟩)
  · rintro (h | ⟨n, rfl⟩ | ⟨_, w, j, h, hj, hw⟩)
    · exact .unset h
    · exact .null
    · exact .reference h hj hw

/-- What refers to other slots has no cells of its own. -/
theorem ownCell?_of_referent? {v w : Vector} {i j : Nat} (h : v.referent? i = some (w, j)) :
    v.ownCell? i = none := by
  cases v with
  | dictionary | runs | union => rfl
  | null | boolean | fixed | runsOfBytes | views | list | fixedList | struct | map => cases h

theorem fixedCell?_ne_null {type : DataType} {width : Nat} {data : ByteArray} {i : Nat} :
    fixedCell? type width data i ≠ some .null := by
  cases type <;> simp [fixedCell?, intCell]

theorem bytesCell_ne_null {type : DataType} {value : ByteArray} : bytesCell type value ≠ .null := by
  unfold bytesCell
  split <;> simp

/-- Only vectors of nulls have nulls for values. -/
theorem ownCell?_null_iff {v : Vector} {i : Nat} :
    v.ownCell? i = some .null ↔ ∃ n, v = .null n := by
  cases v with
  | null n => simp [ownCell?]
  | fixed => simp [ownCell?, fixedCell?_ne_null]
  | runsOfBytes | views => simp [ownCell?, bytesCell_ne_null]
  | boolean | list | fixedList | struct | map | union | runs | dictionary => simp [ownCell?]

/-- What is shown is a text. -/
theorem exists_text {x : Except Crash String} {c : Cell} (h : x.map .string = .ok c) :
    ∃ s, c = .string s := by
  cases x with
  | error crash => cases h
  | ok s =>
    cases h
    exact ⟨s, rfl⟩

section Cell

variable {v : Vector} {i : Nat} {c : Cell} (h : v.cellAt i = .ok c)

include h

/-- **A cell is null exactly if the slot is marked, or the vector is one of nulls.** -/
theorem cellAt_null_iff : c = .null ↔ v.isNull i = true ∨ ∃ n, v = .null n := by
  unfold cellAt at h
  by_cases hv : v.isNull i = true
  · rw [if_pos hv] at h
    cases h
    simp [hv]
  · rw [if_neg hv] at h
    rw [← ownCell?_null_iff (i := i), or_iff_right hv]
    cases hown : v.ownCell? i with
    | some d =>
      rw [hown] at h
      cases h
      simp
    | none =>
      -- The slot is shown, and a text is no null.
      rw [hown] at h
      obtain ⟨s, rfl⟩ := exists_text h
      simp

/-- A reference that is not marked is shown, whatever it refers to. -/
theorem exists_text_of_absentByReference (hv : v.AbsentByReference i) :
    ∃ s, c = .string s := by
  obtain ⟨hset, w, j, hw, -, -⟩ := hv
  rw [cellAt, hset, ownCell?_of_referent? hw] at h
  exact exists_text h

/-- The cell tells whether the slot holds a value, unless the slot is absent by reference. -/
theorem cellAt_faithful_iff :
    ((c = .null ↔ v.Absent i) ↔ ¬ v.AbsentByReference i) ∧ (c = .null → v.Absent i) := by
  have hnull := cellAt_null_iff h
  have himp : c = .null → v.Absent i := by
    intro hc
    rw [absent_iff, ← or_assoc]
    exact .inl (hnull.1 hc)
  refine ⟨⟨fun hiff href => ?_, fun hnot => ⟨himp, fun ha => ?_⟩⟩, himp⟩
  · obtain ⟨s, rfl⟩ := exists_text_of_absentByReference h href
    cases hiff.2 (absent_iff.2 (.inr (.inr href)))
  · rw [hnull]
    rw [absent_iff, ← or_assoc] at ha
    exact ha.resolve_right hnot

end Cell

end Vector

end DataClient.Arrow

namespace DataClient.Columnar

open Outcome Arrow

/-- **Nulls are kept apart from values.** Every null of a table is a slot without a value, so no value
is lost. A slot without a value is a null exactly unless it is an unmarked reference to a slot without
a value; the cell of such a reference is a text. -/
theorem decode_nulls [Allocator] {b : ByteArray} {t : Table} (h : decode b = pure t) :
    ∃ p, readPayload b = pure p ∧ Aligned (fun v k c =>
      ((c = .null ↔ v.Absent k) ↔ ¬ v.AbsentByReference k) ∧ (c = .null → v.Absent k) ∧
      (v.AbsentByReference k → ∃ s, c = .string s)) p.batches t.rows := by
  obtain ⟨_, p, hp, ht⟩ := decode_eq_pure.1 h
  obtain ⟨rows, hrows, ht⟩ := tableOf_eq_pure.1 ht
  obtain rfl := rows_ofParts ht
  refine ⟨p, hp, (aligned_of_allRows (readPayload_batches hp) hrows).imp fun v k c hc => ?_⟩
  obtain ⟨hiff, himp⟩ := Vector.cellAt_faithful_iff hc
  exact ⟨hiff, himp, fun href => Vector.exists_text_of_absentByReference hc href⟩

/-- The slot of the union is absent by reference. -/
theorem absentByReference_of_isNullVariant {batch : Batch} (h : isNullVariant batch = true) :
    ∃ v, batch.columns = [v] ∧ v.AbsentByReference 0 := by
  obtain ⟨type, numbers, name, rfl, hnumber⟩ := isNullVariant_inv h
  refine ⟨_, rfl, rfl, .null 1, 0, ?_, by decide, .null⟩
  simp [Vector.referent?, hnumber, Vector.variantSlot]

section

open scoped Allocator.Sized

/-- The one cell of a union is a text, and the slot is absent. -/
theorem nulls_union : ∃ t p, decode unionPayload = pure t ∧ readPayload unionPayload = pure p ∧
    t.rows.map (·.map Cell.string?) = [[some "\x7bu=\x7d"]] ∧
    Aligned (fun v k c => ((c = .null ↔ v.Absent k) ↔ ¬ v.AbsentByReference k) ∧
      (c = .null → v.Absent k) ∧ (v.AbsentByReference k → ∃ s, c = .string s)) p.batches t.rows := by
  obtain ⟨p, batch, hp, _, _, t, ht, hrows⟩ := readPayload_union
  have hdecode : decode unionPayload = pure t := (decode_of_readPayload hp).trans ht
  obtain ⟨q, hq, haligned⟩ := decode_nulls hdecode
  exact ⟨t, q, hdecode, hq, hrows, haligned⟩

/-- So the nulls of a table are not the slots without a value. -/
theorem not_aligned_union : ∃ t p, decode unionPayload = pure t ∧
    readPayload unionPayload = pure p ∧
    ¬ Aligned (fun v k c => c = .null ↔ v.Absent k) p.batches t.rows := by
  obtain ⟨p, batch, hp, hbatches, hnull, t, ht, hrows⟩ := readPayload_union
  refine ⟨t, p, (decode_of_readPayload hp).trans ht, hp, fun haligned => ?_⟩
  obtain ⟨v, hv, href⟩ := absentByReference_of_isNullVariant hnull
  obtain ⟨row, rest, hrow, hcells, -⟩ := List.map_eq_cons_iff.1 hrows
  obtain ⟨c, cs, rfl, hc, -⟩ := List.map_eq_cons_iff.1 hcells
  rw [hbatches, hrow, aligned_singleton] at haligned
  have hslots := haligned.cells 0 _ rfl
  rw [hv] at hslots
  cases hslots with
  | cons hfirst _ =>
    rw [hfirst.2 (Vector.absent_iff.2 (.inr (.inr href)))] at hc
    cases hc

end

end DataClient.Columnar
