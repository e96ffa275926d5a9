import Mathlib.Data.Nat.Find
import DataClient.Proofs.Arrow.Numbers
import DataClient.Proofs.Table.Columnwise

/-!
# Columns of integers

Cells hold signed integers of 64 bits. A column of integers of any width either is given the numbers
that its slots store or is refused for the first of them that no cell can hold (`ExactOrRefused`).
That happens to unsigned integers of 64 bits alone, and never for what lies under a slot without a
value.
-/

set_option autoImplicit false

namespace DataClient.Arrow

open Columnar

namespace Vector

/-- The cell of a slot of integers: null if the slot holds no value, whatever lies under it, else the
number that the slot stores. -/
def IntegerCell (signed : Bool) (v : Vector) (i : Nat) (c : Cell) : Prop :=
  if v.isNull i then c = .null else ∃ n : Int64, c = .int n ∧ v.Stores signed i n.toInt

/-- The slot holds an unsigned number that no cell can hold. -/
def Exceeds (v : Vector) (i n : Nat) : Prop :=
  v.isNull i = false ∧ v.Stores false i n ∧ Int64.maxValue.toInt < n

/-- The first of the slots that hold too large a number holds `n`. -/
def FirstExcess (v : Vector) (n : Nat) : Prop :=
  ∃ i < v.length, v.Exceeds i n ∧ ∀ j < i, ∀ m, ¬ v.Exceeds j m

end Vector

/-- A column of integers is given the cells of its slots, or it is refused for its first number that
is too large; only unsigned integers of 64 bits hold such numbers. -/
structure ExactOrRefused [Allocator] (signed : Bool) (w : IntWidth) (name : String) (v : Vector) :
    Prop where
  cells : ∀ cs, cellsOf name v = pure cs ↔
    cs.length = v.length ∧ ∀ i c, cs[i]? = some c → v.IntegerCell signed i c
  refused : ∀ e, cellsOf name v = fail e ↔
    ∃ n, e = .value name (.uncastable n) ∧ signed = false ∧ w = .w64 ∧ v.FirstExcess n
  ends : (∃ cs, cellsOf name v = pure cs) ∨ ∃ e, cellsOf name v = fail e

/-! ## Slots -/

theorem IntWidth.bytes_pos (w : IntWidth) : 0 < w.bytes := by
  cases w <;> decide

/-- The numbers of all widths fit into a cell, except for large ones of the widest unsigned type. -/
theorem range_of_isNumber {signed : Bool} {w : IntWidth} {x : Int}
    (h : Bytes.IsNumber signed w.bytes x) :
    -2 ^ 63 ≤ x ∧ (x < 2 ^ 63 ∨ signed = false ∧ w = .w64) := by
  unfold Bytes.IsNumber at h
  cases signed <;> cases w <;> simp [IntWidth.bytes] at h ⊢ <;> omega

section Slots

variable {signed : Bool} {w : IntWidth} {shape : Shape} {data : ByteArray} {i : Nat}
  (hv : (Vector.fixed (.int signed w) shape w.bytes data).Sound) (hi : i < shape.length)

include hv hi

/-- A slot has the cell that conversion gives it, unless its number is too large. -/
theorem integerCell_iff {c : Cell} :
    Vector.IntegerCell signed (.fixed (.int signed w) shape w.bytes data) i c ↔
      c = (if (Vector.fixed (.int signed w) shape w.bytes data).isNull i then .null
        else intCell signed w.bytes data i) ∧
      ((Vector.fixed (.int signed w) shape w.bytes data).isNull i = false →
        Vector.slotNumber signed data w.bytes i < 2 ^ 63) := by
  obtain ⟨hlow, -⟩ := range_of_isNumber (Vector.isNumber_slot hv w.bytes_pos hi)
  unfold Vector.IntegerCell
  cases hnull : (Vector.fixed (.int signed w) shape w.bytes data).isNull i with
  | true => simp
  | false =>
    simp only [Bool.false_eq_true, if_false, true_implies, Vector.stores_iff hv w.bytes_pos hi]
    constructor
    · rintro ⟨n, rfl, hn⟩
      rw [← hn]
      refine ⟨?_, Int64.toInt_lt n⟩
      show Cell.int n = .int (Int64.ofInt (Vector.slotNumber signed data w.bytes i))
      rw [← hn, Int64.ofInt_toInt]
    · rintro ⟨rfl, hhigh⟩
      exact ⟨_, rfl, Int64.toInt_ofInt_of_le hlow hhigh⟩

end Slots

/-- Only unsigned integers of 64 bits exceed what a cell can hold. -/
theorem eq_w64_of_exceeds {w : IntWidth} {shape : Shape} {data : ByteArray} {i n : Nat}
    (h : (Vector.fixed (.int false w) shape w.bytes data).Exceeds i n) : w = .w64 := by
  obtain ⟨-, ⟨_, _, _, _, heq, hwrites⟩, hlarge⟩ := h
  cases heq
  have hmax := Int64.toInt_maxValue
  obtain ⟨-, hsmall | ⟨-, hw⟩⟩ := range_of_isNumber hwrites.number
  · omega
  · exact hw

/-! ## Columns -/

/-- The number for which a column of integers is refused. -/
def excess? (signed : Bool) (width : Nat) (v : Vector) (data : ByteArray) : Option Nat :=
  if signed then none else firstUncastable? v width data

section Column

variable {signed : Bool} {w : IntWidth} {shape : Shape} {data : ByteArray}

theorem cellsOf_integers [Allocator] (name : String) :
    cellsOf name (.fixed (.int signed w) shape w.bytes data) =
      match excess? signed w.bytes (.fixed (.int signed w) shape w.bytes data) data with
      | some n => fail (.value name (.uncastable n))
      | none => pure (cells (.fixed (.int signed w) shape w.bytes data) (intCell signed w.bytes data)) :=
  rfl

variable (hv : (Vector.fixed (.int signed w) shape w.bytes data).Sound)

include hv

theorem exceeds_iff {i n : Nat} (hsigned : signed = false) (hi : i < shape.length) :
    (Vector.fixed (.int signed w) shape w.bytes data).Exceeds i n ↔
      (!(Vector.fixed (.int signed w) shape w.bytes data).isNull i
        && intLimit ≤ Vector.slotNat data w.bytes i) = true ∧
      Vector.slotNat data w.bytes i = n := by
  subst hsigned
  have hslot : Vector.slotNumber false data w.bytes i = Vector.slotNat data w.bytes i := rfl
  rw [Vector.Exceeds, Vector.stores_iff hv w.bytes_pos hi, hslot, Int64.toInt_maxValue, Bool.and_eq_true,
    decide_eq_true_eq, intLimit, Bool.not_eq_true']
  constructor
  · rintro ⟨hnull, hn, hlarge⟩
    exact ⟨⟨hnull, by omega⟩, by omega⟩
  · rintro ⟨⟨hnull, hlarge⟩, hn⟩
    exact ⟨hnull, by omega, by omega⟩

theorem excess?_eq_some {n : Nat} :
    excess? signed w.bytes (.fixed (.int signed w) shape w.bytes data) data = some n ↔
      signed = false ∧ w = .w64 ∧
        (Vector.fixed (.int signed w) shape w.bytes data).FirstExcess n := by
  cases hsigned : signed with
  | true => simp [excess?]
  | false =>
    subst hsigned
    simp only [excess?, Bool.false_eq_true, if_false, firstUncastable?, Option.map_eq_some_iff,
      List.find?_range_eq_some, List.mem_range, Vector.FirstExcess, true_and]
    constructor
    · rintro ⟨i, ⟨hlarge, hi, hbefore⟩, hn⟩
      have hexcess := (exceeds_iff hv rfl hi).2 ⟨hlarge, hn⟩
      refine ⟨eq_w64_of_exceeds hexcess, i, hi, hexcess, fun j hj m hm => ?_⟩
      have hfits := hbefore j hj
      rw [((exceeds_iff hv rfl (Nat.lt_trans hj hi)).1 hm).1] at hfits
      cases hfits
    · rintro ⟨-, i, hi, hlarge, hbefore⟩
      obtain ⟨hlarge, hn⟩ := (exceeds_iff hv rfl hi).1 hlarge
      refine ⟨i, ⟨hlarge, hi, fun j hj => ?_⟩, hn⟩
      rw [Bool.not_eq_true', ← Bool.not_eq_true]
      exact fun h => hbefore j hj _ ((exceeds_iff hv rfl (Nat.lt_trans hj hi)).2 ⟨h, rfl⟩)

theorem excess?_eq_none :
    excess? signed w.bytes (.fixed (.int signed w) shape w.bytes data) data = none ↔
      ∀ i < shape.length, (Vector.fixed (.int signed w) shape w.bytes data).isNull i = false →
        Vector.slotNumber signed data w.bytes i < 2 ^ 63 := by
  cases hsigned : signed with
  | true =>
    subst hsigned
    refine iff_of_true rfl fun i hi _ => ?_
    obtain ⟨-, hsmall | ⟨hfalse, -⟩⟩ := range_of_isNumber (Vector.isNumber_slot hv w.bytes_pos hi)
    · exact hsmall
    · cases hfalse
  | false =>
    simp only [excess?, Bool.false_eq_true, if_false, firstUncastable?, Option.map_eq_none_iff,
      List.find?_range_eq_none, Vector.length, Bool.not_and, Bool.not_not, Bool.or_eq_true,
      Bool.not_eq_true', decide_eq_false_iff_not]
    refine forall₂_congr fun i _ => ?_
    have hslot : Vector.slotNumber false data w.bytes i = Vector.slotNat data w.bytes i := rfl
    rw [hslot, intLimit, or_iff_not_imp_left, Bool.not_eq_true]
    refine imp_congr_right fun _ => ?_
    omega

/-- The cells of all slots are those that conversion gives them, unless a number is too large. -/
theorem integerCells_iff {cs : List Cell} :
    (cs.length = shape.length ∧ ∀ i c, cs[i]? = some c →
      Vector.IntegerCell signed (.fixed (.int signed w) shape w.bytes data) i c) ↔
      cs = cells (.fixed (.int signed w) shape w.bytes data) (intCell signed w.bytes data) ∧
      excess? signed w.bytes (.fixed (.int signed w) shape w.bytes data) data = none := by
  rw [excess?_eq_none hv]
  constructor
  · rintro ⟨hlength, hcells⟩
    have hslot i (hi : i < cs.length) :=
      (integerCell_iff hv (hlength ▸ hi)).1 (hcells i _ (List.getElem?_eq_getElem hi))
    refine ⟨List.ext_getElem (by simpa [cells, Vector.length] using hlength) fun i hi _ => ?_,
      fun i hi => (hslot i (hlength ▸ hi)).2⟩
    rw [(hslot i hi).1]
    simp [cells]
  · rintro ⟨rfl, hfits⟩
    refine ⟨by simp [cells, Vector.length], fun i c hc => ?_⟩
    obtain ⟨hi, rfl⟩ := List.getElem?_eq_some_iff.1 hc
    have hi : i < shape.length := by simpa [cells, Vector.length] using hi
    exact (integerCell_iff hv hi).2 ⟨by simp [cells], hfits i hi⟩

end Column

@[simp] theorem fail_inj {α : Type} {e e' : DecodeError} :
    (fail e : Conversion α) = fail e' ↔ e = e' := by
  constructor
  · intro h
    injection h with h
    injection h
  · rintro rfl
    rfl

@[simp] theorem pure_ne_fail {α : Type} {a : α} {e : DecodeError} :
    (pure a : Conversion α) ≠ fail e := by
  intro h
  injection h with h
  cases h

/-- **A column of integers is exact or refused.** -/
theorem exactOrRefused_of_ofType [Allocator] {signed : Bool} {w : IntWidth} {v : Vector} (hv : v.Sound)
    (htype : v.OfType (.int signed w)) (name : String) : ExactOrRefused signed w name v := by
  obtain ⟨shape, data, rfl⟩ := htype.fixed w.bytes rfl
  have hcells := @cellsOf_integers signed w shape data _ name
  refine ⟨fun cs => Iff.trans ?_ (integerCells_iff hv).symm, fun e => ?_, ?_⟩
  · cases hexcess : excess? signed w.bytes (.fixed (.int signed w) shape w.bytes data) data with
    | none => simp [hcells, hexcess, Outcome.pure_inj, eq_comm]
    | some n => simp [hcells, hexcess, eq_comm]
  · simp only [← excess?_eq_some hv]
    cases hexcess : excess? signed w.bytes (.fixed (.int signed w) shape w.bytes data) data with
    | none => simp [hcells, hexcess]
    | some n => simp [hcells, hexcess, eq_comm]
  · cases hexcess : excess? signed w.bytes (.fixed (.int signed w) shape w.bytes data) data with
    | none => exact .inl ⟨_, by rw [hcells, hexcess]⟩
    | some n => exact .inr ⟨_, by rw [hcells, hexcess]⟩

end DataClient.Arrow

namespace DataClient.Columnar

open Outcome Arrow

/-! ## Payloads -/

theorem exists_firstExcess_iff {v : Vector} :
    (∃ n, v.FirstExcess n) ↔ ∃ i < v.length, ∃ n, v.Exceeds i n := by
  constructor
  · rintro ⟨n, i, hi, h, -⟩
    exact ⟨i, hi, n, h⟩
  · intro h
    classical
    obtain ⟨hi, n, hn⟩ := Nat.find_spec h
    exact ⟨n, _, hi, hn, fun j hj m hm => Nat.find_min h hj ⟨Nat.lt_trans hj hi, m, hm⟩⟩

/-- Some slot of some column of unsigned integers of 64 bits holds too large a number. -/
def HoldsExcess (p : Payload) : Prop :=
  ∃ batch ∈ p.batches, ∃ q ∈ p.schema.zip batch.columns, q.1.type = .int false .w64 ∧
    ∃ i < q.2.length, ∃ n, q.2.Exceeds i n

section Payload

variable [Allocator] {b : ByteArray} {p : Payload} (hp : readPayload b = pure p)

include hp

theorem exactOrRefused_of_mem_zip {batch : Batch} (hbatch : batch ∈ p.batches) {q : Field × Vector}
    (hq : q ∈ p.schema.zip batch.columns) {signed : Bool} {w : IntWidth}
    (htype : q.1.type = .int signed w) : ExactOrRefused signed w q.1.info.name q.2 := by
  obtain ⟨hofType, hsound⟩ := ofType_of_mem_zip hp hbatch hq
  exact exactOrRefused_of_ofType hsound (htype ▸ hofType) _

/-- A column that is refused for a number is one of unsigned integers of 64 bits. -/
theorem refused_iff {batch : Batch} (hbatch : batch ∈ p.batches) {q : Field × Vector}
    (hq : q ∈ p.schema.zip batch.columns) {name : String} {n : Nat} :
    cellsOf q.1.info.name q.2 = fail (.value name (.uncastable n)) ↔
      q.1.info.name = name ∧ q.1.type = .int false .w64 ∧ q.2.FirstExcess n := by
  constructor
  · intro h
    rcases stop?_cellsOf (stop?_eq_inl.2 h) with ⟨signed, w, _, htype, -⟩ | ⟨_, hzone⟩ | hlarge
    · rw [(ofType_of_mem_zip hp hbatch hq).1.type_eq] at htype
      obtain ⟨_, he, rfl, rfl, hexcess⟩ :=
        ((exactOrRefused_of_mem_zip hp hbatch hq htype).refused _).1 h
      cases he
      exact ⟨rfl, htype, hexcess⟩
    · cases hzone
    · cases hlarge
  · rintro ⟨rfl, htype, hexcess⟩
    exact ((exactOrRefused_of_mem_zip hp hbatch hq htype).refused _).2 ⟨n, rfl, rfl, rfl, hexcess⟩

/-- Where all columns are of integers, one that has no cells is refused for a number. -/
theorem stop?_integers (hall : ∀ f ∈ p.schema, ∃ signed w, f.type = .int signed w) {batch : Batch}
    (hbatch : batch ∈ p.batches) {q : Field × Vector} (hq : q ∈ p.schema.zip batch.columns)
    {s : DecodeError ⊕ Crash} (h : stop? (cellsOf q.1.info.name q.2) = some s) :
    ∃ n, s = .inl (.value q.1.info.name (.uncastable n)) ∧ q.1.type = .int false .w64 ∧
      q.2.FirstExcess n := by
  obtain ⟨signed, w, htype⟩ := hall _ (List.of_mem_zip hq).1
  have hcolumn := exactOrRefused_of_mem_zip hp hbatch hq htype
  rcases hcolumn.ends with ⟨cs, hcs⟩ | ⟨e, he⟩
  · rw [hcs] at h
    cases h
  · obtain ⟨n, rfl, rfl, rfl, hexcess⟩ := (hcolumn.refused e).1 he
    rw [stop?_eq_inl.2 he] at h
    cases h
    exact ⟨n, rfl, htype, hexcess⟩

/-- Columns of integers have cells unless a number is too large. -/
theorem converts_integers_iff (hall : ∀ f ∈ p.schema, ∃ signed w, f.type = .int signed w) :
    Converts p ↔ ¬ HoldsExcess p := by
  rw [converts_iff_forall]
  constructor
  · rintro hcells ⟨batch, hbatch, q, hq, htype, hexcess⟩
    obtain ⟨cs, hcs⟩ := hcells batch hbatch q hq
    obtain ⟨n, hn⟩ := exists_firstExcess_iff.2 hexcess
    rw [(refused_iff hp hbatch hq).2 ⟨rfl, htype, hn⟩] at hcs
    exact absurd hcs.symm pure_ne_fail
  · intro hnone batch hbatch q hq
    rw [← stop?_eq_none, Option.eq_none_iff_forall_ne_some]
    intro s hs
    obtain ⟨n, -, htype, hexcess⟩ := stop?_integers hp hall hbatch hq hs
    exact hnone ⟨batch, hbatch, q, hq, htype, exists_firstExcess_iff.1 ⟨n, hexcess⟩⟩

/-- A value is at fault exactly if a number is too large. -/
theorem value_integers_iff (hall : ∀ f ∈ p.schema, ∃ signed w, f.type = .int signed w)
    (hroom : Roomy p) :
    (∃ name fault, decode b = fail (.value name fault)) ↔ HoldsExcess p := by
  constructor
  · rintro ⟨name, fault, h⟩
    obtain ⟨q, hq, hfail⟩ := (decode_eq_value_iff hp).1 h
    obtain ⟨batch, hbatch, hq⟩ := hq.exists_batch
    obtain ⟨n, -, htype, hexcess⟩ := stop?_integers hp hall hbatch hq (stop?_eq_inl.2 hfail)
    exact ⟨batch, hbatch, q, hq, htype, exists_firstExcess_iff.1 ⟨n, hexcess⟩⟩
  · intro h
    have hstop : (conversions p).findSome? stop? ≠ none := by
      rw [Ne, ← converts_iff, converts_integers_iff hp hall]
      exact not_not_intro h
    obtain ⟨s, hs⟩ := Option.ne_none_iff_exists'.1 hstop
    obtain ⟨before, x, after, hx, hxs, -⟩ := stopsFor_iff.2 hs
    have hmem : x ∈ conversions p := by simp [hx]
    simp only [conversions, List.mem_flatMap, batchConversions_eq, List.mem_map] at hmem
    obtain ⟨batch, hbatch, q, hq, rfl⟩ := hmem
    obtain ⟨n, rfl, -, -⟩ := stop?_integers hp hall hbatch hq hxs
    refine ⟨q.1.info.name, .uncastable n, ?_⟩
    rw [decode_of_readPayload hp, ← stop?_eq_inl, stop?_tableOf (readPayload_batches hp) hroom, hs]
    rfl

end Payload

/-- **Integers are exact or refused.** Each column of integers is given the numbers of its slots, or it
is refused for its first number that is too large; so in a table every slot of integers has its number,
and null stands for slots without a value alone. A payload is refused for a number exactly if conversion
gets to a column of unsigned integers of 64 bits with a number that is too large. Of payloads with
nothing but integers no other is refused. -/
theorem integers_exact [Allocator] {b : ByteArray} {p : Payload} (hp : readPayload b = pure p) :
    (∀ batch ∈ p.batches, ∀ q ∈ p.schema.zip batch.columns, ∀ signed w,
      q.1.type = .int signed w → ExactOrRefused signed w q.1.info.name q.2) ∧
    (∀ t, decode b = pure t → Aligned (fun v k c =>
      ∀ signed w, v.type = .int signed w → v.IntegerCell signed k c) p.batches t.rows) ∧
    (∀ name n, decode b = fail (.value name (.uncastable n)) ↔
      ∃ q, Reached p q ∧ q.1.info.name = name ∧ q.1.type = .int false .w64 ∧ q.2.FirstExcess n) ∧
    ((∀ f ∈ p.schema, ∃ signed w, f.type = .int signed w) → Roomy p →
      ((∃ name fault, decode b = fail (.value name fault)) ↔ HoldsExcess p) ∧
      ((∃ t, decode b = pure t) ↔
        ¬ HoldsExcess p ∧ (p.schema.map (·.info.name)).Nodup)) := by
  have hcolumns {batch : Batch} (hbatch : batch ∈ p.batches) {q : Field × Vector}
      (hq : q ∈ p.schema.zip batch.columns) {signed w} (htype : q.1.type = .int signed w) :=
    exactOrRefused_of_mem_zip hp hbatch hq htype
  refine ⟨fun _ hbatch _ hq _ _ => hcolumns hbatch hq, fun t => ?_, fun name n => ?_,
    fun hall hroom => ⟨value_integers_iff hp hall hroom, ?_⟩⟩
  · refine aligned_of_columns hp fun batch hbatch q hq cs hcs k c hc signed w htype => ?_
    rw [(ofType_of_mem_zip hp hbatch hq).1.type_eq] at htype
    exact (((hcolumns hbatch hq htype).cells cs).1 hcs).2 k c hc
  · rw [decode_eq_value_iff hp]
    refine exists_congr fun q => and_congr_right fun hq => ?_
    obtain ⟨batch, hbatch, hq⟩ := hq.exists_batch
    exact refused_iff hp hbatch hq
  · rw [exists_decode_iff hp hroom, converts_integers_iff hp hall]

/-- A schema with a column of unsigned integers of 64 bits. -/
def unsignedSchemaFrame : List UInt8 :=
  [255, 255, 255, 255, 120, 0, 0, 0, 16, 0, 0, 0, 0, 0, 10, 0, 12, 0, 10, 0,
   9, 0, 4, 0, 10, 0, 0, 0, 16, 0, 0, 0, 0, 1, 4, 0, 8, 0, 8, 0,
   0, 0, 4, 0, 8, 0, 0, 0, 4, 0, 0, 0, 1, 0, 0, 0, 20, 0, 0, 0,
   16, 0, 22, 0, 16, 0, 14, 0, 15, 0, 4, 0, 0, 0, 8, 0, 16, 0, 0, 0,
   24, 0, 0, 0, 28, 0, 0, 0, 0, 0, 1, 2, 24, 0, 0, 0, 0, 0, 6, 0,
   8, 0, 4, 0, 6, 0, 0, 0, 64, 0, 0, 0, 0, 0, 0, 0, 1, 0, 0, 0,
   118, 0, 0, 0, 0, 0, 0, 0]

/-- The first of two numbers holds no value; all of its bits are set. The second is 2 ^ 63. -/
def largeUnsigned : ByteArray :=
  payloadOf [unsignedSchemaFrame, pairBatchFrame 2
    [255, 255, 255, 255, 255, 255, 255, 255, 0, 0, 0, 0, 0, 0, 0, 128]]

section

open scoped Allocator.Sized

/-- It is refused for the second number and not for the first. -/
theorem integers_largeUnsigned : ∃ p, readPayload largeUnsigned = pure p ∧
    decode largeUnsigned = fail (.value "v" (.uncastable (2 ^ 63))) ∧
    ∃ q, Reached p q ∧ q.1.info.name = "v" ∧ q.1.type = .int false .w64 ∧
      q.2.FirstExcess (2 ^ 63) := by
  have hframes : Yields (frames largeUnsigned) fun fs => ∃ p ∈ held? largeUnsigned fs,
      stop? (tableOf p) = some (.inl (.value "v" (.uncastable (2 ^ 63)))) := by
    decide +kernel
  obtain ⟨p, hread, hstop⟩ := exists_readPayload (by decide +kernel) hframes
  have hdecode := (decode_of_readPayload hread).trans (stop?_eq_inl.1 hstop)
  exact ⟨p, hread, hdecode, ((integers_exact hread).2.2.1 _ _).1 hdecode⟩

end

end DataClient.Columnar
