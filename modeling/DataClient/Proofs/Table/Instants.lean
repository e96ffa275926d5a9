import Mathlib.Order.Bounds.Basic
import DataClient.Proofs.Arrow.Numbers
import DataClient.Proofs.Table.Columnwise

/-!
# Columns of instants

Times and dates are counted from the epoch in ticks of their type (`tick?`). Whatever the tick, the
cell of an instant is the last millisecond that is not after it, also before the epoch, or the nearest
one that a cell can hold (`InstantCell`).
-/

set_option autoImplicit false

namespace DataClient.Arrow

open Columnar

/-- The nanoseconds between two values of a type of instants. -/
def tick? : DataType → Option Int
  | .timestamp .second _ => some 1000000000
  | .timestamp .millisecond _ => some 1000000
  | .timestamp .microsecond _ => some 1000
  | .timestamp .nanosecond _ => some 1
  | .date32 => some (24 * 60 * 60 * 1000000000)
  | .date64 => some 1000000
  | _ => none

/-- The last millisecond that is not after an instant. -/
def IsMillisecondOf (ns g : Int) : Prop := IsGreatest {m : Int | m * 1000000 ≤ ns} g

/-- The numbers that a cell can hold. -/
def Fits (g : Int) : Prop := Int64.minValue.toInt ≤ g ∧ g ≤ Int64.maxValue.toInt

/-- The number of a cell is the nearest to a number. -/
structure Nearest (g : Int) (ms : Int64) : Prop where
  fits : Fits g → ms.toInt = g
  below : g < Int64.minValue.toInt → ms = Int64.minValue
  above : Int64.maxValue.toInt < g → ms = Int64.maxValue

namespace Vector

/-- A slot that holds a value marks an instant, in nanoseconds from the epoch. -/
def Marks (v : Vector) (i : Nat) (ns : Int) : Prop :=
  v.isNull i = false ∧ ∃ tick x, tick? v.type = some tick ∧ v.Stores true i x ∧ ns = x * tick

/-- The cell of a slot of instants: null if the slot holds no value, else the millisecond of the
instant that it marks. -/
def InstantCell (v : Vector) (i : Nat) (c : Cell) : Prop :=
  if v.isNull i then c = .null
  else ∃ ns g ms, v.Marks i ns ∧ IsMillisecondOf ns g ∧ Nearest g ms ∧ c = .timestamp ms

end Vector

/-! ## Milliseconds -/

theorem isMillisecondOf_iff {ns g : Int} : IsMillisecondOf ns g ↔ g = ns / 1000000 := by
  have hgreatest : IsMillisecondOf ns (ns / 1000000) :=
    ⟨Int.ediv_mul_le ns (by decide), fun m hm => (Int.le_ediv_iff_mul_le (by decide)).2 hm⟩
  exact ⟨fun h => IsGreatest.unique h hgreatest, fun h => h ▸ hgreatest⟩

theorem toInt_saturate (g : Int) :
    (saturate g).toInt = max (-0x8000000000000000) (min g 0x7FFFFFFFFFFFFFFF) :=
  Int64.toInt_ofInt_of_le (by omega) (by omega)

theorem nearest_iff {g : Int} {ms : Int64} : Nearest g ms ↔ ms = saturate g := by
  have hmin := Int64.toInt_minValue
  have hmax := Int64.toInt_maxValue
  have hsaturate := toInt_saturate g
  constructor
  · intro h
    rw [← Int64.toInt_inj, hsaturate]
    by_cases hlow : g < Int64.minValue.toInt
    · rw [h.below hlow]
      omega
    · by_cases hhigh : Int64.maxValue.toInt < g
      · rw [h.above hhigh]
        omega
      · rw [h.fits ⟨by omega, by omega⟩]
        omega
  · rintro rfl
    refine ⟨fun ⟨hlow, hhigh⟩ => by omega, fun hlow => ?_, fun hhigh => ?_⟩
    · rw [← Int64.toInt_inj]
      omega
    · rw [← Int64.toInt_inj]
      omega

theorem saturate_of_fits {g : Int} (h : Fits g) : saturate g = Int64.ofInt g := by
  obtain ⟨hlow, hhigh⟩ := h
  have hmin := Int64.toInt_minValue
  have hmax := Int64.toInt_maxValue
  unfold saturate
  congr 1
  omega

/-! ## Columns -/

/-- Values of all types of instants have a width. -/
theorem exists_fixedWidth? {type : DataType} {tick : Int} (htick : tick? type = some tick) :
    ∃ width, Load.fixedWidth? type = some width ∧ 0 < width := by
  cases type with
  | timestamp | date64 => exact ⟨8, rfl, by decide⟩
  | date32 => exact ⟨4, rfl, by decide⟩
  | _ => cases htick

/-- But for seconds the milliseconds of all numbers fit. -/
theorem fits_of_isNumber {type : DataType} {width : Nat} {tick x : Int} (htick : tick? type = some tick)
    (hwidth : Load.fixedWidth? type = some width) (hx : Bytes.IsNumber true width x)
    (hsecond : ∀ zone, type ≠ .timestamp .second zone) : Fits (x * tick / 1000000) := by
  have hmin := Int64.toInt_minValue
  have hmax := Int64.toInt_maxValue
  unfold Fits
  cases type with
  | timestamp unit zone =>
    cases hwidth
    have hx : -2 ^ 63 ≤ x ∧ x < 2 ^ 63 := hx
    cases unit with
    | second => exact absurd rfl (hsecond zone)
    | millisecond | microsecond | nanosecond =>
      cases htick
      omega
  | date32 =>
    cases hwidth
    cases htick
    have hx : -2 ^ 31 ≤ x ∧ x < 2 ^ 31 := hx
    omega
  | date64 =>
    cases hwidth
    cases htick
    have hx : -2 ^ 63 ≤ x ∧ x < 2 ^ 63 := hx
    omega
  | _ => cases htick

section Column

variable {type : DataType} {shape : Shape} {width : Nat} {data : ByteArray} {tick : Int}
  (hv : (Vector.fixed type shape width data).Sound) (htick : tick? type = some tick)

include hv htick

theorem width_of_sound : Load.fixedWidth? type = some width ∧ 0 < width := by
  obtain ⟨width', hwidth', hpos⟩ := exists_fixedWidth? htick
  cases hv with
  | fixed _ hwidth _ =>
    obtain rfl := Option.some.inj (hwidth.symm.trans hwidth')
    exact ⟨hwidth, hpos⟩

/-- **Instants become milliseconds in one way**, whatever they are counted in. -/
theorem cellsOf_instants [Allocator] (name : String) : ∃ value : Nat → Cell,
    cellsOf name (.fixed type shape width data)
      = pure (cells (.fixed type shape width data) value) ∧
    ∀ i < shape.length, value i
      = .timestamp (saturate (Vector.slotNumber true data width i * tick / 1000000)) := by
  obtain ⟨hwidth, hpos⟩ := width_of_sound hv htick
  -- But for seconds all milliseconds fit, so that there is nothing to clamp.
  have hfits i (hi : i < shape.length) (hsecond : ∀ zone, type ≠ .timestamp .second zone) :=
    saturate_of_fits (fits_of_isNumber htick hwidth (Vector.isNumber_slot hv hpos hi) hsecond)
  cases type with
  | timestamp unit zone =>
    cases hwidth
    refine ⟨_, rfl, fun i hi => congrArg Cell.timestamp ?_⟩
    cases unit with
    | second =>
      cases htick
      show saturate (Vector.slotNumber true data 8 i * 1000) = _
      congr 1
      omega
    | millisecond =>
      cases htick
      rw [hfits i hi nofun, Int.mul_ediv_cancel _ (by decide)]
      rfl
    | microsecond =>
      cases htick
      rw [hfits i hi nofun]
      show Int64.ofInt ((Vector.slotNumber true data 8 i).fdiv 1000) = _
      rw [Int.fdiv_eq_ediv_of_nonneg _ (by decide)]
      congr 1
      omega
    | nanosecond =>
      cases htick
      rw [hfits i hi nofun]
      show Int64.ofInt ((Vector.slotNumber true data 8 i).fdiv 1000000) = _
      rw [Int.fdiv_eq_ediv_of_nonneg _ (by decide), Int.mul_one]
  | date32 =>
    cases hwidth
    cases htick
    refine ⟨_, rfl, fun i hi => congrArg Cell.timestamp ?_⟩
    rw [hfits i hi nofun]
    show Int64.ofInt (Vector.slotNumber true data 4 i * 86400000) = _
    congr 1
    omega
  | date64 =>
    cases hwidth
    cases htick
    refine ⟨_, rfl, fun i hi => congrArg Cell.timestamp ?_⟩
    rw [hfits i hi nofun, Int.mul_ediv_cancel _ (by decide)]
    rfl
  | _ => cases htick

section Slot

variable {i : Nat} (hi : i < shape.length)

include hi

theorem marks_iff {ns : Int} : (Vector.fixed type shape width data).Marks i ns ↔
    (Vector.fixed type shape width data).isNull i = false ∧
      ns = Vector.slotNumber true data width i * tick := by
  have hstores {x : Int} : Vector.Stores true (.fixed type shape width data) i x ↔
      x = Vector.slotNumber true data width i :=
    Vector.stores_iff hv (width_of_sound hv htick).2 hi
  refine and_congr_right fun _ => ?_
  constructor
  · rintro ⟨_, x, htick', hx, rfl⟩
    obtain rfl : tick = _ := Option.some.inj (htick.symm.trans htick')
    rw [hstores.1 hx]
  · rintro rfl
    exact ⟨tick, _, htick, hstores.2 rfl, rfl⟩

/-- A slot has the cell that conversion gives it, and no other. -/
theorem instantCell_iff {c : Cell} : (Vector.fixed type shape width data).InstantCell i c ↔
    c = if (Vector.fixed type shape width data).isNull i then .null
      else .timestamp (saturate (Vector.slotNumber true data width i * tick / 1000000)) := by
  unfold Vector.InstantCell
  simp only [marks_iff hv htick hi, isMillisecondOf_iff, nearest_iff]
  cases (Vector.fixed type shape width data).isNull i with
  | true => rfl
  | false => simp

end Slot

/-- Every slot of instants has the cell of its instant. -/
theorem exists_instantCells [Allocator] (name : String) : ∃ cs,
    cellsOf name (.fixed type shape width data) = pure cs ∧ cs.length = shape.length ∧
    ∀ i c, cs[i]? = some c → (Vector.fixed type shape width data).InstantCell i c := by
  obtain ⟨value, hcells, hvalue⟩ := cellsOf_instants hv htick name
  refine ⟨_, hcells, by simp [cells, Vector.length], fun i c hc => ?_⟩
  obtain ⟨hi, rfl⟩ := List.getElem?_eq_some_iff.1 hc
  have hi : i < shape.length := by simpa [cells, Vector.length] using hi
  rw [instantCell_iff hv htick hi, ← hvalue i hi]
  simp [cells]

end Column

end DataClient.Arrow

namespace DataClient.Columnar

open Outcome Arrow

/-! ## Payloads -/

/-- A column of instants with its field. -/
def IsInstants (p : Payload) (q : Field × Vector) : Prop :=
  (∃ batch ∈ p.batches, q ∈ p.schema.zip batch.columns) ∧ ∃ tick, tick? q.1.type = some tick

/-- The cell of a slot of a column that has been converted. -/
def IsCellOf [Allocator] (q : Field × Vector) (i : Nat) (c : Cell) : Prop :=
  ∃ cs, cellsOf q.1.info.name q.2 = pure cs ∧ cs[i]? = some c

/-- The milliseconds of a number: those that are counted in milliseconds keep their number, a day is its
midnight, and only numbers of seconds have milliseconds that do not fit. -/
structure KeptAs (type : DataType) (x : Int) (ms : Int64) : Prop where
  milliseconds : (∃ zone, type = .timestamp .millisecond zone) → ms.toInt = x
  date64 : type = .date64 → ms.toInt = x
  date32 : type = .date32 → ms.toInt = x * (24 * 60 * 60 * 1000)
  seconds : ∀ tick g, tick? type = some tick → IsMillisecondOf (x * tick) g → ms.toInt ≠ g →
    ∃ zone, type = .timestamp .second zone

theorem keptAs_saturate {type : DataType} {width : Nat} {tick x : Int} (htick : tick? type = some tick)
    (hwidth : Load.fixedWidth? type = some width) (hx : Bytes.IsNumber true width x) :
    KeptAs type x (saturate (x * tick / 1000000)) := by
  have hfits := fits_of_isNumber htick hwidth hx
  have hnearest : Nearest (x * tick / 1000000) (saturate (x * tick / 1000000)) := nearest_iff.2 rfl
  constructor
  · rintro ⟨zone, rfl⟩
    cases htick
    rw [hnearest.fits (hfits nofun)]
    omega
  · rintro rfl
    cases htick
    rw [hnearest.fits (hfits nofun)]
    omega
  · rintro rfl
    cases htick
    rw [hnearest.fits (hfits nofun)]
    omega
  · rintro tick' g htick' hg hne
    obtain rfl : tick = tick' := Option.some.inj (htick.symm.trans htick')
    obtain rfl := isMillisecondOf_iff.1 hg
    exact Classical.byContradiction fun hsecond =>
      hne (hnearest.fits (hfits fun zone hzone => hsecond ⟨zone, hzone⟩))

section Payload

variable {b : ByteArray} {p : Payload} (hp : readPayload b = pure p)

include hp

/-- A column of instants keeps values of a width. -/
theorem IsInstants.exists_fixed {q : Field × Vector} (hq : IsInstants p q) :
    ∃ tick shape width data, tick? q.1.type = some tick ∧
      q.2 = .fixed q.1.type shape width data ∧ q.2.Sound := by
  obtain ⟨⟨batch, hbatch, hq⟩, tick, htick⟩ := hq
  obtain ⟨hofType, hsound⟩ := ofType_of_mem_zip hp hbatch hq
  obtain ⟨width, hwidth, -⟩ := exists_fixedWidth? htick
  obtain ⟨shape, data, hv⟩ := hofType.fixed width hwidth
  exact ⟨tick, shape, width, data, htick, hv, hsound⟩

/-- Columns of instants always have cells. -/
theorem IsInstants.exists_cells [Allocator] {q : Field × Vector} (hq : IsInstants p q) :
    ∃ cs, cellsOf q.1.info.name q.2 = pure cs ∧ cs.length = q.2.length ∧
      ∀ i c, cs[i]? = some c → q.2.InstantCell i c := by
  obtain ⟨tick, shape, width, data, htick, hv, hsound⟩ := hq.exists_fixed hp
  rw [hv] at hsound ⊢
  exact exists_instantCells hsound htick _

theorem IsInstants.instantCell [Allocator] {q : Field × Vector} (hq : IsInstants p q) {i : Nat}
    {c : Cell}
    (hc : IsCellOf q i c) : i < q.2.length ∧ q.2.InstantCell i c := by
  obtain ⟨cs, hcs, hc⟩ := hc
  obtain ⟨cs', hcs', hlength, hcells⟩ := hq.exists_cells hp
  obtain rfl := pure_inj.1 (hcs.symm.trans hcs')
  exact ⟨hlength ▸ (List.getElem?_eq_some_iff.1 hc).1, hcells i c hc⟩

/-- The cell of a slot of instants is known from the instant. -/
theorem IsInstants.eq_saturate [Allocator] {q : Field × Vector} (hq : IsInstants p q) {i : Nat}
    {ns : Int}
    {ms : Int64} (hns : q.2.Marks i ns) (hms : IsCellOf q i (.timestamp ms)) :
    ms = saturate (ns / 1000000) := by
  obtain ⟨hi, hms⟩ := hq.instantCell hp hms
  obtain ⟨tick, shape, width, data, htick, hv, hsound⟩ := hq.exists_fixed hp
  rw [hv] at hi hns hms hsound
  obtain ⟨hnull, rfl⟩ := (marks_iff hsound htick hi).1 hns
  rw [instantCell_iff hsound htick hi, hnull] at hms
  injection hms

theorem IsInstants.keptAs [Allocator] {q : Field × Vector} (hq : IsInstants p q) {i : Nat} {x : Int}
    {ms : Int64}
    (hx : q.2.Stores true i x) (hms : IsCellOf q i (.timestamp ms)) : KeptAs q.1.type x ms := by
  obtain ⟨hi, hms⟩ := hq.instantCell hp hms
  obtain ⟨tick, shape, width, data, htick, hv, hsound⟩ := hq.exists_fixed hp
  rw [hv] at hi hx hms hsound
  obtain ⟨hwidth, hpos⟩ := width_of_sound hsound htick
  obtain rfl := (Vector.stores_iff hsound hpos hi).1 hx
  rw [instantCell_iff hsound htick hi] at hms
  split at hms
  · cases hms
  · injection hms with hms
    exact hms ▸ keptAs_saturate htick hwidth (Vector.isNumber_slot hsound hpos hi)

end Payload

/-- Milliseconds are in the order of the instants, and instants a millisecond apart keep apart. -/
theorem saturate_order (ns ns' : Int) :
    (ns ≤ ns' → saturate (ns / 1000000) ≤ saturate (ns' / 1000000)) ∧
    (ns + 1000000 ≤ ns' → Fits (ns / 1000000) → Fits (ns' / 1000000) →
      saturate (ns / 1000000) < saturate (ns' / 1000000)) := by
  have hnearest g : Nearest g (saturate g) := nearest_iff.2 rfl
  rw [Int64.le_iff_toInt_le, Int64.lt_iff_toInt_lt]
  refine ⟨fun h => ?_, fun h hfits hfits' => ?_⟩
  · rw [toInt_saturate, toInt_saturate]
    omega
  · rw [(hnearest _).fits hfits, (hnearest _).fits hfits']
    omega

/-- **Instants are named by their milliseconds.** Every column of times or dates has cells, each null for
a slot without a value or else the last millisecond that is not after the instant, or the nearest that a
cell can hold; so has every such slot of a table. Milliseconds are kept as they are, and days are their
midnights; only seconds can be out of range. Whatever they are counted in, the cells are in the order
of the instants, and instants a millisecond apart have cells apart if these are in range. -/
theorem instants_exact [Allocator] {b : ByteArray} {p : Payload} (hp : readPayload b = pure p) :
    (∀ q, IsInstants p q → ∃ cs, cellsOf q.1.info.name q.2 = pure cs ∧ cs.length = q.2.length ∧
      ∀ i c, cs[i]? = some c → q.2.InstantCell i c) ∧
    (∀ t, decode b = pure t → Aligned (fun v k c =>
      (∃ tick, tick? v.type = some tick) → v.InstantCell k c) p.batches t.rows) ∧
    (∀ q, IsInstants p q → ∀ i x ms, q.2.Stores true i x → IsCellOf q i (.timestamp ms) →
      KeptAs q.1.type x ms) ∧
    (∀ q q', IsInstants p q → IsInstants p q' → ∀ i j ns ns' ms ms',
      q.2.Marks i ns → IsCellOf q i (.timestamp ms) →
      q'.2.Marks j ns' → IsCellOf q' j (.timestamp ms') →
        (ns ≤ ns' → ms ≤ ms') ∧
        (ns + 1000000 ≤ ns' → ∀ g g', IsMillisecondOf ns g → IsMillisecondOf ns' g' →
          Fits g → Fits g' → ms < ms')) ∧
    ((∀ f ∈ p.schema, ∃ tick, tick? f.type = some tick) → Roomy p →
      ((∃ t, decode b = pure t) ↔ (p.schema.map (·.info.name)).Nodup)) := by
  refine ⟨fun q hq => hq.exists_cells hp, fun t => ?_, fun q hq i x ms hx hms => hq.keptAs hp hx hms,
    fun q q' hq hq' i j ns ns' ms ms' hns hms hns' hms' => ?_, fun hall hroom => ?_⟩
  · refine aligned_of_columns hp fun batch hbatch q hq cs hcs k c hc htick => ?_
    rw [(ofType_of_mem_zip hp hbatch hq).1.type_eq] at htick
    exact (IsInstants.instantCell hp ⟨⟨batch, hbatch, hq⟩, htick⟩ ⟨cs, hcs, hc⟩).2
  · obtain rfl := hq.eq_saturate hp hns hms
    obtain rfl := hq'.eq_saturate hp hns' hms'
    refine ⟨(saturate_order ns ns').1, fun h g g' hg hg' hfits hfits' => ?_⟩
    obtain rfl := isMillisecondOf_iff.1 hg
    obtain rfl := isMillisecondOf_iff.1 hg'
    exact (saturate_order ns ns').2 h hfits hfits'
  · rw [exists_decode_iff hp hroom, converts_iff_forall, and_iff_right]
    intro batch hbatch q hq
    obtain ⟨cs, hcs, -⟩ :=
      IsInstants.exists_cells hp ⟨⟨batch, hbatch, hq⟩, hall _ (List.of_mem_zip hq).1⟩
    exact ⟨cs, hcs⟩

/-- A schema with a column of seconds. -/
def secondsSchemaFrame : List UInt8 :=
  [255, 255, 255, 255, 120, 0, 0, 0, 16, 0, 0, 0, 0, 0, 10, 0, 12, 0, 10, 0,
   9, 0, 4, 0, 10, 0, 0, 0, 16, 0, 0, 0, 0, 1, 4, 0, 8, 0, 8, 0,
   0, 0, 4, 0, 8, 0, 0, 0, 4, 0, 0, 0, 1, 0, 0, 0, 20, 0, 0, 0,
   16, 0, 20, 0, 16, 0, 14, 0, 15, 0, 4, 0, 0, 0, 8, 0, 16, 0, 0, 0,
   24, 0, 0, 0, 12, 0, 0, 0, 0, 0, 1, 10, 24, 0, 0, 0, 0, 0, 0, 0,
   4, 0, 4, 0, 4, 0, 0, 0, 0, 0, 0, 0, 0, 0, 0, 0, 1, 0, 0, 0,
   118, 0, 0, 0, 0, 0, 0, 0]

/-- A slot without a value, and the last second that can be counted. -/
def lastSecond : ByteArray :=
  payloadOf [secondsSchemaFrame, pairBatchFrame 2
    [0, 0, 0, 0, 0, 0, 0, 0, 255, 255, 255, 255, 255, 255, 255, 127]]

/-- The instant of a cell, if it holds one. -/
def instant? : Cell → Option Int64
  | .timestamp ms => some ms
  | _ => none

section

open scoped Allocator.Sized

/-- The second becomes the last millisecond that a cell can hold. -/
theorem instants_lastSecond : ∃ p t, readPayload lastSecond = pure p ∧ decode lastSecond = pure t ∧
    t.rows.map (·.map instant?) = [[none], [some Int64.maxValue]] ∧
    Aligned (fun v k c => (∃ tick, tick? v.type = some tick) → v.InstantCell k c)
      p.batches t.rows := by
  have hframes : Yields (frames lastSecond) fun fs => ∃ p ∈ held? lastSecond fs,
      Yields (tableOf p) fun t => t.rows.map (·.map instant?) = [[none], [some Int64.maxValue]] := by
    decide +kernel
  obtain ⟨p, hread, t, ht, hrows⟩ := exists_readPayload (by decide +kernel) hframes
  have hdecode := (decode_of_readPayload hread).trans ht
  exact ⟨p, t, hread, hdecode, hrows, (instants_exact hread).2.1 t hdecode⟩

end

end DataClient.Columnar
