import DataClient.Proofs.Arrow.Typed
import DataClient.Proofs.Table.Crashes

/-!
# Storage for cells

A batch declares any number of slots, and a column is given a cell for each. Of the columns that are
read, each has the bits or bytes of its slots in a buffer of the payload (`Vector.Within`), so that
the payload is at least an eighth as long as the column, or room for all its cells is claimed
before the first of them is made (`ReservesFirst`). One kind of column has neither: values of no
bytes are collected from as many slots as are declared, and too many of them are a panic.
`storage_of_slots` says so for every column of every payload.
-/

set_option autoImplicit false

namespace DataClient.Arrow

open Outcome Columnar

/-! ## Buffers and the body they lie in -/

/-- The buffer in which a vector keeps its slots, if it has one, takes at most `limit` bytes. -/
def Vector.Within (limit : Nat) : Vector → Prop
  | .boolean _ bits => bits.size ≤ limit
  | .fixed _ _ _ data => data.size ≤ limit
  | .runsOfBytes _ _ width offsets _ => 0 < width ∧ offsets.size ≤ limit
  | .views _ _ slots _ => slots.size ≤ limit
  | _ => True

theorem Vector.NestedOf.within {type : DataType} {v : Vector} (h : v.NestedOf type) (limit : Nat) :
    v.Within limit := by
  cases v with
  | boolean | fixed | runsOfBytes | views => exact h.nested.elim
  | null | list | fixedList | struct | map | union | runs | dictionary => trivial

namespace Load

theorem ensures_unpack (c : Chunk) : Ensures (unpack c) fun d => d.bytes.size ≤ c.bytes.size := by
  unfold unpack
  split
  · exact .pure (Nat.le_refl _)
  · split
    · exact .pure (Nat.zero_le _)
    · refine .pure ?_
      rw [ByteArray.size_extract]
      omega
    · exact .refuse _

section Body

variable (s : Source)

/-- A buffer lies in the body, and taking its length off does not make it longer. -/
theorem ensures_buffer : Ensures (buffer s) fun c => c.bytes.size ≤ s.body.size := by
  unfold buffer
  refine .skip fun p => ?_
  split
  · rename_i offset length _ _
    refine .skip fun _ => ?_
    split
    · rename_i bytes hslice
      have hsize := size_le_of_slice? hslice
      dsimp only
      split
      · exact (ensures_unpack _).imp fun _ h => Nat.le_trans h hsize
      · exact .pure hsize
    · exact .refuse _
  · exact .refuse _

theorem ensures_buffers (n : Nat) :
    Ensures (buffers s n) fun all => ∀ bytes ∈ all, bytes.size ≤ s.body.size := by
  induction n with
  | zero => exact .pure fun _ h => absurd h List.not_mem_nil
  | succ n ih =>
    exact (ensures_buffer s).bind fun c hc => ih.bind fun all hall =>
      .pure (List.forall_mem_cons.2 ⟨hc, hall⟩)

theorem within_fixed (type : DataType) : Ensures (fixed s type) (Vector.Within s.body.size) := by
  unfold fixed
  refine .skip fun _ => .skip fun _ => (ensures_buffer s).bind fun data hdata => ?_
  split
  · exact .refuse _
  · exact .skip fun _ => .check fun _ => .pure hdata

theorem within_bytes (type : DataType) {width : Nat} (hwidth : 0 < width) (text : Bool) :
    Ensures (bytes s type width text) (Vector.Within s.body.size) := by
  unfold bytes
  refine .skip fun _ => .skip fun _ => (ensures_buffer s).bind fun offsets hoffsets => ?_
  exact .skip fun _ => .skip fun _ => .check fun _ => .check fun _ => .pure ⟨hwidth, hoffsets⟩

theorem within_views (type : DataType) (text : Bool) :
    Ensures (views s type text) (Vector.Within s.body.size) := by
  unfold views
  refine .skip fun p => ?_
  split
  · exact .refuse _
  · refine .skip fun _ => (ensures_buffers s _).bind fun all hall => .skip fun _ => ?_
    dsimp only
    split
    · refine .skip fun _ => .check fun _ => .check fun _ => .pure ?_
      exact hall _ (List.mem_cons_of_mem _ List.mem_cons_self)
    · exact .refuse _

theorem within_booleans : Ensures (booleans s) (Vector.Within s.body.size) := by
  unfold booleans
  refine .skip fun _ => .skip fun _ => (ensures_buffer s).bind fun bits hbits => ?_
  exact .skip fun _ => .check fun _ => .pure hbits

/-- What is loaded keeps its slots in a part of the body, where it has slots of its own. -/
theorem within_vector (info : FieldInfo) (type : DataType) :
    Ensures (vector s info type) (Vector.Within s.body.size) := by
  cases type with
  | boolean => exact within_booleans s
  | utf8 | largeUtf8 | binary | largeBinary => exact within_bytes s _ (by decide) _
  | utf8View | binaryView => exact within_views s _ _
  | null | list | largeList | fixedSizeList | struct | map | union | runEndEncoded | dictionary =>
    exact (nestedOf_vector info rfl).imp fun _ h => h.within _
  | _ => exact within_fixed s _

end Body

end Load

theorem Vector.Within.mono {limit limit' : Nat} (hle : limit ≤ limit') {v : Vector}
    (h : v.Within limit) : v.Within limit' := by
  cases v with
  | boolean | fixed | views => exact Nat.le_trans h hle
  | runsOfBytes => exact ⟨h.1, Nat.le_trans h.2 hle⟩
  | _ => trivial

/-- **Slots that have a buffer have it in the payload.** -/
theorem readPayload_within {b : ByteArray} {p : Payload} (h : readPayload b = pure p) :
    ∀ batch ∈ p.batches, ∀ v ∈ batch.columns, v.Within b.size := by
  have hkept schema : Kept b.size schema (fun _ => True) fun batch =>
      ∀ v ∈ batch.columns, v.Within b.size := by
    refine ⟨fun _ _ _ => trivial, ?_⟩
    intro site header batch hsize _ hbatch v hv
    -- The body is a part of the payload, and the buffers are parts of the body.
    obtain ⟨source, _, _, _, hbody, hload, _, _⟩ := readBatch_eq_ok hbatch
    have hwithin := Load.ensures_loadColumns (Load.within_vector source) schema _ _ _ hload v hv
    exact hwithin.mono (hbody ▸ hsize)
  exact readPayload_kept hkept trivial h

/-! ## Lengths of columns -/

theorem type_of_fixedWidth?_zero {type : DataType} (h : Load.fixedWidth? type = some 0) :
    type = .fixedSizeBinary 0 := by
  unfold Load.fixedWidth? at h
  split at h
  case h_1 w => cases w <;> cases h
  case h_16 size =>
    split at h
    · rename_i hnonneg
      have hzero : size = 0 := by
        have := Option.some.inj h
        omega
      rw [hzero]
    · cases h
  all_goals cases h

/-- Vectors without a buffer for their slots. -/
def Vector.bare : Vector → Bool
  | .boolean .. | .fixed .. | .runsOfBytes .. | .views .. => false
  | _ => true

/-- A buffer has at least a bit for each of its slots, unless the values have no bytes. -/
theorem Vector.Sound.length_le {v : Vector} (hv : v.Sound) {limit : Nat} (hwithin : v.Within limit)
    (hbare : v.bare = false) (hbytes : ∀ type shape data, v ≠ .fixed type shape 0 data) :
    v.length ≤ 8 * limit := by
  cases hv with
  | @boolean shape bits _ hbits =>
    have hsize : bits.size ≤ limit := hwithin
    show shape.length ≤ 8 * limit
    omega
  | @fixed type shape width data _ _ hdata =>
    have hsize : data.size ≤ limit := hwithin
    have hpos : 0 < width := Nat.pos_of_ne_zero fun h0 => hbytes type shape data (h0 ▸ rfl)
    have hle := Nat.le_mul_of_pos_right shape.length hpos
    show shape.length ≤ 8 * limit
    omega
  | @runsOfBytes type shape width offsets data _ hruns =>
    obtain ⟨hpos, hsize⟩ : 0 < width ∧ offsets.size ≤ limit := hwithin
    show shape.length ≤ 8 * limit
    -- The last slot has its offset behind those of all others.
    cases hlength : shape.length with
    | zero => exact Nat.zero_le _
    | succ k =>
      have hlast := (hruns k (by omega)).1
      have hle := Nat.le_mul_of_pos_right (k + 2) hpos
      omega
  | @views type shape slots buffers _ hviews =>
    have hsize : slots.size ≤ limit := hwithin
    show shape.length ≤ 8 * limit
    cases hlength : shape.length with
    | zero => exact Nat.zero_le _
    | succ k =>
      have hlast := (hviews k (by omega)).1
      omega
  | _ => cases hbare

end DataClient.Arrow

namespace DataClient.Columnar

open Outcome Arrow

/-! ## Claims -/

/-- What fills the cells of a column once there is room for them. -/
def fill : Vector → Conversion (List Cell)
  | .null length => return List.replicate length .null
  | v => ofAttempt ((List.range v.length).mapM (shownCell v))

/-- Room for all cells of a column is claimed before the first of them is made, if any is made: a
column with a zone that is not known has none. -/
def ReservesFirst [Allocator] (name : String) (v : Vector) : Prop :=
  (∃ zone ∈ v.type.zones, Time.offset? zone = none ∧
      cellsOf name v = fail (.value name (.namedZone zone))) ∨
    cellsOf name v = do
      ofResult (reserve cellBytes v.length)
      fill v

/-- Columns without a buffer for their slots are given cells behind a claim. -/
theorem reservesFirst_of_bare [Allocator] {v : Vector} (hbare : v.bare = true) (name : String) :
    ReservesFirst name v := by
  have reserves_shown (hcells : cellsOf name v = shown name v)
      (hfill : fill v = ofAttempt ((List.range v.length).mapM (shownCell v))) :
      ReservesFirst name v := by
    rw [ReservesFirst, hcells, hfill]
    unfold shown
    split
    · rename_i zone hzone
      -- The zone is looked up before any room is claimed.
      refine .inl ⟨zone, List.mem_of_find?_eq_some hzone, ?_, rfl⟩
      exact Option.isNone_iff_eq_none.1 (by simpa using List.find?_some hzone)
    · exact .inr rfl
  cases v with
  | null length => exact .inr rfl
  | boolean | fixed | runsOfBytes | views => cases hbare
  | _ => exact reserves_shown rfl rfl

theorem ReservesFirst.tooLarge [Allocator] {name : String} {v : Vector} (h : ReservesFirst name v)
    (hzones : ∀ zone ∈ v.type.zones, Time.offset? zone ≠ none)
    (hroom : ¬ HasRoom cellBytes v.length) : cellsOf name v = fail (.tooLarge v.length) := by
  rcases h with ⟨zone, hzone, hnone, -⟩ | h
  · exact absurd hnone (hzones zone hzone)
  · rw [h, reserve, if_neg hroom]
    rfl

/-! ## Values of no bytes -/

/-- Cells of values of no bytes are collected from as many slots as are declared. What cannot be held
is never refused: more cells than a claim can be for are a panic. -/
structure CollectsDeclared [Allocator] (name : String) (v : Vector) : Prop where
  empty : ∃ shape data, v = .fixed (.fixedSizeBinary 0) shape 0 data
  collected : cellsOf name v = do
    ofAttempt (collect v.length)
    return cells v fun _ => .bytes ByteArray.empty
  not_refused : ∀ e, cellsOf name v ≠ fail e
  overflow : capacityLimit < cellBytes * collectedCells v.length →
    cellsOf name v = ofAttempt (.error (.capacityOverflow v.length))

theorem collectsDeclared_of_sound [Allocator] {type : DataType} {shape : Shape} {data : ByteArray}
    (hv : (Vector.fixed type shape 0 data).Sound) (name : String) :
    CollectsDeclared name (.fixed type shape 0 data) := by
  obtain rfl : type = .fixedSizeBinary 0 := by
    cases hv with
    | fixed _ hwidth _ => exact type_of_fixedWidth?_zero hwidth
  have hempty i : data.extract (i * 0) (i * 0 + 0) = ByteArray.empty := by
    rw [← ByteArray.size_eq_zero_iff, ByteArray.size_extract]
    omega
  have hcells : cellsOf name (.fixed (.fixedSizeBinary 0) shape 0 data) = do
      ofAttempt (collect shape.length)
      return cells (.fixed (.fixedSizeBinary 0) shape 0 data) fun _ => .bytes ByteArray.empty := by
    simp only [cellsOf, fixedCells, hempty, Vector.length]
  refine ⟨⟨shape, data, rfl⟩, hcells, fun e h => ?_, fun hlarge => ?_⟩
  · rw [hcells] at h
    cases hcollect : collect shape.length <;> rw [hcollect] at h <;> cases h
  · have hcollect : collect shape.length = .error (.capacityOverflow shape.length) :=
      collect_eq_error.2 (.inl ⟨hlarge, rfl⟩)
    rw [hcells, hcollect]
    rfl

/-- **Room is claimed for cells, or the payload has a bit for each slot.** Every column of every batch
that is read, however many slots it declares, has its cells made behind a claim that refuses what
cannot be held, or has no more slots than eight for each byte of the payload. Only values of no bytes
are neither: their cells are collected from the declared number of slots. -/
theorem storage_of_slots [Allocator] {b : ByteArray} {p : Payload} (h : readPayload b = pure p) :
    ∀ batch ∈ p.batches, ∀ v ∈ batch.columns, ∀ name : String,
      (ReservesFirst name v ∧
        ((∀ zone ∈ v.type.zones, Time.offset? zone ≠ none) → ¬ HasRoom cellBytes v.length →
          cellsOf name v = fail (.tooLarge v.length))) ∨
      v.length ≤ 8 * b.size ∨
      CollectsDeclared name v := by
  intro batch hbatch v hmem name
  have hv := readPayload_sound h batch hbatch v hmem
  have hwithin := readPayload_within h batch hbatch v hmem
  cases hbare : v.bare with
  | true =>
    have hclaims := reservesFirst_of_bare hbare name
    exact .inl ⟨hclaims, hclaims.tooLarge⟩
  | false =>
    by_cases hbytes : ∃ type shape data, v = .fixed type shape 0 data
    · obtain ⟨type, shape, data, rfl⟩ := hbytes
      exact .inr (.inr (collectsDeclared_of_sound hv name))
    · exact .inr (.inl (hv.length_le hwithin hbare fun type shape data h0 =>
        hbytes ⟨type, shape, data, h0⟩))

/-! ## Payloads that declare more than they hold -/

/-- A schema with a column of one of the types without parameters or with all of them zero. -/
def plainSchemaFrame (type : UInt8) : List UInt8 :=
  [255, 255, 255, 255, 96, 0, 0, 0, 16, 0, 0, 0, 0, 0, 10, 0, 12, 0, 10, 0,
   9, 0, 4, 0, 10, 0, 0, 0, 16, 0, 0, 0, 0, 1, 4, 0, 8, 0, 8, 0,
   0, 0, 4, 0, 8, 0, 0, 0, 4, 0, 0, 0, 1, 0, 0, 0, 16, 0, 0, 0,
   12, 0, 16, 0, 12, 0, 11, 0, 10, 0, 4, 0, 12, 0, 0, 0, 16, 0, 0, 0,
   0, 0, type, 1, 12, 0, 0, 0, 4, 0, 4, 0, 4, 0, 0, 0, 1, 0, 0, 0,
   97, 0, 0, 0]

/-- A batch of nulls without a body. -/
def nullsBatchFrame : List UInt8 :=
  [255, 255, 255, 255, 88, 0, 0, 0, 20, 0, 0, 0, 0, 0, 0, 0, 0, 0, 10, 0,
   14, 0, 12, 0, 11, 0, 4, 0, 10, 0, 0, 0, 20, 0, 0, 0, 0, 0, 0, 3,
   4, 0, 10, 0, 20, 0, 12, 0, 8, 0, 4, 0, 10, 0, 0, 0, 16, 0, 0, 0,
   16, 0, 0, 0, 255, 255, 255, 255, 255, 255, 255, 127, 0, 0, 0, 0, 1, 0, 0, 0,
   255, 255, 255, 255, 255, 255, 255, 127, 255, 255, 255, 255, 255, 255, 255, 127,
   255, 255, 255, 255, 0, 0, 0, 0]

/-- A batch of values of no bytes, whose buffers are empty. -/
def emptyValuesBatchFrame : List UInt8 :=
  [255, 255, 255, 255, 120, 0, 0, 0, 20, 0, 0, 0, 0, 0, 0, 0, 0, 0, 10, 0,
   14, 0, 12, 0, 11, 0, 4, 0, 10, 0, 0, 0, 20, 0, 0, 0, 0, 0, 0, 3,
   4, 0, 10, 0, 20, 0, 12, 0, 8, 0, 4, 0, 10, 0, 0, 0, 16, 0, 0, 0,
   48, 0, 0, 0, 0, 0, 0, 0, 0, 0, 0, 64, 2, 0, 0, 0, 0, 0, 0, 0,
   0, 0, 0, 0, 0, 0, 0, 0, 0, 0, 0, 0, 0, 0, 0, 0, 0, 0, 0, 0,
   0, 0, 0, 0, 0, 0, 0, 0, 1, 0, 0, 0, 0, 0, 0, 0, 0, 0, 0, 64,
   0, 0, 0, 0, 0, 0, 0, 0, 255, 255, 255, 255, 0, 0, 0, 0]

def manyNulls : ByteArray := payloadOf [plainSchemaFrame 1, nullsBatchFrame]

def manyEmptyValues : ByteArray := payloadOf [plainSchemaFrame 15, emptyValuesBatchFrame]

/-- The number of nulls in a payload of one column of them. -/
def nullCount? : Payload → Option Nat
  | ⟨_, [⟨_, [.null n]⟩]⟩ => some n
  | _ => none

section

open scoped Allocator.Sized

/-- There are far more nulls than bits in the payload, and their cells are refused as too many. -/
theorem tooLarge_manyNulls : ∃ p, readPayload manyNulls = pure p ∧ ∃ batch ∈ p.batches,
    ∃ v ∈ batch.columns, v.length = 0x7FFFFFFFFFFFFFFF ∧ ¬ v.length ≤ 8 * manyNulls.size ∧
      ∀ name, cellsOf name v = fail (.tooLarge v.length) := by
  have hframes : Yields (frames manyNulls) fun fs => ∃ p ∈ held? manyNulls fs,
      nullCount? p = some 0x7FFFFFFFFFFFFFFF := by
    decide +kernel
  obtain ⟨p, hread, hcount⟩ := exists_readPayload (by decide +kernel) hframes
  unfold nullCount? at hcount
  split at hcount
  · rename_i schema rows n
    obtain rfl := Option.some.inj hcount
    have hmany : ¬ 0x7FFFFFFFFFFFFFFF ≤ 8 * manyNulls.size := by decide +kernel
    refine ⟨_, hread, _, List.mem_cons_self, _, List.mem_cons_self, rfl, hmany, fun name => ?_⟩
    rcases storage_of_slots hread _ List.mem_cons_self _ List.mem_cons_self name with
      ⟨-, hlarge⟩ | hle | ⟨⟨_, _, h⟩, -, -, -⟩
    · exact hlarge (fun _ h => absurd h List.not_mem_nil) (by decide)
    · exact absurd hle hmany
    · cases h
  · cases hcount

/-- The number of values in a payload of one column of values of no bytes. -/
def emptyValueCount? : Payload → Option Nat
  | ⟨_, [⟨_, [.fixed (.fixedSizeBinary _) shape 0 _]⟩]⟩ => some shape.length
  | _ => none

/-- There are far more values than bits in the payload, and nothing is claimed for them. -/
theorem not_reservesFirst_manyEmptyValues : ∃ p, readPayload manyEmptyValues = pure p ∧
    (∃ batch ∈ p.batches, ∃ v ∈ batch.columns, v.length = 0x4000000000000000 ∧
      ¬ v.length ≤ 8 * manyEmptyValues.size ∧ ∀ name, ¬ ReservesFirst name v) ∧
    decode manyEmptyValues = ofAttempt (.error (.capacityOverflow 0x4000000000000000)) := by
  have hframes : Yields (frames manyEmptyValues) fun fs => ∃ p ∈ held? manyEmptyValues fs,
      emptyValueCount? p = some 0x4000000000000000 ∧
      stop? (tableOf p) = some (.inr (.capacityOverflow 0x4000000000000000)) := by
    decide +kernel
  obtain ⟨p, hread, hcount, hstop⟩ := exists_readPayload (by decide +kernel) hframes
  refine ⟨p, hread, ?_, (decode_of_readPayload hread).trans (stop?_eq_inr.1 hstop)⟩
  unfold emptyValueCount? at hcount
  split at hcount
  · rename_i schema rows size shape data
    have hlength : shape.length = 0x4000000000000000 := Option.some.inj hcount
    have hmany : ¬ shape.length ≤ 8 * manyEmptyValues.size := by
      rw [hlength]
      decide +kernel
    refine ⟨_, List.mem_cons_self, _, List.mem_cons_self, hlength, hmany, fun name hclaims => ?_⟩
    have hlarge := hclaims.tooLarge (fun _ h => absurd h List.not_mem_nil)
      (by simp only [Vector.length, hlength]; decide)
    have hcollect : collect shape.length = .error (.capacityOverflow shape.length) :=
      collect_eq_error.2 (.inl ⟨by rw [hlength]; decide, rfl⟩)
    rw [cellsOf, fixedCells, Vector.length, hcollect] at hlarge
    cases hlarge
  · cases hcount

end

end DataClient.Columnar
