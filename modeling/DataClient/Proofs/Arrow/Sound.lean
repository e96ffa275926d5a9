import Mathlib.Algebra.Group.Nat.Defs
import DataClient.Proofs.Bytes.Words
import DataClient.Proofs.Arrow.Batches

/-!
# Vectors that can be read

`Vector.Sound` says that all that is behind a slot of a vector is there: its bit in the bitmap, its
bytes in the storage, the items between its offsets, the variant and the value that it refers to.
Nothing is said about positions behind the last run. Loading checks all this before a vector is
there at all, so whatever is loaded is sound (`ensures_vector`), for every type and every list of
lengths and buffers, and so is every column of a payload that has been read (`readPayload_sound`).
-/

set_option autoImplicit false

namespace DataClient.Arrow

open Outcome Bytes

/-! ## Slots as numbers -/

theorem Vector.slotNat_lt (data : ByteArray) (width i : Nat) :
    slotNat data width i < 2 ^ (8 * width) := by
  have hpow : Nat.pow 256 width = 2 ^ (8 * width) := by
    rw [Nat.pow_mul]
    rfl
  unfold slotNat
  cases h : word? data (i * width) width with
  | none => exact Nat.two_pow_pos _
  | some n => exact hpow ▸ word?_lt h

theorem Vector.slotInt_of_nonneg {data : ByteArray} {width i : Nat} (h : 0 ≤ slotInt data width i) :
    slotInt data width i = slotNat data width i := by
  have hlt := slotNat_lt data width i
  unfold slotInt signed at h ⊢
  have hpow : Nat.pow 2 (8 * width) = 2 ^ (8 * width) := rfl
  rw [hpow] at h ⊢
  split
  · rfl
  · rename_i hbig
    rw [if_neg hbig] at h
    omega

/-! ## Sound vectors -/

/-- A bitmap has a bit for each slot. -/
def Shape.Sound (s : Shape) : Prop := ∀ bits ∈ s.validity, s.length ≤ 8 * bits.size

/-- Each of `length` slots has its two offsets, which lie in order and in a storage of `limit`. -/
def RunsInside (offsets : ByteArray) (width length limit : Nat) : Prop :=
  ∀ i < length, (i + 2) * width ≤ offsets.size ∧
    Vector.slotNat offsets width i ≤ Vector.slotNat offsets width (i + 1) ∧
    Vector.slotNat offsets width (i + 1) ≤ limit

/-- A view stands in its slot, and a long one in the buffer that it names. -/
def ViewInside (slots : ByteArray) (buffers : List ByteArray) (i : Nat) : Prop :=
  let n := (u32? slots (i * 16)).getD 0
  (i + 1) * 16 ≤ slots.size ∧
    (Vector.inlineLength < n → ∃ buffer ∈ buffers[(u32? slots (i * 16 + 8)).getD 0]?,
      (u32? slots (i * 16 + 12)).getD 0 + n ≤ buffer.size)

/-- What is behind each slot of a vector is there. -/
inductive Vector.Sound : Vector → Prop
  | null (length : Nat) : Sound (.null length)
  | boolean {s : Shape} {bits : ByteArray} (hs : s.Sound) (h : (s.length + 7) / 8 ≤ bits.size) :
    Sound (.boolean s bits)
  | fixed {type : DataType} {s : Shape} {width : Nat} {data : ByteArray} (hs : s.Sound)
    (hwidth : Load.fixedWidth? type = some width) (h : s.length * width ≤ data.size) :
    Sound (.fixed type s width data)
  | runsOfBytes {type : DataType} {s : Shape} {width : Nat} {offsets data : ByteArray} (hs : s.Sound)
    (h : RunsInside offsets width s.length data.size) : Sound (.runsOfBytes type s width offsets data)
  | views {type : DataType} {s : Shape} {slots : ByteArray} {buffers : List ByteArray} (hs : s.Sound)
    (h : ∀ i < s.length, ViewInside slots buffers i) : Sound (.views type s slots buffers)
  | list {type : DataType} {s : Shape} {width : Nat} {offsets : ByteArray} {items : Vector}
    (hs : s.Sound) (h : RunsInside offsets width s.length items.length) (hitems : Sound items) :
    Sound (.list type s width offsets items)
  | fixedList {type : DataType} {s : Shape} {size : Nat} {items : Vector} (hs : s.Sound)
    (h : s.length * size ≤ items.length) (hitems : Sound items) : Sound (.fixedList type s size items)
  | struct {type : DataType} {s : Shape} {fields : List (String × Vector)} (hs : s.Sound)
    (h : ∀ p ∈ fields, s.length ≤ p.2.length) (hfields : ∀ p ∈ fields, Sound p.2) :
    Sound (.struct type s fields)
  | map {type : DataType} {s : Shape} {offsets : ByteArray} {keys values : Vector} (hs : s.Sound)
    (h : RunsInside offsets 4 s.length (min keys.length values.length)) (hkeys : Sound keys)
    (hvalues : Sound values) : Sound (.map type s offsets keys values)
  | union {type : DataType} {length : Nat} {numbers : ByteArray} {offsets : Option ByteArray}
    {variants : List (Int × String × Vector)} (hnumbers : length ≤ numbers.size)
    (hoffsets : ∀ o ∈ offsets, length * 4 ≤ o.size)
    (h : ∀ i < length, ∃ v ∈ variants.lookup (variantNumber numbers i),
      variantSlot offsets i < v.2.length)
    (hvariants : ∀ p ∈ variants, Sound p.2.2) : Sound (.union type length numbers offsets variants)
  | runs {type : DataType} {length width : Nat} {ends : ByteArray} {count : Nat} {values : Vector}
    (hends : count * width ≤ ends.size) (h : values.length = count) (hvalues : Sound values) :
    Sound (.runs type length width ends count values)
  | dictionary {type : DataType} {s : Shape} {signed : Bool} {width : Nat} {keys : ByteArray}
    {values : Vector} (hs : s.Sound) (hkeys : s.length * width ≤ keys.size)
    (h : ∀ i < s.length, s.isNull i = false → slotNat keys width i < values.length)
    (hvalues : Sound values) : Sound (.dictionary type s signed width keys values)

/-- A list of entries of a key and a value is a map. -/
theorem Vector.Sound.map_of_entries {listType entryType type : DataType} {s entryShape : Shape}
    {offsets : ByteArray} {keyName valueName : String} {keys values : Vector}
    (h : Sound (.list listType s 4 offsets
      (.struct entryType entryShape [(keyName, keys), (valueName, values)]))) :
    Sound (.map type s offsets keys values) := by
  cases h with
  | list hshape hruns hitems =>
    cases hitems with
    | struct _ hlengths hfields =>
      obtain ⟨hkeys, hlengths⟩ := List.forall_mem_cons.1 hlengths
      obtain ⟨hvalues, -⟩ := List.forall_mem_cons.1 hlengths
      refine .map hshape (fun i hi => ?_) (hfields _ List.mem_cons_self)
        (hfields _ (List.mem_cons_of_mem _ List.mem_cons_self))
      obtain ⟨hsize, horder, hlimit⟩ := hruns i hi
      exact ⟨hsize, horder, Nat.le_min.2 ⟨Nat.le_trans hlimit hkeys, Nat.le_trans hlimit hvalues⟩⟩

namespace Load

variable {α β : Type}

/-! ## What loading ensures -/

/-- Whatever is loaded has a property. -/
def Ensures (x : Load α) (post : α → Prop) : Prop := ∀ p a q, x.run p = .ok (a, q) → post a

namespace Ensures

variable {x : Load α} {k : α → Load β} {post : α → Prop} {post' : β → Prop}

theorem pure {a : α} (h : post a) : Ensures (Pure.pure a : Load α) post := by
  intro p b q hrun
  cases hrun
  exact h

theorem refuse (why : String) : Ensures (Load.refuse why : Load α) post := by
  intro p b q hrun
  cases hrun

/-- A sequence ensures what its second step ensures after any result that the first one ensures. -/
theorem bind (hx : Ensures x post) (hk : ∀ a, post a → Ensures (k a) post') :
    Ensures (x >>= k) post' := by
  intro p b q hrun
  obtain ⟨⟨a, r⟩, ha, hb⟩ := bind_eq_ok.1 hrun
  exact hk a (hx p a r ha) r b q hb

theorem skip (hk : ∀ a, Ensures (k a) post') : Ensures (x >>= k) post' :=
  have hx : Ensures x fun _ => True := fun _ _ _ _ => trivial
  hx.bind fun a _ => hk a

theorem check {condition : Bool} {why : String} {k : Unit → Load β}
    (hk : condition = true → Ensures (k ()) post') : Ensures (ensure condition why >>= k) post' := by
  unfold ensure
  split
  · exact hk ‹_›
  · have hnone : Ensures (Load.refuse why : Load Unit) fun _ => False := .refuse why
    exact hnone.bind fun _ h => h.elim

theorem imp {post'' : α → Prop} (hx : Ensures x post) (h : ∀ a, post a → post'' a) :
    Ensures x post'' := fun p a q hrun => h a (hx p a q hrun)

end Ensures

/-! ## Shapes and offsets -/

theorem ensures_shape (length : Nat) (nulls : Int) (bitmap : ByteArray) :
    Ensures (shape length nulls bitmap) fun s =>
      s.length = length ∧ s.Sound ∧ (nulls ≤ 0 → s.validity = none) := by
  have none_sound : Shape.Sound ⟨length, none⟩ := fun _ h => by cases h
  unfold shape
  split
  · exact .pure ⟨rfl, none_sound, fun _ => rfl⟩
  · rename_i hnulls
    refine .check fun hsize => .pure ?_
    dsimp only
    split
    · exact ⟨rfl, none_sound, fun _ => rfl⟩
    · refine ⟨rfl, ?_, fun h => absurd h hnulls⟩
      intro bits hbits
      obtain rfl := Option.some.inj hbits
      exact of_decide_eq_true hsize

theorem runsInside_of_offsetsOk {offsets : ByteArray} {width length limit : Nat}
    (h : offsetsOk offsets width length limit = true) : RunsInside offsets width length limit := by
  intro i hi
  unfold offsetsOk at h
  rw [if_neg (by simp; omega)] at h
  simp only [Bool.and_eq_true, decide_eq_true_eq, List.all_eq_true, List.mem_range, Bool.or_eq_true]
    at h
  obtain ⟨⟨hsize, -⟩, hall⟩ := h
  obtain ⟨⟨hnonneg, -⟩, -⟩ := hall i (by omega)
  obtain ⟨⟨hnonneg', hlimit⟩, horder⟩ := hall (i + 1) (by omega)
  have hslot := Vector.slotInt_of_nonneg hnonneg
  have hslot' := Vector.slotInt_of_nonneg hnonneg'
  rw [Nat.add_sub_cancel] at horder
  refine ⟨Nat.le_trans (Nat.mul_le_mul_right width (by omega)) hsize, ?_, by omega⟩
  rcases horder with hzero | hle
  · omega
  · omega

theorem viewInside_of_viewOk {slots : ByteArray} {buffers : List ByteArray} {text : Bool} {i : Nat}
    (hsize : (i + 1) * 16 ≤ slots.size) (h : viewOk slots buffers text i = true) :
    ViewInside slots buffers i := by
  refine ⟨hsize, fun hlong => ?_⟩
  unfold viewOk at h
  simp only [Bool.and_eq_true] at h
  have h := h.1
  rw [if_neg (Nat.not_le.2 hlong)] at h
  split at h
  · rename_i buffer hbuffer
    simp only [Bool.and_eq_true, decide_eq_true_eq] at h
    exact ⟨buffer, hbuffer, h.1⟩
  · cases h

/-! ## Vectors without others inside -/

section Flat

variable (s : Source)

theorem ensures_fixed (type : DataType) : Ensures (fixed s type) Vector.Sound := by
  unfold fixed
  refine .skip ?_
  rintro ⟨length, nulls⟩
  refine .skip fun bitmap => .skip fun data => ?_
  split
  · exact .refuse _
  · rename_i width hwidth
    refine (ensures_shape length nulls bitmap.bytes).bind ?_
    rintro shape ⟨hlength, hshape, -⟩
    refine .check fun hsize => .pure (.fixed hshape hwidth ?_)
    rw [hlength]
    exact of_decide_eq_true hsize

theorem ensures_bytes (type : DataType) (width : Nat) (text : Bool) :
    Ensures (bytes s type width text) Vector.Sound := by
  unfold bytes
  refine .skip ?_
  rintro ⟨length, nulls⟩
  refine .skip fun bitmap => .skip fun offsets => .skip fun data => ?_
  refine (ensures_shape length nulls bitmap.bytes).bind ?_
  rintro shape ⟨hlength, hshape, -⟩
  refine .check fun hoffsets => .check fun _ => .pure (.runsOfBytes hshape ?_)
  rw [hlength]
  exact runsInside_of_offsetsOk hoffsets

theorem ensures_views (type : DataType) (text : Bool) :
    Ensures (views s type text) Vector.Sound := by
  unfold views
  refine .skip fun p => ?_
  split
  · exact .refuse _
  · refine .skip fun _ => .skip fun all => .skip ?_
    rintro ⟨length, nulls⟩
    dsimp only
    split
    · rename_i bitmap slots data
      refine (ensures_shape length nulls bitmap).bind ?_
      rintro shape ⟨hlength, hshape, -⟩
      refine .check fun hsize => .check fun hviews => .pure (.views hshape fun i hi => ?_)
      rw [Bool.and_eq_true, decide_eq_true_eq] at hsize
      rw [List.all_eq_true] at hviews
      rw [hlength] at hi
      exact viewInside_of_viewOk (by omega) (hviews i (List.mem_range.2 hi))
    · exact .refuse _

theorem ensures_booleans : Ensures (booleans s) Vector.Sound := by
  unfold booleans
  refine .skip ?_
  rintro ⟨length, nulls⟩
  refine .skip fun bitmap => .skip fun bits => ?_
  refine (ensures_shape length nulls bitmap.bytes).bind ?_
  rintro shape ⟨hlength, hshape, -⟩
  refine .check fun hsize => .pure (.boolean hshape ?_)
  rw [hlength]
  exact of_decide_eq_true hsize

theorem ensures_nulls : Ensures nulls Vector.Sound := by
  unfold nulls
  refine .skip fun p => ?_
  split
  · exact .skip fun _ => .check fun _ => .pure (.null _)
  · exact .refuse _

/-- A key is a position of a value if its slot holds one. -/
theorem key_lt_of_keysOk {shape : Shape} {signed : Bool} {width : Nat} {keys : ByteArray}
    {values : Nat} (h : keysOk shape signed width keys values = true) {i : Nat} (hi : i < shape.length)
    (hnull : shape.isNull i = false) : Vector.slotNat keys width i < values := by
  unfold keysOk at h
  rw [List.all_eq_true] at h
  have h := h i (List.mem_range.2 hi)
  rw [hnull, Bool.false_or, Bool.and_eq_true, decide_eq_true_eq, decide_eq_true_eq] at h
  cases signed with
  | true =>
    have := Vector.slotInt_of_nonneg h.1
    simp only [if_true] at h
    omega
  | false =>
    simp only [Bool.false_eq_true, if_false] at h
    omega

theorem mem_of_lookup {α β : Type} [BEq α] [LawfulBEq α] {key : α} {value : β} {entries : List (α × β)}
    (h : entries.lookup key = some value) : (key, value) ∈ entries := by
  induction entries with
  | nil => cases h
  | cons entry rest ih =>
    obtain ⟨k, v⟩ := entry
    rw [List.lookup_cons] at h
    split at h
    · rename_i heq
      obtain rfl := eq_of_beq heq
      obtain rfl := Option.some.inj h
      exact List.mem_cons_self
    · exact List.mem_cons_of_mem _ (ih h)

/-- Keys are sound if the values of all dictionaries are. -/
theorem ensures_keys (hs : ∀ d ∈ s.dictionaries, d.2.Sound) (type : DataType) (info : FieldInfo)
    (signed : Bool) (width : IntWidth) (valueType : DataType) :
    Ensures (keys s type info signed width valueType) Vector.Sound := by
  unfold keys
  refine .skip ?_
  rintro ⟨length, nulls⟩
  refine .skip fun bitmap => .skip fun data => ?_
  split
  · exact .refuse _
  · rename_i values hvalues
    refine (ensures_shape length nulls bitmap.bytes).bind ?_
    rintro shape ⟨hlength, hshape, -⟩
    refine .check fun hsize => .check fun _ => .check fun hkeys => .pure ?_
    rw [Bool.and_eq_true, decide_eq_true_eq] at hsize
    exact .dictionary hshape (hlength ▸ hsize.1) (fun i hi hnull => key_lt_of_keysOk hkeys hi hnull)
      (hs _ (mem_of_lookup hvalues))

end Flat

/-! ## Vectors with others inside -/

/-- Lists are sound if their items are; they keep the width of their offsets. -/
theorem ensures_listOf (s : Source) (type : DataType) (width : Nat) (item : FieldInfo)
    {items : Load Vector} (hitems : Ensures items Vector.Sound) :
    Ensures (listOf s type width item items) fun v => ∃ shape offsets loaded,
      v = .list type shape width offsets loaded ∧ v.Sound := by
  unfold listOf
  refine .skip ?_
  rintro ⟨length, nulls⟩
  refine .skip fun bitmap => .skip fun offsets => ?_
  refine hitems.bind fun loaded hloaded => ?_
  refine (ensures_shape length nulls bitmap.bytes).bind ?_
  rintro shape ⟨hlength, hshape, -⟩
  refine .check fun hoffsets => .check fun _ => .pure ⟨_, _, _, rfl, .list hshape ?_ hloaded⟩
  rw [hlength]
  exact runsInside_of_offsetsOk hoffsets

theorem ensures_structOf (type : DataType) (length : Nat) (nulls : Int) (bitmap : ByteArray)
    {fields : List (FieldInfo × Vector)} (hfields : ∀ p ∈ fields, p.2.Sound) :
    Ensures (structOf type length nulls bitmap fields) Vector.Sound := by
  unfold structOf
  refine (ensures_shape length nulls bitmap).bind ?_
  rintro shape ⟨hlength, hshape, hnone⟩
  cases fields with
  | nil => exact .pure (.struct hshape (fun _ h => absurd h List.not_mem_nil)
      fun _ h => absurd h List.not_mem_nil)
  | cons head rest =>
    obtain ⟨info, first⟩ := head
    refine .check fun heven => .check fun hsame => .check fun _ => .pure ?_
    rw [List.all_eq_true] at hsame
    have hmem : ∀ p ∈ ((info, first) :: rest).map (fun q => (q.1.name, q.2)),
        ∃ q ∈ (info, first) :: rest, p.2 = q.2 := by
      intro p hp
      obtain ⟨q, hq, rfl⟩ := List.mem_map.1 hp
      exact ⟨q, hq, rfl⟩
    refine .struct ?_ ?_ ?_
    · intro bits hbits
      -- A struct with a bitmap declares nulls, and then its length is that of its fields.
      have hnulls : ¬ nulls ≤ 0 := fun h => by
        rw [show shape.validity = _ from hnone h] at hbits
        cases hbits
      have heven : length = first.length := by simpa [hnulls] using heven
      have := hshape bits hbits
      dsimp only
      omega
    · intro p hp
      obtain ⟨q, hq, hpq⟩ := hmem p hp
      have := of_decide_eq_true (hsame q hq)
      dsimp only
      rw [hpq]
      exact Nat.le_of_eq this.symm
    · intro p hp
      obtain ⟨q, hq, hpq⟩ := hmem p hp
      exact hpq ▸ hfields q hq

theorem variantLength_le (v : Vector) : variantLength v ≤ v.length := by
  have hhalf : Nat.pow 2 (32 - 1) = 0x80000000 := by decide
  have hall : Nat.pow 2 32 = 0x100000000 := by decide
  have := Nat.mod_le v.length 0x100000000
  unfold variantLength signed
  rw [hhalf, hall]
  split <;> omega

/-- Every slot of a union refers to a slot of a variant. -/
theorem exists_variant_of_variantsOk {length : Nat} {numbers : ByteArray} {offsets : Option ByteArray}
    {variants : List (Int × String × Vector)}
    (h : variantsOk length numbers offsets variants = true) {i : Nat} (hi : i < length) :
    ∃ v ∈ variants.lookup (Vector.variantNumber numbers i),
      Vector.variantSlot offsets i < v.2.length := by
  unfold variantsOk at h
  simp only [Bool.and_eq_true, List.all_eq_true, List.mem_range] at h
  obtain ⟨⟨-, haligned⟩, hall⟩ := h
  have hslot := hall i hi
  split at hslot
  · cases hslot
  · rename_i name v hlookup
    refine ⟨_, hlookup, ?_⟩
    rw [Bool.and_eq_true] at hslot
    cases offsets with
    | none =>
      have hlength : v.length = length :=
        of_decide_eq_true (List.all_eq_true.1 haligned _ (mem_of_lookup hlookup))
      show i < v.length
      omega
    | some o =>
      obtain ⟨-, hslot⟩ := hslot
      rw [Bool.and_eq_true, decide_eq_true_eq, decide_eq_true_eq] at hslot
      have hnat := Vector.slotInt_of_nonneg hslot.1
      have hle := variantLength_le v
      show Vector.slotNat o 4 i < v.length
      omega

mutual

/-- **Whatever is loaded is sound**, if the dictionaries are that were read before. The cases are those
of the type; each check of loading gives one part of soundness. -/
theorem ensures_vector {s : Source} (hs : ∀ d ∈ s.dictionaries, d.2.Sound) (info : FieldInfo) :
    ∀ type : DataType, Ensures (vector s info type) Vector.Sound
  | .null => ensures_nulls
  | .boolean => ensures_booleans s
  | .utf8 => ensures_bytes s _ _ _
  | .largeUtf8 => ensures_bytes s _ _ _
  | .binary => ensures_bytes s _ _ _
  | .largeBinary => ensures_bytes s _ _ _
  | .utf8View => ensures_views s _ _
  | .binaryView => ensures_views s _ _
  | .list item type =>
    (ensures_listOf s _ _ _ (ensures_vector hs item type)).imp fun _ ⟨_, _, _, _, h⟩ => h
  | .largeList item type =>
    (ensures_listOf s _ _ _ (ensures_vector hs item type)).imp fun _ ⟨_, _, _, _, h⟩ => h
  | .fixedSizeList item type size => by
    rw [vector]
    refine .skip ?_
    rintro ⟨length, nulls⟩
    refine .skip fun bitmap => ?_
    refine (ensures_vector hs item type).bind fun items hitems => ?_
    refine (ensures_shape length nulls bitmap.bytes).bind ?_
    rintro shape ⟨hlength, hshape, -⟩
    refine .check fun _ => .check fun hsize => .check fun _ => .pure (.fixedList hshape ?_ hitems)
    rw [hlength]
    exact of_decide_eq_true hsize
  | .struct fields => by
    rw [vector]
    refine .skip ?_
    rintro ⟨length, nulls⟩
    refine .skip fun bitmap => ?_
    exact (ensures_fieldVectors hs fields).bind fun loaded hloaded =>
      ensures_structOf _ _ _ _ hloaded
  | .map entries type sorted => by
    rw [vector]
    refine (ensures_listOf s _ _ _ (ensures_vector hs entries type)).bind fun loaded hloaded => ?_
    obtain ⟨shape, offsets, items, rfl, hsound⟩ := hloaded
    split
    · rename_i heq
      cases heq
      exact .pure hsound.map_of_entries
    · exact .refuse _
  | .union variants dense => by
    rw [vector]
    refine .skip ?_
    rintro ⟨length, -⟩
    dsimp -zeta only
    extract_lets goOn
    have hgoOn : Ensures (goOn ()) Vector.Sound := by
      refine .skip fun numbers => .check fun hnumbers => ?_
      extract_lets build
      have hbuild : ∀ offsets : Option ByteArray, (∀ o ∈ offsets, length * 4 ≤ o.size) →
          Ensures (build offsets) Vector.Sound := by
        intro offsets hoffsets
        refine (ensures_variantVectors hs variants).bind fun loaded hloaded => ?_
        refine .check fun hok => .pure (.union (of_decide_eq_true hnumbers) hoffsets ?_ hloaded)
        exact fun i hi => exists_variant_of_variantsOk hok hi
      split
      · refine .skip fun o => .check fun hsize => hbuild _ ?_
        intro o' ho'
        obtain rfl := Option.some.inj ho'
        rw [Bool.and_eq_true, decide_eq_true_eq] at hsize
        exact hsize.1
      · exact hbuild none fun _ h => by cases h
    split
    · exact .skip fun _ => hgoOn
    · exact hgoOn
  | .runEndEncoded ends endsType values valuesType => by
    rw [vector]
    refine .skip ?_
    rintro ⟨length, -⟩
    refine (ensures_vector hs ends endsType).bind fun loadedEnds hends => ?_
    refine (ensures_vector hs values valuesType).bind fun loadedValues hvalues => ?_
    split
    · rename_i w shape width data
      refine .check fun _ => .check fun hsame => .check fun _ => .pure ?_
      rw [Bool.and_eq_true, decide_eq_true_eq] at hsame
      cases hends with
      | fixed _ _ hsize => exact .runs hsize hsame.2.symm hvalues
    · exact .refuse _
  | .dictionary .. => ensures_keys s hs _ _ _ _ _
  | .int .. => ensures_fixed s _
  | .float16 => ensures_fixed s _
  | .float32 => ensures_fixed s _
  | .float64 => ensures_fixed s _
  | .timestamp .. => ensures_fixed s _
  | .date32 => ensures_fixed s _
  | .date64 => ensures_fixed s _
  | .time32 .. => ensures_fixed s _
  | .time64 .. => ensures_fixed s _
  | .duration .. => ensures_fixed s _
  | .interval .. => ensures_fixed s _
  | .fixedSizeBinary .. => ensures_fixed s _
  | .decimal128 .. => ensures_fixed s _
  | .decimal256 .. => ensures_fixed s _

theorem ensures_fieldVectors {s : Source} (hs : ∀ d ∈ s.dictionaries, d.2.Sound) :
    ∀ fields : List (FieldInfo × DataType),
      Ensures (fieldVectors s fields) fun loaded => ∀ p ∈ loaded, p.2.Sound
  | [] => .pure fun _ h => absurd h List.not_mem_nil
  | (f, t) :: rest => by
    rw [fieldVectors]
    refine (ensures_vector hs f t).bind fun v hv => ?_
    refine (ensures_fieldVectors hs rest).bind fun vs hvs => .pure ?_
    exact List.forall_mem_cons.2 ⟨hv, hvs⟩

theorem ensures_variantVectors {s : Source} (hs : ∀ d ∈ s.dictionaries, d.2.Sound) :
    ∀ variants : List (Int × FieldInfo × DataType),
      Ensures (variantVectors s variants) fun loaded => ∀ p ∈ loaded, p.2.2.Sound
  | [] => .pure fun _ h => absurd h List.not_mem_nil
  | (n, f, t) :: rest => by
    rw [variantVectors]
    refine (ensures_vector hs f t).bind fun v hv => ?_
    refine (ensures_variantVectors hs rest).bind fun vs hvs => .pure ?_
    exact List.forall_mem_cons.2 ⟨hv, hvs⟩

end

end Load

/-! ## What is read -/

/-- What loading one vector ensures holds of all columns of a batch. -/
theorem Load.ensures_loadColumns {s : Source} {post : Vector → Prop}
    (h : ∀ info type, Ensures (vector s info type) post) (schema : Schema) :
    Ensures (loadColumns s schema) fun vs => ∀ v ∈ vs, post v := by
  induction schema with
  | nil => exact .pure fun _ h => absurd h List.not_mem_nil
  | cons f fs ih =>
    exact (h f.info f.type).bind fun v hv => ih.bind fun vs hvs =>
      .pure (List.forall_mem_cons.2 ⟨hv, hvs⟩)

theorem sound_of_readBatch {schema : Schema} {site : Site} {header : BatchHeader} {batch : Batch}
    (hs : ∀ d ∈ site.dictionaries, d.2.Sound) (h : readBatch schema site header = .ok batch) :
    ∀ v ∈ batch.columns, v.Sound := by
  obtain ⟨source, _, _, hsource, _, hload, _, _⟩ := readBatch_eq_ok h
  exact Load.ensures_loadColumns (Load.ensures_vector (hsource ▸ hs)) schema _ _ _ hload

/-- A dictionary is read like a batch of one column and takes the place of the one before it. -/
theorem sound_of_readDictionary {schema : Schema} {site : Site} {id : Int} {isDelta : Bool}
    {data : Option BatchHeader} {ds : List (Int × Vector)}
    (hs : ∀ d ∈ site.dictionaries, d.2.Sound)
    (h : readDictionary schema site id isDelta data = .ok ds) : ∀ d ∈ ds, d.2.Sound := by
  unfold readDictionary at h
  split at h
  · cases h
  · split at h
    · cases h
    · split at h
      · obtain ⟨batch, hbatch, h⟩ := bind_eq_ok.1 h
        have hsound := sound_of_readBatch hs hbatch
        split at h
        · rename_i values hvalues
          cases h
          rw [hvalues] at hsound
          refine List.forall_mem_cons.2 ⟨hsound _ List.mem_cons_self, fun d hd => ?_⟩
          exact hs d (List.mem_filter.1 hd).1
        · cases h
      · cases h

/-- **Every column of a payload is sound**, whatever the payload declares. -/
theorem readPayload_sound {b : ByteArray} {p : Payload} (h : readPayload b = pure p) :
    ∀ batch ∈ p.batches, ∀ v ∈ batch.columns, v.Sound :=
  readPayload_kept (P := fun ds => ∀ d ∈ ds, d.2.Sound)
    (fun _ => ⟨fun _ => sound_of_readDictionary, fun _ => sound_of_readBatch⟩)
    (fun _ h => absurd h List.not_mem_nil) h

end DataClient.Arrow
