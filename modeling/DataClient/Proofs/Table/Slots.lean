import Mathlib.Data.List.Forall2
import DataClient.Proofs.Outcome
import DataClient.Table.Columnar

/-!
# Slots as cells

What the conversion of a column makes of one slot (`Vector.cellAt`): null where the vector's own
bitmap has no value, else the cell of the value, where a type without cells of its own is shown as
text. A column is converted slot by slot (`slotwise_of_cellsOf`): one cell for each slot, in order, and
no cell depends on another slot.
-/

set_option autoImplicit false

namespace DataClient.Arrow

open Columnar Outcome

/-- The cell of a value of fixed width, for the types with cells of their own. -/
def fixedCell? (type : DataType) (width : Nat) (data : ByteArray) (i : Nat) : Option Cell :=
  match type with
  | .int signed _ => some (intCell signed width data i)
  | .float16 => some (.float (Number.Parts.ofHalf (Vector.slotNat data 2 i)).toDouble)
  | .float32 => some (.float (Number.Parts.ofSingle (Vector.slotNat data 4 i)).toDouble)
  | .float64 => some (.float (Float.ofBits (UInt64.ofNat (Vector.slotNat data 8 i))))
  | .timestamp unit _ => some (.timestamp (millisOf unit (Vector.slotInt data 8 i)))
  | .date32 => some (.timestamp (Int64.ofInt (Vector.slotInt data 4 i * millisPerDay)))
  | .date64 => some (.timestamp (Int64.ofInt (Vector.slotInt data 8 i)))
  | .fixedSizeBinary _ => some (.bytes (data.extract (i * width) (i * width + width)))
  | _ => none

namespace Vector

/-- The cell of the value in a slot, for the types with cells of their own. -/
def ownCell? (i : Nat) : Vector → Option Cell
  | .null _ => some .null
  | .boolean _ bits => some (.bool (Bytes.bit bits i))
  | .fixed type _ width data => fixedCell? type width data i
  | .runsOfBytes type _ width offsets data => some (bytesCell type (run offsets data width i))
  | .views type _ slots buffers => some (bytesCell type (view slots buffers i))
  | _ => none

/-- The cell of a slot: null if the vector's bitmap says so, else that of the value, which is shown
as text if its type has no cells of its own. -/
def cellAt (v : Vector) (i : Nat) : Except Crash Cell :=
  if v.isNull i then .ok .null
  else match v.ownCell? i with
    | some c => .ok c
    | none => (v.text i).finish.map .string

/-- One cell for each slot, each that of its slot. -/
structure Slotwise (v : Vector) (cs : List Cell) : Prop where
  length : cs.length = v.length
  cell : ∀ i c, cs[i]? = some c → v.cellAt i = .ok c

end Vector

/-! ## Columns of cells -/

/-- Steps without an error of the payload all have results exactly if they have them one by one. -/
theorem mapM_eq_ok {α β κ : Type} {f : α → Except κ β} {xs : List α} {ys : List β} :
    xs.mapM f = .ok ys ↔ List.Forall₂ (fun x y => f x = .ok y) xs ys := by
  induction xs generalizing ys with
  | nil => cases ys <;> simp [pure, Except.pure]
  | cons x xs ih =>
    rw [List.mapM_cons, bind_eq_ok]
    constructor
    · rintro ⟨y, hy, h⟩
      obtain ⟨rest, hrest, h⟩ := bind_eq_ok.1 h
      cases h
      exact .cons hy (ih.1 hrest)
    · intro h
      cases h with
      | cons hy hrest => exact ⟨_, hy, bind_eq_ok.2 ⟨_, ih.2 hrest, rfl⟩⟩

section Columns

variable {name : String} {v : Vector} {cs : List Cell}

theorem slotwise_cells {value : Nat → Cell} (h : ∀ i, v.ownCell? i = some (value i)) :
    v.Slotwise (cells v value) := by
  refine ⟨by simp [cells], fun i c hc => ?_⟩
  simp only [cells, List.getElem?_map, Option.map_eq_some_iff] at hc
  obtain ⟨j, hj, rfl⟩ := hc
  obtain ⟨_, rfl⟩ := List.getElem?_eq_some_iff.1 hj
  simp only [List.getElem_range, Vector.cellAt, h]
  split <;> rfl

theorem slotwise_shown [Allocator] (column : String) (h : ∀ i, v.ownCell? i = none)
    (hcs : shown column v = pure cs) : v.Slotwise cs := by
  unfold shown at hcs
  split at hcs
  · injection hcs with hcs
    cases hcs
  · obtain ⟨_, _, hcs⟩ := bind_eq_pure.1 hcs
    have hmap : (List.range v.length).mapM (shownCell v) = .ok cs := by
      cases hm : (List.range v.length).mapM (shownCell v) with
      | error c => rw [hm] at hcs; cases hcs
      | ok cs' => rw [hm] at hcs; rw [pure_inj.1 hcs]
    have hslots := mapM_eq_ok.1 hmap
    refine ⟨by simpa using hslots.length_eq.symm, fun i c hc => ?_⟩
    obtain ⟨hi, rfl⟩ := List.getElem?_eq_some_iff.1 hc
    have hslot := hslots.get (by simpa [hslots.length_eq] using hi) hi
    simpa [shownCell, Vector.cellAt, h] using hslot

/-- The same for values of fixed width: a type either has cells of its own or is shown. -/
theorem slotwise_fixedCells [Allocator] {type : DataType} {shape : Shape} {width : Nat}
    {data : ByteArray}
    (h : fixedCells name (.fixed type shape width data) type width data = pure cs) :
    (Vector.fixed type shape width data).Slotwise cs := by
  cases type with
  | int signed w =>
    simp only [fixedCells] at h
    split at h
    · injection h with h
      cases h
    · rw [← pure_inj.1 h]
      exact slotwise_cells fun i => rfl
  | fixedSizeBinary size =>
    obtain ⟨_, _, h⟩ := bind_eq_pure.1 h
    rw [← pure_inj.1 h]
    exact slotwise_cells fun i => rfl
  | float16 | float32 | float64 | timestamp | date32 | date64 =>
    rw [← pure_inj.1 h]
    exact slotwise_cells fun i => rfl
  | _ => exact slotwise_shown name (fun i => rfl) h

/-- **A column is converted slot by slot.** -/
theorem slotwise_of_cellsOf [Allocator] (h : cellsOf name v = pure cs) : v.Slotwise cs := by
  cases v with
  | null length =>
    obtain ⟨_, _, h⟩ := bind_eq_pure.1 h
    rw [← pure_inj.1 h]
    refine ⟨by simp [Vector.length], fun i c hc => ?_⟩
    obtain ⟨_, rfl⟩ := List.getElem?_eq_some_iff.1 hc
    simp [Vector.cellAt, Vector.isNull, Vector.validity, Vector.ownCell?]
  | boolean | runsOfBytes | views =>
    rw [← pure_inj.1 h]
    exact slotwise_cells fun i => rfl
  | fixed => exact slotwise_fixedCells h
  | list | fixedList | struct | map | union | runs | dictionary =>
    exact slotwise_shown name (fun i => rfl) h

end Columns

end DataClient.Arrow
