import DataClient.Table.Records
import Mathlib.Order.Lattice

/-!
# Kinds of columns

The kinds are ordered by what they cover: nulls are below everything, integers below doubles, and
texts are above everything. `ColumnKind.join` gives the least kind above two, so the kind of a column
is the least one above those of its cells (`joined_le_iff`), in whatever order these come. Every
question about it becomes one about the single cells.
-/

set_option autoImplicit false

namespace DataClient

namespace ColumnKind

theorem join_comm (a b : ColumnKind) : a.join b = b.join a := by
  cases a <;> cases b <;> rfl

theorem join_assoc (a b c : ColumnKind) : (a.join b).join c = a.join (b.join c) := by
  cases a <;> cases b <;> cases c <;> rfl

theorem join_self (a : ColumnKind) : a.join a = a := by
  cases a <;> rfl

instance : Max ColumnKind := ⟨join⟩

instance : SemilatticeSup ColumnKind := SemilatticeSup.mk' join_comm join_assoc join_self

theorem join_eq_sup (a b : ColumnKind) : a.join b = a ⊔ b := rfl

theorem le_iff {a b : ColumnKind} : a ≤ b ↔ a.join b = b := Iff.rfl

theorem null_le (k : ColumnKind) : .null ≤ k := by
  cases k <;> rfl

theorem name_inj {a b : ColumnKind} : a.name = b.name ↔ a = b := by
  cases a <;> cases b <;> simp [name]

-- What is below what, is read off `join`, one kind at a time.
attribute [local simp] le_iff join ofCell

/-- Every kind is told apart by the kinds above it. -/
theorem eq_null_iff {k : ColumnKind} : k = .null ↔ k ≤ .null := by
  cases k <;> simp

theorem eq_boolean_iff {k : ColumnKind} : k = .boolean ↔ k ≤ .boolean ∧ ¬ k ≤ .null := by
  cases k <;> simp

theorem eq_int64_iff {k : ColumnKind} : k = .int64 ↔ k ≤ .int64 ∧ ¬ k ≤ .null := by
  cases k <;> simp

theorem eq_float64_iff {k : ColumnKind} : k = .float64 ↔ k ≤ .float64 ∧ ¬ k ≤ .int64 := by
  cases k <;> simp

/-! ## The kind of a column -/

/-- The kind that the cells of a column have in common. -/
def joined (cells : List Cell) : ColumnKind := cells.foldl (fun k c => k.join (.ofCell c)) .null

theorem foldl_join_le_iff {cells : List Cell} {start k : ColumnKind} :
    cells.foldl (fun k c => k.join (.ofCell c)) start ≤ k ↔ start ≤ k ∧ ∀ c ∈ cells, ofCell c ≤ k := by
  induction cells generalizing start with
  | nil => simp
  | cons c cs ih => rw [List.foldl_cons, ih, join_eq_sup, sup_le_iff, List.forall_mem_cons, and_assoc]

/-- **The kind of a column is the least above those of its cells.** -/
theorem joined_le_iff {cells : List Cell} {k : ColumnKind} :
    joined cells ≤ k ↔ ∀ c ∈ cells, ofCell c ≤ k := by
  rw [joined, foldl_join_le_iff, and_iff_right (null_le k)]

theorem ofCell_le_joined {cells : List Cell} {c : Cell} (h : c ∈ cells) : ofCell c ≤ joined cells :=
  joined_le_iff.1 le_rfl c h

/-! ## Cells below a kind -/

theorem ofCell_le_null {c : Cell} : ofCell c ≤ .null ↔ c = .null := by
  cases c <;> simp

theorem ofCell_le_boolean {c : Cell} : ofCell c ≤ .boolean ↔ c = .null ∨ ∃ b, c = .bool b := by
  cases c <;> simp

theorem ofCell_le_int64 {c : Cell} : ofCell c ≤ .int64 ↔ c = .null ∨ ∃ n, c = .int n := by
  cases c <;> simp

theorem ofCell_le_float64 {c : Cell} :
    ofCell c ≤ .float64 ↔ c = .null ∨ (∃ n, c = .int n) ∨ ∃ x, c = .float x := by
  cases c <;> simp

end ColumnKind

end DataClient
