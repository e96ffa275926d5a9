import DataClient.Proofs.Outcome
import DataClient.Proofs.Table.Parts
import DataClient.Proofs.Table.Transposition
import DataClient.Table.Columnar

/-!
# When a payload has a table

A payload has a table exactly if each step of its conversion has a result: it is read, its batches
are turned into rows, and the rows fit the columns. Conversion keeps the number of rows.
-/

set_option autoImplicit false

namespace DataClient.Columnar

open Outcome Arrow

/-- Columns are turned into as many rows as they hold cells, and rows that storage was claimed
for. -/
theorem length_of_transpose [Allocator] {columns : List Column} {n : Nat}
    {values : List (List Cell)}
    {rows : List Row} (h : transpose columns n values = .ok rows) :
    rows.length = n ∧ HasRoom rowBytes n := by
  unfold transpose at h
  split at h
  · cases h
  · split at h
    · cases h
    · unfold reserve at h
      split at h
      · injection h with h
        exact ⟨h ▸ length_rowsOf n values, ‹_›⟩
      · cases h

@[simp] theorem ofResult_eq_pure {α : Type} {r : Except DecodeError α} {a : α} :
    ofResult r = pure a ↔ r = .ok a := by
  constructor
  · intro h
    injection h
  · rintro rfl
    rfl

theorem length_of_batchRows [Allocator] {columns : List Column} {batch : Batch} {rows : List Row}
    (h : batchRows columns batch = pure rows) :
    rows.length = batch.rowCount ∧ HasRoom rowBytes batch.rowCount := by
  unfold batchRows at h
  split at h
  · injection h with h
    cases h
  · obtain ⟨values, _, h⟩ := bind_eq_pure.1 h
    exact length_of_transpose (ofResult_eq_pure.1 h)

theorem allRows_cons_eq_pure [Allocator] {columns : List Column} {batch : Batch}
    {batches : List Batch}
    {rows : List Row} :
    allRows columns (batch :: batches) = pure rows ↔
      ∃ first rest, batchRows columns batch = pure first ∧ allRows columns batches = pure rest ∧
        rows = first ++ rest := by
  constructor
  · intro h
    obtain ⟨first, hfirst, h⟩ := bind_eq_pure.1 h
    obtain ⟨rest, hrest, h⟩ := bind_eq_pure.1 h
    exact ⟨first, rest, hfirst, hrest, (pure_inj.1 h).symm⟩
  · rintro ⟨first, rest, hfirst, hrest, rfl⟩
    exact bind_eq_pure.2 ⟨first, hfirst, bind_eq_pure.2 ⟨rest, hrest, rfl⟩⟩

theorem rows_ofParts {columns : List Column} {rows : List Row} {t : Table}
    (h : Table.ofParts columns rows = .ok t) : t.rows = rows :=
  (Table.ofParts_eq_ok.1 h).2

theorem tableOf_eq_pure [Allocator] {p : Payload} {t : Table} :
    tableOf p = pure t ↔
      ∃ rows, allRows (p.schema.map column) p.batches = pure rows ∧
        Table.ofParts (p.schema.map column) rows = .ok t := by
  simp [tableOf, bind_eq_pure]

@[simp] theorem adapt_eq_pure {α : Type} {x : Checked α} {a : α} :
    (ExceptT.adapt DecodeError.arrow x : Conversion α) = pure a ↔ x = pure a := by
  constructor
  · intro h
    match x, h with
    | .error c, h => cases h
    | .ok (.error e), h => cases h
    | .ok (.ok a), h => cases h; rfl
  · rintro rfl
    rfl

theorem decode_eq_pure [Allocator] {b : ByteArray} {t : Table} :
    decode b = pure t ↔
      ¬ b.isEmpty = true ∧ ∃ p, readPayload b = pure p ∧ tableOf p = pure t := by
  unfold decode
  split
  · rename_i hempty
    refine ⟨fun h => ?_, fun h => absurd hempty h.1⟩
    injection h with h
    cases h
  · rename_i hne
    simp [bind_eq_pure, hne]

end DataClient.Columnar
