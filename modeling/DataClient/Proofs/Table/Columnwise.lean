import DataClient.Proofs.Arrow.Typed
import DataClient.Proofs.Table.RowMajor

/-!
# A payload column by column

Each column of each batch is converted on its own. What holds of the cells of every column holds of
the cells of the table (`aligned_of_columns`), and a fault of a value is that of the first column that
has one, if conversion gets as far as that (`decode_eq_value_iff`).
-/

set_option autoImplicit false

namespace DataClient.Columnar

open Outcome Arrow

/-- The conversions of a batch go along the schema. -/
theorem batchConversions_eq [Allocator] (schema : Schema) (batch : Batch) :
    batchConversions (schema.map column) batch
      = (schema.zip batch.columns).map fun q => cellsOf q.1.info.name q.2 := by
  rw [batchConversions, List.zipWith_map_left, List.map_zip_eq_zipWith]
  rfl

/-- A batch of a schema has a field for each column. -/
theorem exists_mem_zip {schema : Schema} {batch : Batch} (hof : batch.Of schema) {v : Vector}
    (hv : v ∈ batch.columns) : ∃ f, (f, v) ∈ schema.zip batch.columns := by
  obtain ⟨j, hj, rfl⟩ := List.mem_iff_getElem.1 hv
  have hlength := hof.columns
  refine ⟨schema[j], List.mem_iff_getElem.2 ⟨j, ?_, ?_⟩⟩
  · rw [List.length_zip]
    omega
  · rw [List.getElem_zip]

/-- The columns that are read are of the types of their fields, and all of their slots are there. -/
theorem ofType_of_mem_zip {b : ByteArray} {p : Payload} (hp : readPayload b = pure p) {batch : Batch}
    (hbatch : batch ∈ p.batches) {q : Field × Vector} (hq : q ∈ p.schema.zip batch.columns) :
    q.2.OfType q.1.type ∧ q.2.Sound :=
  ⟨(List.forall₂_iff_zip.1 (readPayload_typed hp batch hbatch)).2 hq,
    readPayload_sound hp batch hbatch _ (List.of_mem_zip hq).2⟩

/-! ## Cells -/

section Rows

variable [Allocator]

/-- Where a payload has rows, every column has cells. -/
theorem exists_cells_of_allRows {schema : Schema} {batches : List Batch} {rows : List Row}
    (hof : ∀ batch ∈ batches, batch.Of schema) (h : allRows (schema.map column) batches = pure rows)
    {batch : Batch} (hbatch : batch ∈ batches) {q : Field × Vector}
    (hq : q ∈ schema.zip batch.columns) : ∃ cs, cellsOf q.1.info.name q.2 = pure cs := by
  have hnone : stop? (allRows (schema.map column) batches) = none := stop?_eq_none.2 ⟨rows, h⟩
  rw [stop?_allRows, List.findSome?_eq_none_iff] at hnone
  have hnone := hnone batch hbatch
  rw [stop?_batchRows (hof batch hbatch), Option.or_eq_none_iff, batchConversions_eq,
    List.findSome?_eq_none_iff] at hnone
  exact stop?_eq_none.1 (hnone.1 _ (List.mem_map_of_mem hq))

/-- **What holds of the cells of every column holds of the table.** -/
theorem aligned_of_columns {b : ByteArray} {p : Payload} (hp : readPayload b = pure p)
    {S : Vector → Nat → Cell → Prop}
    (h : ∀ batch ∈ p.batches, ∀ q ∈ p.schema.zip batch.columns, ∀ cs,
      cellsOf q.1.info.name q.2 = pure cs → ∀ k c, cs[k]? = some c → S q.2 k c)
    {t : Table} (ht : decode b = pure t) : Aligned S p.batches t.rows := by
  have hof := readPayload_batches hp
  rw [decode_of_readPayload hp] at ht
  obtain ⟨rows, hrows, ht⟩ := tableOf_eq_pure.1 ht
  obtain rfl := rows_ofParts ht
  refine (aligned_of_allRows hof hrows).imp_of_mem fun batch hbatch v hv k hk c hc => ?_
  obtain ⟨f, hq⟩ := exists_mem_zip (hof batch hbatch) hv
  obtain ⟨cs, hcs⟩ := exists_cells_of_allRows hof hrows hbatch hq
  have hslots := slotwise_of_cellsOf hcs
  have hlength : k < cs.length := by
    rw [hslots.length, (hof batch hbatch).slots v hv]
    exact hk
  have hcell := List.getElem?_eq_getElem hlength
  have hsame := (hslots.cell k _ hcell).symm.trans hc
  injection hsame with hsame
  rw [hsame] at hcell
  exact h batch hbatch _ hq cs hcs k c hcell

theorem converts_iff_forall {p : Payload} :
    Converts p ↔ ∀ batch ∈ p.batches, ∀ q ∈ p.schema.zip batch.columns,
      ∃ cs, cellsOf q.1.info.name q.2 = pure cs := by
  simp only [Converts, conversions, List.mem_flatMap, batchConversions_eq, List.mem_map]
  constructor
  · exact fun h batch hbatch q hq => h _ ⟨batch, hbatch, q, hq, rfl⟩
  · rintro h _ ⟨batch, hbatch, q, hq, rfl⟩
    exact h batch hbatch q hq

/-- A payload with room for its rows has a table if all columns have cells and the names differ. -/
theorem exists_decode_iff {b : ByteArray} {p : Payload} (hp : readPayload b = pure p)
    (hroom : Roomy p) :
    (∃ t, decode b = pure t) ↔ Converts p ∧ (p.schema.map (·.info.name)).Nodup := by
  rw [decode_of_readPayload hp, ← stop?_eq_none, stop?_tableOf (readPayload_batches hp) hroom,
    Option.or_eq_none_iff, ← converts_iff, Option.map_eq_none_iff, Table.firstRepeated?_eq_none]
  simp

/-! ## Faults -/

/-- Conversion gets as far as a column: all batches before that of the column have rows, and all
columns before it have cells. -/
def Reached (p : Payload) (q : Field × Vector) : Prop :=
  ∃ earlier batch later before after, p.batches = earlier ++ batch :: later ∧
    p.schema.zip batch.columns = before ++ q :: after ∧
    (∃ rows, allRows (p.schema.map column) earlier = pure rows) ∧
    ∀ q' ∈ before, ∃ cs, cellsOf q'.1.info.name q'.2 = pure cs

theorem Reached.exists_batch {p : Payload} {q : Field × Vector} (h : Reached p q) :
    ∃ batch ∈ p.batches, q ∈ p.schema.zip batch.columns := by
  obtain ⟨earlier, batch, later, before, after, hbatches, hcolumns, -, -⟩ := h
  exact ⟨batch, by simp [hbatches], by simp [hcolumns]⟩

theorem stop?_reserve_ne_value (size count : Nat) (name : String) (fault : ColumnFault) :
    stop? (ofResult (reserve size count)) ≠ some (.inl (.value name fault)) := by
  rw [stop?_reserve]
  split <;> simp

/-- **A fault of a value is that of a column that conversion gets to.** -/
theorem decode_eq_value_iff {b : ByteArray} {p : Payload} (hp : readPayload b = pure p)
    {name : String} {fault : ColumnFault} :
    decode b = fail (.value name fault) ↔
      ∃ q, Reached p q ∧ cellsOf q.1.info.name q.2 = fail (.value name fault) := by
  have hof := readPayload_batches hp
  -- The names of the columns are looked at last, and a repeated one is no fault of a value.
  have hrows : stop? (tableOf p) = some (.inl (.value name fault)) ↔
      stop? (allRows (p.schema.map column) p.batches) = some (.inl (.value name fault)) := by
    rw [stop?_tableOf_rows hof, Option.or_eq_some_iff]
    simp
  rw [decode_of_readPayload hp, ← stop?_eq_inl, hrows, stop?_allRows, List.findSome?_eq_some_iff]
  constructor
  · rintro ⟨earlier, batch, later, hbatches, hstop, hearlier⟩
    have hbatch : batch ∈ p.batches := by simp [hbatches]
    rw [stop?_batchRows (hof batch hbatch), Option.or_eq_some_iff, batchConversions_eq,
      List.findSome?_map] at hstop
    rcases hstop with hstop | ⟨-, hstop⟩
    · obtain ⟨before, q, after, hcolumns, hq, hbefore⟩ := List.findSome?_eq_some_iff.1 hstop
      refine ⟨q, ⟨earlier, batch, later, before, after, hbatches, hcolumns, ?_, fun q' hq' => ?_⟩,
        stop?_eq_inl.1 hq⟩
      · rw [← stop?_eq_none, stop?_allRows, List.findSome?_eq_none_iff]
        exact hearlier
      · exact stop?_eq_none.1 (hbefore q' hq')
    · exact absurd hstop (stop?_reserve_ne_value _ _ _ _)
  · rintro ⟨q, ⟨earlier, batch, later, before, after, hbatches, hcolumns, hearlier, hbefore⟩, hq⟩
    have hbatch : batch ∈ p.batches := by simp [hbatches]
    refine ⟨earlier, batch, later, hbatches, ?_, ?_⟩
    · rw [stop?_batchRows (hof batch hbatch), Option.or_eq_some_iff, batchConversions_eq,
        List.findSome?_map]
      exact .inl (List.findSome?_eq_some_iff.2 ⟨before, q, after, hcolumns, stop?_eq_inl.2 hq,
        fun q' hq' => stop?_eq_none.2 (hbefore q' hq')⟩)
    · rw [← stop?_eq_none, stop?_allRows, List.findSome?_eq_none_iff] at hearlier
      exact hearlier

end Rows

/-! ## Payloads of one column -/

/-- A batch of one column of two slots of eight bytes, one of which holds no value. -/
def pairBatchFrame (validity : UInt8) (slots : List UInt8) : List UInt8 :=
  [255, 255, 255, 255, 128, 0, 0, 0, 16, 0, 0, 0, 12, 0, 26, 0, 24, 0, 23, 0,
   4, 0, 8, 0, 12, 0, 0, 0, 32, 0, 0, 0, 24, 0, 0, 0, 0, 0, 0, 0,
   0, 0, 0, 0, 0, 0, 0, 3, 4, 0, 10, 0, 20, 0, 12, 0, 8, 0, 4, 0,
   10, 0, 0, 0, 36, 0, 0, 0, 12, 0, 0, 0, 2, 0, 0, 0, 0, 0, 0, 0,
   1, 0, 0, 0, 2, 0, 0, 0, 0, 0, 0, 0, 1, 0, 0, 0, 0, 0, 0, 0,
   2, 0, 0, 0, 0, 0, 0, 0, 0, 0, 0, 0, 1, 0, 0, 0, 0, 0, 0, 0,
   8, 0, 0, 0, 0, 0, 0, 0, 16, 0, 0, 0, 0, 0, 0, 0, validity, 0, 0, 0,
   0, 0, 0, 0] ++ slots ++ [255, 255, 255, 255, 0, 0, 0, 0]

end DataClient.Columnar
