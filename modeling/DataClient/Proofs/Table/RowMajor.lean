import DataClient.Proofs.Arrow.Batches
import DataClient.Proofs.Table.Columnar
import DataClient.Proofs.Table.Slots
import DataClient.Proofs.Table.Transposition

/-!
# A payload row by row

A payload that has been read is turned into a table batch by batch, column by column and slot by
slot. The traversals compose: the rows of the table are those of the batches in order, and each cell
of a row is that of the slot in the same place (`Aligned`). All or nothing: the conversion stops
where the first column does that has no cells (`stop?_tableOf`), and only when every column has some
are the names of the columns looked at.
-/

set_option autoImplicit false

namespace DataClient.Columnar

open Outcome Arrow

/-! ## Batches and rows -/

/-- The rows hold a cell for each slot of the batch: cell `j` of row `k` is related to slot `k` of
column `j`. -/
structure Holds (R : Vector → Nat → Cell → Prop) (batch : Batch) (rows : List Row) : Prop where
  length : rows.length = batch.rowCount
  cells : ∀ k row, rows[k]? = some row → List.Forall₂ (fun v c => R v k c) batch.columns row

/-- The rows are those of the batches, one batch behind the other. -/
inductive Aligned (R : Vector → Nat → Cell → Prop) : List Batch → List Row → Prop
  | nil : Aligned R [] []
  | cons {batch : Batch} {batches : List Batch} {first rest : List Row}
    (head : Holds R batch first) (tail : Aligned R batches rest) :
    Aligned R (batch :: batches) (first ++ rest)

/-- What follows of the cells of each slot follows of all rows. -/
theorem Aligned.imp_of_mem {R S : Vector → Nat → Cell → Prop} {batches : List Batch}
    {rows : List Row} (ha : Aligned R batches rows)
    (h : ∀ batch ∈ batches, ∀ v ∈ batch.columns, ∀ k < batch.rowCount, ∀ c, R v k c → S v k c) :
    Aligned S batches rows := by
  induction ha with
  | nil => exact .nil
  | cons head _ ih =>
    rw [List.forall_mem_cons] at h
    refine .cons ⟨head.length, fun k row hrow => ?_⟩ (ih h.2)
    have hk := (List.getElem?_eq_some_iff.1 hrow).1
    rw [head.length] at hk
    have hcells := List.forall₂_iff_zip.1 (head.cells k row hrow)
    exact List.forall₂_iff_zip.2 ⟨hcells.1, fun hmem =>
      h.1 _ (List.of_mem_zip hmem).1 k hk _ (hcells.2 hmem)⟩

theorem Aligned.imp {R S : Vector → Nat → Cell → Prop} (h : ∀ v k c, R v k c → S v k c)
    {batches : List Batch} {rows : List Row} (ha : Aligned R batches rows) :
    Aligned S batches rows :=
  ha.imp_of_mem fun _ _ v _ k _ c => h v k c

theorem aligned_singleton {R : Vector → Nat → Cell → Prop} {batch : Batch} {rows : List Row} :
    Aligned R [batch] rows ↔ Holds R batch rows := by
  constructor
  · intro h
    cases h with
    | cons head tail =>
      cases tail
      rwa [List.append_nil]
  · intro h
    have := Aligned.cons h .nil
    rwa [List.append_nil] at this

/-- The rows of aligned batches are as wide as these. -/
theorem Aligned.width {R : Vector → Nat → Cell → Prop} {batches : List Batch} {rows : List Row}
    (h : Aligned R batches rows) {n : Nat} (hn : ∀ batch ∈ batches, batch.columns.length = n) :
    ∀ row ∈ rows, row.length = n := by
  induction h with
  | nil => simp
  | @cons batch batches first rest head _ ih =>
    intro row hrow
    rcases List.mem_append.1 hrow with hrow | hrow
    · obtain ⟨k, hk⟩ := List.mem_iff_getElem?.1 hrow
      rw [← (head.cells k row hk).length_eq]
      exact hn batch (by simp)
    · exact ih (fun b hb => hn b (by simp [hb])) row hrow

/-- Rows are the only ones if a slot has one cell at most. -/
theorem Holds.unique {R : Vector → Nat → Cell → Prop} (hR : ∀ v k c d, R v k c → R v k d → c = d)
    {batch : Batch} {rows rows' : List Row} (h : Holds R batch rows) (h' : Holds R batch rows') :
    rows = rows' := by
  refine List.ext_getElem (h.length.trans h'.length.symm) fun k hk hk' => ?_
  have hcells := h.cells k _ (List.getElem?_eq_getElem hk)
  have hcells' := h'.cells k _ (List.getElem?_eq_getElem hk')
  generalize rows[k] = row at hcells
  generalize rows'[k] = row' at hcells'
  generalize batch.columns = vs at hcells hcells'
  induction hcells generalizing row' with
  | nil =>
    cases hcells'
    rfl
  | cons hc _ ih =>
    cases hcells' with
    | cons hc' hrest' => rw [hR _ _ _ _ hc hc', ih _ hrest']

theorem Aligned.unique {R : Vector → Nat → Cell → Prop}
    (hR : ∀ v k c d, R v k c → R v k d → c = d) {batches : List Batch} {rows rows' : List Row}
    (h : Aligned R batches rows) (h' : Aligned R batches rows') : rows = rows' := by
  induction h generalizing rows' with
  | nil =>
    cases h'
    rfl
  | cons head _ ih =>
    cases h' with
    | cons head' tail' => rw [head.unique hR head', ih tail']

theorem slotwise_of_batchCells [Allocator] {columns : List Column} {vs : List Vector}
    {values : List (List Cell)}
    (hlen : vs.length = columns.length) (h : batchCells columns vs = pure values) :
    List.Forall₂ Vector.Slotwise vs values := by
  induction columns generalizing vs values with
  | nil =>
    obtain rfl : vs = [] := List.length_eq_zero_iff.1 hlen
    rw [← pure_inj.1 h]
    exact .nil
  | cons c cs ih =>
    cases vs with
    | nil => simp at hlen
    | cons v vs =>
      obtain ⟨cells, hcells, h⟩ := bind_eq_pure.1 h
      obtain ⟨rest, hrest, h⟩ := bind_eq_pure.1 h
      rw [← pure_inj.1 h]
      exact .cons (slotwise_of_cellsOf hcells) (ih (by simpa using hlen) hrest)

/-- A slot of a converted column and its place in a row. -/
theorem forall₂_cellAt {vs : List Vector} {values : List (List Cell)} {row : Row} {k : Nat}
    (hslots : List.Forall₂ Vector.Slotwise vs values)
    (hrow : List.Forall₂ (fun cs c => cs[k]? = some c) values row) :
    List.Forall₂ (fun v c => v.cellAt k = .ok c) vs row := by
  induction hslots generalizing row with
  | nil =>
    cases hrow
    exact .nil
  | cons hv _ ih =>
    cases hrow with
    | cons hc hrow => exact .cons (hv.cell k _ hc) (ih hrow)

section Batch

variable {schema : Schema} {batch : Batch} (hof : batch.Of schema)

include hof

theorem length_of_batchCells [Allocator] {values : List (List Cell)}
    (h : batchCells (schema.map column) batch.columns = pure values) :
    values.length = (schema.map column).length ∧ ∀ cs ∈ values, cs.length = batch.rowCount := by
  have hslots := slotwise_of_batchCells (by simpa using hof.columns) h
  refine ⟨by simpa [← hslots.length_eq] using hof.columns, fun cs hcs => ?_⟩
  obtain ⟨j, hj, rfl⟩ := List.mem_iff_getElem.1 hcs
  have hv : j < batch.columns.length := by simpa [hslots.length_eq] using hj
  have hslot : Vector.Slotwise batch.columns[j] values[j] := hslots.get hv hj
  rw [hslot.length]
  exact hof.slots _ (List.getElem_mem hv)

/-- **The rows of a batch hold the cells of its slots.** -/
theorem holds_of_batchRows [Allocator] {rows : List Row}
    (h : batchRows (schema.map column) batch = pure rows) :
    Holds (fun v k c => v.cellAt k = .ok c) batch rows := by
  unfold batchRows at h
  rw [if_neg (by simpa using hof.columns)] at h
  obtain ⟨values, hvalues, h⟩ := bind_eq_pure.1 h
  obtain ⟨hcount, heven⟩ := length_of_batchCells hof hvalues
  have hslots := slotwise_of_batchCells (by simpa using hof.columns) hvalues
  rw [ofResult_eq_pure, transpose_of_even hcount heven] at h
  split at h
  · cases h
    refine ⟨length_rowsOf _ _, fun k row hrow => ?_⟩
    have hrow := getElem?_rowsOf (fun cs hcs => Nat.le_of_eq (heven cs hcs).symm) hrow
    exact forall₂_cellAt hslots hrow
  · cases h

end Batch

/-- **The rows of a payload are those of its batches.** The induction is on the batches. -/
theorem aligned_of_allRows [Allocator] {schema : Schema} {batches : List Batch}
    (hof : ∀ batch ∈ batches, batch.Of schema) {rows : List Row}
    (h : allRows (schema.map column) batches = pure rows) :
    Aligned (fun v k c => v.cellAt k = .ok c) batches rows := by
  induction batches generalizing rows with
  | nil =>
    rw [← pure_inj.1 h]
    exact .nil
  | cons batch batches ih =>
    obtain ⟨first, rest, hfirst, hrest, rfl⟩ := allRows_cons_eq_pure.1 h
    exact .cons (holds_of_batchRows (hof batch (by simp)) hfirst)
      (ih (fun b hb => hof b (by simp [hb])) hrest)

/-! ## Where conversion stops -/

/-- Names that are repeated are all that can be wrong with rows as wide as the columns. -/
theorem stop?_ofParts {columns : List Column} {rows : List Row}
    (h : ∀ row ∈ rows, row.length = columns.length) :
    stop? (ofResult (Table.ofParts columns rows))
      = (Table.firstRepeated? [] (columns.map (·.name))).map fun name =>
          .inl (.duplicateColumn name) := by
  have hwide : rows.find? (fun row => row.length != columns.length) = none := by
    rw [List.find?_eq_none]
    intro row hrow
    simp [h row hrow]
  unfold Table.ofParts
  split
  · rename_i name hname
    rw [hname]
    rfl
  · rename_i hname
    split
    · rename_i row hrow
      rw [hwide] at hrow
      cases hrow
    · simp only [hname, Option.map_none]
      rfl

theorem stop?_eq_inl {α : Type} {x : Conversion α} {e : DecodeError} :
    stop? x = some (.inl e) ↔ x = fail e := by
  constructor
  · intro h
    match x, h with
    | .ok (.error e), h => cases h; rfl
  · rintro rfl
    rfl

theorem stop?_eq_inr {α : Type} {x : Conversion α} {c : Crash} :
    stop? x = some (.inr c) ↔ x = ofAttempt (.error c) := by
  constructor
  · intro h
    match x, h with
    | .error c, h => cases h; rfl
  · rintro rfl
    rfl

section Stops

variable [Allocator]

/-- The conversions of the columns of a batch. -/
def batchConversions (columns : List Column) (batch : Batch) : List (Conversion (List Cell)) :=
  List.zipWith (fun c v => cellsOf c.name v) columns batch.columns

/-- The conversions of all columns of a payload, batch by batch. -/
def conversions (p : Payload) : List (Conversion (List Cell)) :=
  p.batches.flatMap (batchConversions (p.schema.map column))

/-- All columns have cells. -/
def Converts (p : Payload) : Prop := ∀ x ∈ conversions p, ∃ cs, x = pure cs

/-- There is room for as many rows as each batch declares. -/
def Roomy (p : Payload) : Prop := ∀ batch ∈ p.batches, HasRoom rowBytes batch.rowCount

instance (p : Payload) : Decidable (Roomy p) :=
  inferInstanceAs (Decidable (∀ batch ∈ p.batches, HasRoom rowBytes batch.rowCount))

theorem stop?_batchCells (columns : List Column) (vs : List Vector) :
    stop? (batchCells columns vs)
      = (List.zipWith (fun c v => cellsOf c.name v) columns vs).findSome? stop? := by
  induction columns generalizing vs with
  | nil => cases vs <;> rfl
  | cons c cs ih =>
    cases vs with
    | nil => rfl
    | cons v vs =>
      have hrest : ∀ cells : List Cell,
          stop? (do return cells :: (← batchCells cs vs)) = stop? (batchCells cs vs) := by
        intro cells
        rw [stop?_bind fun _ _ => stop?_pure _, Option.or_none]
      rw [batchCells, stop?_bind fun cells _ => hrest cells, ih]
      cases h : stop? (cellsOf c.name v) <;> simp [h]

theorem stop?_reserve (size count : Nat) :
    stop? (ofResult (reserve size count))
      = if HasRoom size count then none else some (.inl (.tooLarge count)) := by
  unfold reserve
  split <;> rfl

/-- A batch stops at its first column without cells, and else for want of room. -/
theorem stop?_batchRows {schema : Schema} {batch : Batch} (hof : batch.Of schema) :
    stop? (batchRows (schema.map column) batch)
      = ((batchConversions (schema.map column) batch).findSome? stop?).or
        (stop? (ofResult (reserve rowBytes batch.rowCount))) := by
  have hcolumns : ¬ batch.columns.length ≠ (schema.map column).length := by simpa using hof.columns
  -- Columns that have been converted are as long as the batch, so transposing them cannot fail.
  have hrows : ∀ values, batchCells (schema.map column) batch.columns = pure values →
      stop? (ofResult (transpose (schema.map column) batch.rowCount values))
        = stop? (ofResult (reserve rowBytes batch.rowCount)) := by
    intro values hvalues
    obtain ⟨hcount, heven⟩ := length_of_batchCells hof hvalues
    rw [transpose_of_even hcount heven, reserve]
    split <;> rfl
  rw [batchRows, if_neg hcolumns, stop?_bind hrows, stop?_batchCells]
  rfl

theorem stop?_allRows (columns : List Column) (batches : List Batch) :
    stop? (allRows columns batches)
      = batches.findSome? fun batch => stop? (batchRows columns batch) := by
  induction batches with
  | nil => rfl
  | cons batch batches ih =>
    have hrest : ∀ rows : List Row,
        stop? (do return rows ++ (← allRows columns batches)) = stop? (allRows columns batches) := by
      intro rows
      rw [stop?_bind fun _ _ => stop?_pure _, Option.or_none]
    rw [allRows, stop?_bind fun rows _ => hrest rows, ih]
    cases h : stop? (batchRows columns batch) <;> simp [h]

/-- Where there is room for all rows, only columns stop. -/
theorem stop?_allRows_of_roomy {schema : Schema} {batches : List Batch}
    (hof : ∀ batch ∈ batches, batch.Of schema)
    (hroom : ∀ batch ∈ batches, HasRoom rowBytes batch.rowCount) :
    stop? (allRows (schema.map column) batches)
      = (batches.flatMap (batchConversions (schema.map column))).findSome? stop? := by
  rw [stop?_allRows]
  induction batches with
  | nil => rfl
  | cons batch batches ih =>
    rw [List.forall_mem_cons] at hof hroom
    have hbatch : stop? (batchRows (schema.map column) batch)
        = (batchConversions (schema.map column) batch).findSome? stop? := by
      rw [stop?_batchRows hof.1, stop?_reserve, if_pos hroom.1, Option.or_none]
    rw [List.flatMap_cons, List.findSome?_append, ← ih hof.2 hroom.2, ← hbatch]
    cases h : stop? (batchRows (schema.map column) batch) <;> simp [h]

/-- A payload stops where its rows do, and else at a repeated name. -/
theorem stop?_tableOf_rows {p : Payload} (hof : ∀ batch ∈ p.batches, batch.Of p.schema) :
    stop? (tableOf p) = (stop? (allRows (p.schema.map column) p.batches)).or
      ((Table.firstRepeated? [] (p.schema.map (·.info.name))).map fun name =>
        .inl (.duplicateColumn name)) := by
  have hnames : (p.schema.map column).map (·.name) = p.schema.map (·.info.name) := by
    simp [column, Function.comp_def]
  -- Rows of the batches are as wide as the schema, which leaves the names.
  have hparts : ∀ rows, allRows (p.schema.map column) p.batches = pure rows →
      stop? (ofResult (Table.ofParts (p.schema.map column) rows))
        = (Table.firstRepeated? [] (p.schema.map (·.info.name))).map fun name =>
            .inl (.duplicateColumn name) := by
    intro rows hrows
    have hwidth := (aligned_of_allRows hof hrows).width fun batch hbatch =>
      (hof batch hbatch).columns
    rw [stop?_ofParts (by simpa using hwidth), hnames]
  exact stop?_bind hparts

/-- **Conversion stops at the first column without cells, and else at a repeated name.** -/
theorem stop?_tableOf {p : Payload} (hof : ∀ batch ∈ p.batches, batch.Of p.schema)
    (hroom : Roomy p) :
    stop? (tableOf p) = ((conversions p).findSome? stop?).or
      ((Table.firstRepeated? [] (p.schema.map (·.info.name))).map fun name =>
        .inl (.duplicateColumn name)) := by
  rw [stop?_tableOf_rows hof, stop?_allRows_of_roomy hof hroom]
  rfl

/-- The first column without cells stops for the reason `s`. -/
def StopsFor (p : Payload) (s : DecodeError ⊕ Crash) : Prop :=
  ∃ before x after, conversions p = before ++ x :: after ∧ stop? x = some s ∧
    ∀ y ∈ before, ∃ cs, y = pure cs

theorem converts_iff {p : Payload} : Converts p ↔ (conversions p).findSome? stop? = none := by
  simp [Converts, List.findSome?_eq_none_iff, stop?_eq_none]

theorem stopsFor_iff {p : Payload} {s : DecodeError ⊕ Crash} :
    StopsFor p s ↔ (conversions p).findSome? stop? = some s := by
  simp [StopsFor, List.findSome?_eq_some_iff, stop?_eq_none]

/-! ## Errors of columns -/

theorem stop?_shown {name : String} {v : Vector} {e : DecodeError}
    (h : stop? (shown name v) = some (.inl e)) :
    (∃ zone, e = .value name (.namedZone zone)) ∨ e = .tooLarge v.length := by
  unfold shown at h
  split at h
  · cases h
    exact .inl ⟨_, rfl⟩
  · unfold reserve at h
    split at h
    · -- Room has been claimed, and showing the slots has no errors but crashes.
      cases hm : (List.range v.length).mapM (shownCell v) <;>
        simp only [hm] at h <;> cases h
    · cases h
      exact .inr rfl

/-- The error of a column names it, or says that there is no room for its cells. Numbers are at fault
only in columns of integers. -/
theorem stop?_cellsOf {name : String} {v : Vector} {e : DecodeError}
    (h : stop? (cellsOf name v) = some (.inl e)) :
    (∃ signed w n, v.type = .int signed w ∧ e = .value name (.uncastable n)) ∨
      (∃ zone, e = .value name (.namedZone zone)) ∨ e = .tooLarge v.length := by
  cases v with
  | null length =>
    simp only [cellsOf, reserve] at h
    split at h
    · cases h
    · cases h
      exact .inr (.inr rfl)
  | boolean | runsOfBytes | views => cases h
  | fixed type shape width data =>
    cases type with
    | int signed w =>
      simp only [cellsOf, fixedCells] at h
      split at h
      · cases h
        exact .inl ⟨_, _, _, rfl, rfl⟩
      · cases h
    | fixedSizeBinary size =>
      cases hcollect : collect shape.length <;>
        simp only [cellsOf, fixedCells, Vector.length, hcollect] at h <;> cases h
    | float16 | float32 | float64 | timestamp | date32 | date64 => cases h
    | _ => exact .inr (stop?_shown h)
  | list | fixedList | struct | map | union | runs | dictionary => exact .inr (stop?_shown h)

theorem mem_conversions {p : Payload} {x : Conversion (List Cell)} (h : x ∈ conversions p) :
    ∃ f ∈ p.schema, ∃ batch ∈ p.batches, ∃ v ∈ batch.columns, x = cellsOf f.info.name v := by
  obtain ⟨batch, hbatch, hx⟩ := List.mem_flatMap.1 h
  obtain ⟨k, hk, rfl⟩ := List.mem_iff_getElem.1 hx
  simp only [batchConversions, List.length_zipWith, List.length_map, Nat.lt_min] at hk
  refine ⟨p.schema[k], by simp, batch, hbatch, batch.columns[k], by simp, ?_⟩
  simp [batchConversions, column]

/-- The error of the first column without cells: a fault of a value of that column, or no room for as
many cells as its batch has rows. -/
theorem StopsFor.error {p : Payload} (hof : ∀ batch ∈ p.batches, batch.Of p.schema)
    {e : DecodeError} (h : StopsFor p (.inl e)) :
    (∃ f ∈ p.schema, ∃ fault, e = .value f.info.name fault) ∨
      ∃ batch ∈ p.batches, e = .tooLarge batch.rowCount := by
  obtain ⟨before, x, after, hx, hstop, -⟩ := h
  obtain ⟨f, hf, batch, hbatch, v, hv, rfl⟩ :=
    mem_conversions (hx ▸ List.mem_append_right before List.mem_cons_self)
  rcases stop?_cellsOf hstop with ⟨_, _, _, -, rfl⟩ | ⟨_, rfl⟩ | rfl
  · exact .inl ⟨f, hf, _, rfl⟩
  · exact .inl ⟨f, hf, _, rfl⟩
  · exact .inr ⟨batch, hbatch, by rw [(hof batch hbatch).slots v hv]⟩

/-! ## All or nothing -/

theorem decode_of_readPayload {b : ByteArray} {p : Payload} (h : readPayload b = pure p) :
    decode b = tableOf p := by
  have hne : ¬ b.isEmpty = true := by
    intro hempty
    have := size_pos_of_readPayload h
    rw [ByteArray.isEmpty, beq_iff_eq] at hempty
    omega
  rw [decode, if_neg hne, h]
  rfl

/-- What is read has a table exactly if all columns have cells and their names differ, and the rows
are those of the slots. -/
theorem tableOf_eq_pure_iff_aligned {p : Payload} (hof : ∀ batch ∈ p.batches, batch.Of p.schema)
    (hroom : Roomy p) {t : Table} :
    tableOf p = pure t ↔ Converts p ∧ t.columns = p.schema.map column ∧
      Aligned (fun v k c => v.cellAt k = .ok c) p.batches t.rows := by
  have hconverts : Converts p ↔ ∃ rows, allRows (p.schema.map column) p.batches = pure rows := by
    rw [converts_iff, ← stop?_eq_none, stop?_allRows_of_roomy hof hroom]
    rfl
  rw [tableOf_eq_pure]
  constructor
  · rintro ⟨rows, hrows, ht⟩
    obtain ⟨hcolumns, rfl⟩ := Table.ofParts_eq_ok.1 ht
    exact ⟨hconverts.2 ⟨_, hrows⟩, hcolumns, aligned_of_allRows hof hrows⟩
  · rintro ⟨h, hcolumns, hrows⟩
    obtain ⟨rows, hall⟩ := hconverts.1 h
    have hsame : rows = t.rows := (aligned_of_allRows hof hall).unique
      (fun v k c d hc hd => by rw [hc] at hd; injection hd) hrows
    exact ⟨rows, hall, Table.ofParts_eq_ok.2 ⟨hcolumns, hsame.symm⟩⟩

end Stops

/-- **A payload that has been read is transcribed row by row, or not at all.** It has a table exactly
if every column of every batch has cells and the names of the columns differ; the rows are then those
of the batches in order, with the cell of slot `k` of column `j` in place `j` of row `k`. Otherwise
the outcome is that of the first column without cells, which is an error of that column or a crash,
and a repeated name is looked for only if there is no such column. -/
theorem decode_rowMajor [Allocator] {b : ByteArray} {p : Payload} (hp : readPayload b = pure p)
    (hroom : Roomy p) :
    (∀ t, decode b = pure t ↔ Converts p ∧ t.columns = p.schema.map column ∧
      Aligned (fun v k c => v.cellAt k = .ok c) p.batches t.rows) ∧
    ((∃ t, decode b = pure t) ↔ Converts p ∧ (p.schema.map (·.info.name)).Nodup) ∧
    (∀ e, decode b = fail e ↔ StopsFor p (.inl e) ∨ Converts p ∧
      ∃ name, Table.firstRepeated? [] (p.schema.map (·.info.name)) = some name ∧
        e = .duplicateColumn name) ∧
    (∀ e, StopsFor p (.inl e) → (∃ f ∈ p.schema, ∃ fault, e = .value f.info.name fault) ∨
      ∃ batch ∈ p.batches, e = .tooLarge batch.rowCount) ∧
    ∀ c, decode b = ofAttempt (.error c) ↔ StopsFor p (.inr c) := by
  have hof := readPayload_batches hp
  rw [decode_of_readPayload hp]
  have htable : ∀ t, tableOf p = pure t ↔ Converts p ∧ t.columns = p.schema.map column ∧
      Aligned (fun v k c => v.cellAt k = .ok c) p.batches t.rows :=
    fun t => tableOf_eq_pure_iff_aligned hof hroom
  refine ⟨htable, ?_, ?_, fun e he => he.error hof, ?_⟩
  · rw [← stop?_eq_none, stop?_tableOf hof hroom, Option.or_eq_none_iff, ← converts_iff,
      Option.map_eq_none_iff, Table.firstRepeated?_eq_none]
    simp
  · intro e
    rw [← stop?_eq_inl, stop?_tableOf hof hroom, Option.or_eq_some_iff, ← converts_iff,
      ← stopsFor_iff, Option.map_eq_some_iff]
    simp [@eq_comm _ e]
  · intro c
    rw [← stop?_eq_inr, stop?_tableOf hof hroom, Option.or_eq_some_iff, ← stopsFor_iff]
    simp

section

open scoped Allocator.Sized

/-- A union of one slot that refers to a slot without a value. -/
def isNullVariant : Batch → Bool
  | ⟨1, [.union _ 1 numbers none [(0, _, .null 1)]]⟩ => Vector.variantNumber numbers 0 == 0
  | _ => false

theorem isNullVariant_inv {batch : Batch} (h : isNullVariant batch = true) :
    ∃ type numbers name, batch = ⟨1, [.union type 1 numbers none [(0, name, .null 1)]]⟩ ∧
      Vector.variantNumber numbers 0 = 0 := by
  unfold isNullVariant at h
  split at h
  · exact ⟨_, _, _, rfl, by simpa using h⟩
  · cases h

theorem readPayload_union : ∃ p batch, readPayload unionPayload = pure p ∧ p.batches = [batch] ∧
    isNullVariant batch = true ∧
    Yields (tableOf p) fun t => t.rows.map (·.map Cell.string?) = [[some "\x7bu=\x7d"]] := by
  have hframes : Yields (frames unionPayload) fun fs => ∃ p ∈ held? unionPayload fs,
      p.batches.map isNullVariant = [true] ∧
      Yields (tableOf p) fun t => t.rows.map (·.map Cell.string?) = [[some "\x7bu=\x7d"]] := by
    decide +kernel
  obtain ⟨p, hread, hbatch, htable⟩ := exists_readPayload (by decide +kernel) hframes
  obtain ⟨batch, rest, hbatches, hnull, hrest⟩ := List.map_eq_cons_iff.1 hbatch
  obtain rfl := List.map_eq_nil_iff.1 hrest
  exact ⟨p, batch, hread, hbatches, hnull, htable⟩

/-- The one row of the one batch. -/
theorem rowMajor_union : ∃ p t, readPayload unionPayload = pure p ∧ Roomy p ∧
    decode unionPayload = pure t ∧ t.rows.map (·.map Cell.string?) = [[some "\x7bu=\x7d"]] ∧
    Aligned (fun v k c => v.cellAt k = .ok c) p.batches t.rows := by
  obtain ⟨p, batch, hp, hbatches, hnull, t, ht, hrows⟩ := readPayload_union
  obtain ⟨type, numbers, name, rfl, -⟩ := isNullVariant_inv hnull
  have hroom : Roomy p := by
    rw [Roomy, hbatches, List.forall_mem_singleton]
    exact (by decide : HasRoom rowBytes 1)
  have hdecode : decode unionPayload = pure t := (decode_of_readPayload hp).trans ht
  exact ⟨p, t, hp, hroom, hdecode, hrows, (((decode_rowMajor hp hroom).1 t).1 hdecode).2.2⟩

/-- One column of one duration, longer than can be counted in milliseconds. -/
def endless : Payload where
  schema := [⟨⟨"d", true, 0, false, []⟩, .duration .second⟩]
  batches := [⟨1, [.fixed (.duration .second) ⟨1, none⟩ 8
    ⟨#[255, 255, 255, 255, 255, 255, 255, 127]⟩]⟩]

/-- Neither a table nor an error comes of it: it crashes. -/
theorem tableOf_endless : (∀ batch ∈ endless.batches, batch.Of endless.schema) ∧ Roomy endless ∧
    (endless.schema.map (·.info.name)).Nodup ∧ (¬ ∃ t, tableOf endless = pure t) ∧
    ¬ ∃ e, tableOf endless = fail e := by
  have hstop : stop? (tableOf endless) = some (.inr .durationOutOfRange) := by decide +kernel
  refine ⟨?_, by decide, by decide, ?_, ?_⟩
  · exact List.forall_mem_singleton.2 ⟨rfl, List.forall_mem_singleton.2 rfl⟩
  · rw [← stop?_eq_none, hstop]
    simp
  · rintro ⟨e, he⟩
    rw [stop?_eq_inl.2 he] at hstop
    cases hstop

end

end DataClient.Columnar
