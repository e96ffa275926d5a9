import Mathlib.Data.List.Forall2
import DataClient.Table.Transpose

/-!
# Rows out of columns

`rowsOf` takes the heads off all columns, row by row, and puts a null where a column has run out.
Columns of equal length never run out before the last row, so the null never gets into a row: row
`k` holds slot `k` of every column (`getElem?_rowsOf`). `transpose` asks for exactly that.

Rows and columns that hold the same cells with their two places exchanged determine each other
(`Transposed.symm`, `Transposed.unique`). So `transpose` is its own inverse, and what it refuses has
one mismatch, which is the one that it reports (`transpose_exact`).
-/

set_option autoImplicit false

namespace DataClient

theorem length_rowsOf (n : Nat) (values : List (List Cell)) : (rowsOf n values).length = n := by
  induction n generalizing values with
  | zero => rfl
  | succ n ih => rw [rowsOf, List.length_cons, ih]

/-- The heads of columns that have not run out. -/
theorem forall₂_headRow {values : List (List Cell)} (h : ∀ v ∈ values, 0 < v.length) :
    List.Forall₂ (fun v c => v[0]? = some c) values (headRow values) := by
  induction values with
  | nil => exact .nil
  | cons v vs ih =>
    have hvs := ih fun w hw => h w (by simp [hw])
    cases v with
    | nil => exact absurd (h [] (by simp)) (by simp)
    | cons c cs => exact .cons (by simp) hvs

/-- **Row `k` holds slot `k` of every column**, if no column is shorter than there are rows. The
induction is on the rows; the invariant is that all columns are long enough for those to come. -/
theorem getElem?_rowsOf {n : Nat} {values : List (List Cell)} (h : ∀ v ∈ values, n ≤ v.length)
    {k : Nat} {row : Row} (hrow : (rowsOf n values)[k]? = some row) :
    List.Forall₂ (fun v c => v[k]? = some c) values row := by
  induction n generalizing values k with
  | zero => simp [rowsOf] at hrow
  | succ n ih =>
    cases k with
    | zero =>
      simp only [rowsOf, List.getElem?_cons_zero, Option.some.injEq] at hrow
      rw [← hrow]
      exact forall₂_headRow fun v hv => Nat.lt_of_lt_of_le n.succ_pos (h v hv)
    | succ k =>
      simp only [rowsOf, List.getElem?_cons_succ] at hrow
      have htails : ∀ w ∈ values.map List.tail, n ≤ w.length := by
        intro w hw
        obtain ⟨v, hv, rfl⟩ := List.mem_map.1 hw
        have := h v hv
        simp only [List.length_tail]
        omega
      have hslots := ih htails hrow
      rw [List.forall₂_map_left_iff] at hslots
      exact hslots.imp fun v c hc => by simpa using hc

/-- Every column has as many cells as there are rows. -/
theorem firstUneven?_eq_none {rows : Nat} {columns : List Column} {values : List (List Cell)}
    (hlen : values.length = columns.length) :
    firstUneven? rows columns values = none ↔ ∀ v ∈ values, v.length = rows := by
  induction values generalizing columns with
  | nil => cases columns <;> simp [firstUneven?]
  | cons v vs ih =>
    cases columns with
    | nil => simp at hlen
    | cons c cs =>
      by_cases hv : v.length = rows
      · simp [firstUneven?, hv, ih (by simpa using hlen)]
      · simp [firstUneven?, hv]

/-- Columns that are all as long as there are rows are turned into rows if storage for these can be
claimed. -/
theorem transpose_of_even [Allocator] {columns : List Column} {rows : Nat}
    {values : List (List Cell)}
    (hlen : values.length = columns.length) (h : ∀ v ∈ values, v.length = rows) :
    transpose columns rows values =
      if HasRoom rowBytes rows then .ok (rowsOf rows values) else .error (.tooLarge rows) := by
  have heven := (firstUneven?_eq_none hlen).2 h
  simp only [transpose, hlen, ne_eq, not_true_eq_false, if_false]
  rw [heven]
  simp only [reserve]
  split <;> rfl

/-! ## Places exchanged -/

/-- So many rows hold the cells of the columns with the two places exchanged: the cell in row `i` and
column `j` is slot `i` of column `j`. -/
structure Transposed (values : List (List Cell)) (n : Nat) (rows : List Row) : Prop where
  length : rows.length = n
  widths : ∀ row ∈ rows, row.length = values.length
  cells : ∀ (i j : Nat) (c : Cell), (∃ row : Row, rows[i]? = some row ∧ row[j]? = some c) ↔
    ∃ v : List Cell, values[j]? = some v ∧ v[i]? = some c

namespace Transposed

variable {n : Nat} {values : List (List Cell)} {rows rows' : List Row}

/-- Columns of equal length are to their rows what the rows are to them. -/
theorem symm (h : Transposed values n rows) (hvalues : ∀ v ∈ values, v.length = n) :
    Transposed rows values.length values where
  length := rfl
  widths v hv := (hvalues v hv).trans h.length.symm
  cells i j c := (h.cells j i c).symm

/-- The columns say what the rows are. -/
theorem unique (h : Transposed values n rows) (h' : Transposed values n rows') : rows = rows' := by
  refine List.ext_getElem (h.length.trans h'.length.symm) fun i hi hi' => ?_
  have hrow : rows[i].length = values.length := h.widths _ (List.getElem_mem hi)
  have hrow' : rows'[i].length = values.length := h'.widths _ (List.getElem_mem hi')
  refine List.ext_getElem (hrow.trans hrow'.symm) fun j hj hj' => ?_
  -- Both rows have at this place what stands in the columns at the exchanged one.
  have hcell := (h.cells i j _).1
    ⟨_, List.getElem?_eq_getElem hi, List.getElem?_eq_getElem hj⟩
  obtain ⟨row, hsome, hsame⟩ := (h'.cells i j _).2 hcell
  obtain rfl : rows'[i] = row := Option.some.inj ((List.getElem?_eq_getElem hi').symm.trans hsome)
  exact Option.some.inj (hsame.symm.trans (List.getElem?_eq_getElem hj'))

end Transposed

/-- Columns of equal length are turned into the rows that they are transposed. -/
theorem transposed_rowsOf {n : Nat} {values : List (List Cell)} (h : ∀ v ∈ values, v.length = n) :
    Transposed values n (rowsOf n values) := by
  have hslots {i : Nat} {row : Row} (hrow : (rowsOf n values)[i]? = some row) :=
    getElem?_rowsOf (fun v hv => Nat.le_of_eq (h v hv).symm) hrow
  refine ⟨length_rowsOf n values, fun row hrow => ?_, fun i j c => ⟨?_, ?_⟩⟩
  · obtain ⟨i, hi⟩ := List.getElem?_of_mem hrow
    exact (hslots hi).length_eq.symm
  · rintro ⟨row, hrow, hcell⟩
    obtain ⟨hj, rfl⟩ := List.getElem?_eq_some_iff.1 hcell
    have hwidth := (hslots hrow).length_eq
    refine ⟨values[j], List.getElem?_eq_getElem (hwidth ▸ hj), ?_⟩
    exact (hslots hrow).get (hwidth ▸ hj) hj
  · rintro ⟨v, hv, hcell⟩
    obtain ⟨hj, rfl⟩ := List.getElem?_eq_some_iff.1 hv
    obtain ⟨hi, -⟩ := List.getElem?_eq_some_iff.1 hcell
    rw [h _ (List.getElem_mem hj), ← length_rowsOf n values] at hi
    have hrow := List.getElem?_eq_getElem hi
    have hwidth := (hslots hrow).length_eq
    refine ⟨_, hrow, ?_⟩
    rw [List.getElem?_eq_getElem (hwidth ▸ hj), ← hcell]
    exact ((hslots hrow).get hj (hwidth ▸ hj)).symm

/-! ## What is refused -/

/-- Why columns are not turned into rows. -/
inductive Mismatch [Allocator] (columns : List Column) (n : Nat) (values : List (List Cell)) :
    DecodeError → Prop
  /-- There are not as many lists of cells as columns, whatever their lengths are. -/
  | columnCount (h : values.length ≠ columns.length) :
    Mismatch columns n values (.columnCount columns.length values.length)
  /-- A column is not as long as there are rows, and all columns before it are. -/
  | rowCount {j : Nat} {column : Column} {v : List Cell} (h : values.length = columns.length)
    (hcolumn : columns[j]? = some column) (hv : values[j]? = some v) (hlength : v.length ≠ n)
    (hbefore : ∀ w ∈ values.take j, w.length = n) :
    Mismatch columns n values (.rowCount column.name n v.length)
  /-- The columns are as they have to be, but there is no room for the rows. -/
  | tooLarge (h : values.length = columns.length) (heven : ∀ v ∈ values, v.length = n)
    (hroom : reserve rowBytes n = .error (.tooLarge n)) : Mismatch columns n values (.tooLarge n)

variable {columns : List Column} {n : Nat} {values : List (List Cell)}

/-- The column found is the first that is not as long as there are rows. -/
theorem firstUneven?_eq_some {column : Column} {v : List Cell}
    (hlen : values.length = columns.length) :
    firstUneven? n columns values = some (column, v) ↔
      ∃ j : Nat, columns[j]? = some column ∧ values[j]? = some v ∧ v.length ≠ n ∧
        ∀ w ∈ values.take j, w.length = n := by
  induction values generalizing columns with
  | nil => cases columns <;> simp [firstUneven?]
  | cons w ws ih =>
    cases columns with
    | nil => simp at hlen
    | cons c cs =>
      have hlen : ws.length = cs.length := by simpa using hlen
      have hrest := ih hlen
      by_cases hw : w.length = n
      · rw [firstUneven?, if_neg (not_not.2 hw), hrest]
        constructor
        · rintro ⟨j, hcolumn, hv, hlength, hbefore⟩
          exact ⟨j + 1, hcolumn, hv, hlength, by simpa [hw] using hbefore⟩
        · rintro ⟨j, hcolumn, hv, hlength, hbefore⟩
          cases j with
          | zero => exact absurd (Option.some.inj hv ▸ hw) hlength
          | succ j => exact ⟨j, hcolumn, hv, hlength, fun u hu => hbefore u (by simp [hu])⟩
      · rw [firstUneven?, if_pos hw]
        constructor
        · rintro ⟨⟩
          exact ⟨0, rfl, rfl, hw, by simp⟩
        · rintro ⟨j, hcolumn, hv, hlength, hbefore⟩
          cases j with
          | zero => rw [Option.some.inj hcolumn, Option.some.inj hv]
          | succ j => exact absurd (hbefore w (by simp)) hw

theorem reserve_cases [Allocator] (size count : Nat) :
    reserve size count = .ok () ∨ reserve size count = .error (.tooLarge count) := by
  unfold reserve
  split
  · exact .inl rfl
  · exact .inr rfl

/-- What is turned into rows matches, there is room for these, and they are its cells transposed. -/
theorem transpose_eq_ok [Allocator] {rows : List Row} :
    transpose columns n values = .ok rows ↔
      values.length = columns.length ∧ (∀ v ∈ values, v.length = n) ∧
        reserve rowBytes n = .ok () ∧ Transposed values n rows := by
  by_cases hlen : values.length = columns.length
  swap
  · rw [transpose, if_pos hlen]
    exact ⟨nofun, fun h => absurd h.1 hlen⟩
  rw [transpose, if_neg (not_not.2 hlen), and_iff_right hlen]
  cases huneven : firstUneven? n columns values with
  | some uneven =>
    refine ⟨nofun, fun h => ?_⟩
    rw [(firstUneven?_eq_none hlen).2 h.1] at huneven
    cases huneven
  | none =>
    have heven := (firstUneven?_eq_none hlen).1 huneven
    rw [and_iff_right heven]
    rcases reserve_cases rowBytes n with hroom | hroom <;> rw [hroom]
    · refine ⟨?_, fun h => congrArg _ ((transposed_rowsOf heven).unique h.2)⟩
      rintro ⟨⟩
      exact ⟨rfl, transposed_rowsOf heven⟩
    · exact ⟨nofun, nofun⟩

/-- **Columns are refused for the mismatch they have.** -/
theorem transpose_eq_error [Allocator] {e : DecodeError} :
    transpose columns n values = .error e ↔ Mismatch columns n values e := by
  constructor
  · intro h
    by_cases hlen : values.length = columns.length
    swap
    · rw [transpose, if_pos hlen] at h
      cases h
      exact .columnCount hlen
    rw [transpose, if_neg (not_not.2 hlen)] at h
    cases huneven : firstUneven? n columns values with
    | some uneven =>
      rw [huneven] at h
      cases h
      obtain ⟨j, hcolumn, hv, hlength, hbefore⟩ := (firstUneven?_eq_some hlen).1 huneven
      exact .rowCount hlen hcolumn hv hlength hbefore
    | none =>
      rw [huneven] at h
      rcases reserve_cases rowBytes n with hroom | hroom <;> rw [hroom] at h <;> cases h
      exact .tooLarge hlen ((firstUneven?_eq_none hlen).1 huneven) hroom
  · intro h
    cases h with
    | columnCount hlen => rw [transpose, if_pos hlen]
    | rowCount hlen hcolumn hv hlength hbefore =>
      rw [transpose, if_neg (not_not.2 hlen),
        (firstUneven?_eq_some hlen).2 ⟨_, hcolumn, hv, hlength, hbefore⟩]
    | tooLarge hlen heven hroom =>
      rw [transpose, if_neg (not_not.2 hlen), (firstUneven?_eq_none hlen).2 heven, hroom]
      rfl

/-- **Transposing exchanges the two places of every cell.** It has a result exactly if there is a list
of cells for each column, each holds one cell for each row, and there is room for the rows; the rows
then hold the cells of the columns with their places exchanged, so none is lost and none is filled in.
Else the error is that of the one mismatch, a wrong number of columns before a wrong length before
want of room. Transposing the rows, under any columns as many as there are rows, gives the cells
back as they were, if there is room for as many rows as there were columns. -/
theorem transpose_exact [Allocator] (columns : List Column) (n : Nat) (values : List (List Cell)) :
    ((∃ rows, transpose columns n values = .ok rows) ↔
      values.length = columns.length ∧ (∀ v ∈ values, v.length = n) ∧
        reserve rowBytes n = .ok ()) ∧
    (∀ rows, transpose columns n values = .ok rows →
      Transposed values n rows ∧
      ∀ columns' : List Column, columns'.length = n →
        transpose columns' columns.length rows
          = (reserve rowBytes columns.length).map fun _ => values) ∧
    ∀ e, transpose columns n values = .error e ↔ Mismatch columns n values e := by
  refine ⟨⟨?_, ?_⟩, fun rows h => ?_, fun e => transpose_eq_error⟩
  · rintro ⟨rows, h⟩
    obtain ⟨hlen, heven, hroom, -⟩ := transpose_eq_ok.1 h
    exact ⟨hlen, heven, hroom⟩
  · rintro ⟨hlen, heven, hroom⟩
    exact ⟨_, transpose_eq_ok.2 ⟨hlen, heven, hroom, transposed_rowsOf heven⟩⟩
  · obtain ⟨hlen, heven, -, hrows⟩ := transpose_eq_ok.1 h
    refine ⟨hrows, fun columns' hcolumns' => ?_⟩
    have hback : rows.length = columns'.length := hrows.length.trans hcolumns'.symm
    rcases reserve_cases rowBytes columns.length with hroom | hroom <;> rw [hroom]
    · exact transpose_eq_ok.2 ⟨hback, hlen ▸ hrows.widths, hroom, hlen ▸ hrows.symm heven⟩
    · exact transpose_eq_error.2 (.tooLarge hback (hlen ▸ hrows.widths) hroom)

section

open scoped Allocator.Sized

/-- Three rows of two columns, a null among them, and the two columns back from the three rows. -/
theorem transpose_exact_pair :
    let numbers : List Cell := [.int 1, .null, .int 3]
    let texts : List Cell := [.string "x", .string "y", .string ""]
    let rows : List Row := [[.int 1, .string "x"], [.null, .string "y"], [.int 3, .string ""]]
    transpose [⟨"a", "Int64", true⟩, ⟨"b", "Utf8", true⟩] 3 [numbers, texts] = .ok rows ∧
      transpose [⟨"r", "Utf8", true⟩, ⟨"s", "Utf8", true⟩, ⟨"t", "Utf8", true⟩] 2 rows
        = .ok [numbers, texts] := by
  intro numbers texts rows
  obtain ⟨-, hrows, -⟩ :=
    transpose_exact [⟨"a", "Int64", true⟩, ⟨"b", "Utf8", true⟩] 3 [numbers, texts]
  have h : transpose [⟨"a", "Int64", true⟩, ⟨"b", "Utf8", true⟩] 3 [numbers, texts] = .ok rows := rfl
  obtain ⟨-, hback⟩ := hrows rows h
  exact ⟨h, hback [⟨"r", "Utf8", true⟩, ⟨"s", "Utf8", true⟩, ⟨"t", "Utf8", true⟩] rfl⟩

end

end DataClient
