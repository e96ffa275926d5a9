import DataClient.Proofs.Outcome
import DataClient.Proofs.Table.Parts
import DataClient.Query.Submission
import Mathlib.Data.List.Nodup

/-!
# What can be obtained and how it is reached

A table comes from its parts, from a columnar payload, from JSON records or from an answer to a query.
The parts of obtainable tables are those with different names and even rows, no others (`Fits`); all
other parts have one misfit that is reported, the first repeated name before any width, else the first
row of another width (`ofParts_eq_error`). On obtainable tables positions and names then reach what
they seem to reach: a cell is there exactly inside the bounds, and the position of a name is the
place where it stands.
-/

set_option autoImplicit false

namespace DataClient.Table

variable {columns : List Column} {rows : List Row}

/-! ## Parts that fit and parts that do not -/

/-- The names differ and each row has one cell for each column. -/
structure Fits (columns : List Column) (rows : List Row) : Prop where
  names : (columns.map (·.name)).Nodup
  widths : ∀ row ∈ rows, row.length = columns.length

/-- What is reported of parts that do not fit. -/
inductive Misfit (columns : List Column) (rows : List Row) : DecodeError → Prop
  /-- The first name that stands behind an equal one, whatever the rows are. -/
  | repeated {before after : List String} {name : String}
    (hsplit : columns.map (·.name) = before ++ name :: after) (hbefore : before.Nodup)
    (hname : name ∈ before) : Misfit columns rows (.duplicateColumn name)
  /-- The width of the first row that is not as wide as there are columns. -/
  | ragged {before after : List Row} {row : Row} (hnames : (columns.map (·.name)).Nodup)
    (hsplit : rows = before ++ row :: after) (hbefore : ∀ r ∈ before, r.length = columns.length)
    (hrow : row.length ≠ columns.length) :
    Misfit columns rows (.columnCount columns.length row.length)

/-- A list is split at its first element or behind it. -/
theorem exists_split_cons {α : Type} {x y : α} {xs : List α} {P : List α → Prop} :
    (∃ before after, x :: xs = before ++ y :: after ∧ P before) ↔
      (x = y ∧ P []) ∨ ∃ before after, xs = before ++ y :: after ∧ P (x :: before) := by
  constructor
  · rintro ⟨before, after, hsplit, hP⟩
    cases before with
    | nil => exact .inl ⟨(List.cons.inj hsplit).1, hP⟩
    | cons z before =>
      obtain ⟨rfl, hrest⟩ := List.cons.inj hsplit
      exact .inr ⟨before, after, hrest, hP⟩
  · rintro (⟨rfl, hP⟩ | ⟨before, after, rfl, hP⟩)
    · exact ⟨[], xs, rfl, hP⟩
    · exact ⟨x :: before, after, rfl, hP⟩

/-- The name found is the first that stands behind an equal one or has been seen before. -/
theorem firstRepeated?_eq_some {seen names : List String} {name : String} :
    firstRepeated? seen names = some name ↔ ∃ before after, names = before ++ name :: after ∧
      before.Nodup ∧ (∀ n ∈ before, n ∉ seen) ∧ (name ∈ seen ∨ name ∈ before) := by
  induction names generalizing seen with
  | nil => simp [firstRepeated?]
  | cons first rest ih =>
    rw [firstRepeated?, exists_split_cons]
    split
    · rename_i hseen
      constructor
      · intro h
        obtain rfl := Option.some.inj h
        exact .inl ⟨rfl, .nil, by simp, .inl hseen⟩
      · rintro (⟨rfl, -⟩ | ⟨before, after, -, -, hbefore, -⟩)
        · rfl
        · exact absurd hseen (hbefore first List.mem_cons_self)
    · rename_i hfirst
      -- The first name goes from those that stand before to those that have been seen.
      have hmove (before : List String) :
          (before.Nodup ∧ (∀ n ∈ before, n ∉ first :: seen) ∧ (name ∈ first :: seen ∨ name ∈ before)) ↔
            (first :: before).Nodup ∧ (∀ n ∈ first :: before, n ∉ seen) ∧
              (name ∈ seen ∨ name ∈ first :: before) := by
        grind [List.nodup_cons]
      simp only [ih, hmove]
      constructor
      · exact .inr
      · rintro (⟨rfl, -, -, hname⟩ | h)
        · simp [hfirst] at hname
        · exact h
theorem firstRepeated?_nil_eq_some {names : List String} {name : String} :
    firstRepeated? [] names = some name ↔
      ∃ before after, names = before ++ name :: after ∧ before.Nodup ∧ name ∈ before := by
  simp [firstRepeated?_eq_some]

/-- The row found is the first of another width. -/
theorem firstRagged_eq_some {width : Nat} {row : Row} :
    rows.find? (fun row => row.length != width) = some row ↔ ∃ before after,
      rows = before ++ row :: after ∧ (∀ r ∈ before, r.length = width) ∧ row.length ≠ width := by
  rw [List.find?_eq_some_iff_append]
  constructor
  · rintro ⟨hrow, before, after, rfl, hbefore⟩
    exact ⟨before, after, rfl, fun r hr => by simpa using hbefore r hr, by simpa using hrow⟩
  · rintro ⟨before, after, rfl, hbefore, hrow⟩
    exact ⟨by simpa using hrow, before, after, rfl, fun r hr => by simpa using hbefore r hr⟩

/-- Parts with a misfit are refused for it. -/
theorem Misfit.ofParts_eq {e : DecodeError} (h : Misfit columns rows e) :
    ofParts columns rows = .error e := by
  unfold ofParts
  cases h with
  | @repeated before after name hsplit hbefore hmem =>
    have hname := firstRepeated?_nil_eq_some.2 ⟨before, after, hsplit, hbefore, hmem⟩
    split
    · rename_i other hother
      rw [Option.some.inj (hname.symm.trans hother)]
    · rename_i hnone
      cases hname.symm.trans hnone
  | @ragged before after row hnames hsplit hbefore hwidth =>
    have hnone := firstRepeated?_eq_none.2 ⟨hnames, fun n _ => List.not_mem_nil⟩
    have hrow := firstRagged_eq_some.2 ⟨before, after, hsplit, hbefore, hwidth⟩
    split
    · rename_i name hname
      cases hname.symm.trans hnone
    · split
      · rename_i other hother
        rw [Option.some.inj (hrow.symm.trans hother)]
      · rename_i hnorow
        cases hrow.symm.trans hnorow

/-- **Parts are refused for the misfit they have.** -/
theorem ofParts_eq_error {e : DecodeError} :
    ofParts columns rows = .error e ↔ Misfit columns rows e := by
  refine ⟨fun h => ?_, Misfit.ofParts_eq⟩
  unfold ofParts at h
  split at h
  · rename_i name hname
    cases h
    obtain ⟨before, after, hsplit, hbefore, hmem⟩ := firstRepeated?_nil_eq_some.1 hname
    exact .repeated hsplit hbefore hmem
  · rename_i hnone
    split at h
    · rename_i row hrow
      cases h
      obtain ⟨before, after, hsplit, hbefore, hwidth⟩ := firstRagged_eq_some.1 hrow
      exact .ragged (firstRepeated?_eq_none.1 hnone).1 hsplit hbefore hwidth
    · cases h

theorem Fits.ofParts_eq (h : Fits columns rows) :
    ofParts columns rows = .ok ⟨columns, rows, h.names, h.widths⟩ :=
  ofParts_eq_ok.2 ⟨rfl, rfl⟩

/-! ## Positions and names -/

variable {t : Table}

theorem get?_eq_some {i j : Nat} {c : Cell} :
    t.get? i j = some c ↔ ∃ row, t.rows[i]? = some row ∧ row[j]? = some c := by
  simp [get?, Option.bind_eq_some_iff]

/-- A cell is there exactly inside the bounds. -/
theorem exists_get?_iff {i j : Nat} :
    (∃ c, t.get? i j = some c) ↔ i < t.rowCount ∧ j < t.columnCount := by
  constructor
  · rintro ⟨c, hc⟩
    obtain ⟨row, hrow, hcell⟩ := get?_eq_some.1 hc
    obtain ⟨hi, rfl⟩ := List.getElem?_eq_some_iff.1 hrow
    obtain ⟨hj, -⟩ := List.getElem?_eq_some_iff.1 hcell
    rw [t.rows_width _ (List.getElem_mem hi)] at hj
    exact ⟨hi, hj⟩
  · rintro ⟨hi, hj⟩
    have hi : i < t.rows.length := hi
    have hwidth : t.rows[i].length = t.columns.length := t.rows_width _ (List.getElem_mem hi)
    have hcell : j < t.rows[i].length := hwidth ▸ hj
    exact ⟨_, get?_eq_some.2 ⟨_, List.getElem?_eq_getElem hi, List.getElem?_eq_getElem hcell⟩⟩

/-- **The position of a name is the place where it stands**, since no name stands twice. -/
theorem columnIndex?_eq_some {name : String} {i : Nat} :
    t.columnIndex? name = some i ↔ t.columnNames[i]? = some name := by
  have hnames : t.columnNames.Nodup := t.names_nodup
  have hlength : t.columnNames.length = t.columns.length := List.length_map _
  unfold columnIndex?
  rw [List.findIdx?_eq_some_iff_getElem]
  constructor
  · rintro ⟨hi, hname, -⟩
    rw [List.getElem?_eq_getElem (hlength ▸ hi)]
    exact congrArg some (by simpa [columnNames] using hname)
  · intro h
    obtain ⟨hi, hname⟩ := List.getElem?_eq_some_iff.1 h
    refine ⟨hlength ▸ hi, by simpa [columnNames] using hname, fun j hj hequal => ?_⟩
    have hbound : j < t.columnNames.length := Nat.lt_trans hj hi
    have hsame : t.columnNames[j] = t.columnNames[i] := by
      rw [hname]
      simpa [columnNames] using hequal
    exact absurd ((List.Nodup.getElem_inj_iff hnames).1 hsame) (by omega)

/-! ## Tables that can be obtained -/

/-- Where tables come from, in any memory. -/
inductive Obtained : Table → Prop
  | made {columns : List Column} {rows : List Row} {t : Table} (h : ofParts columns rows = .ok t) :
    Obtained t
  | columnar [Allocator] {payload : ByteArray} {t : Table} (h : Columnar.decode payload = pure t) :
    Obtained t
  | records {text : String} {t : Table} (h : Records.decode text = .ok t) : Obtained t
  | answered [Allocator] {format : ResultFormat} {exchange : Except TransportError Response}
    {t : Table} (h : Query.answer format exchange = .ok (.ok t)) : Obtained t

/-- **What can be obtained fits, and it can be navigated.** Given columns and rows are the parts of a
table that can be obtained, in whatever way, exactly if the names differ and the rows are even. Making
a table of them then keeps them as they are; else it fails for the one misfit they have, a repeated
name before any width. In every table obtained with these parts there is a cell exactly at the
positions inside the bounds, it is the one that stands there in the rows, and the position of a name
and the name at a position are inverse to each other. -/
theorem obtained_exact (columns : List Column) (rows : List Row) :
    ((∃ t : Table, t.Obtained ∧ t.columns = columns ∧ t.rows = rows) ↔ Fits columns rows) ∧
    (∀ t : Table, ofParts columns rows = .ok t ↔
      Fits columns rows ∧ t.columns = columns ∧ t.rows = rows) ∧
    (∀ e, ofParts columns rows = .error e ↔ Misfit columns rows e) ∧
    ∀ t : Table, t.Obtained → t.columns = columns → t.rows = rows →
      (∀ i j c, t.get? i j = some c ↔ ∃ row, rows[i]? = some row ∧ row[j]? = some c) ∧
      (∀ i j, (∃ c, t.get? i j = some c) ↔ i < rows.length ∧ j < columns.length) ∧
      ∀ name i, t.columnIndex? name = some i ↔ (columns.map (·.name))[i]? = some name := by
  refine ⟨⟨?_, ?_⟩, ?_, fun e => ofParts_eq_error, ?_⟩
  · rintro ⟨t, -, rfl, rfl⟩
    exact ⟨t.names_nodup, t.rows_width⟩
  · intro h
    exact ⟨_, .made h.ofParts_eq, rfl, rfl⟩
  · intro t
    rw [ofParts_eq_ok]
    constructor
    · rintro ⟨rfl, rfl⟩
      exact ⟨⟨t.names_nodup, t.rows_width⟩, rfl, rfl⟩
    · exact And.right
  · rintro t - rfl rfl
    exact ⟨fun i j c => get?_eq_some, fun i j => exists_get?_iff, fun name i => columnIndex?_eq_some⟩

/-- Two records with their keys in different orders. -/
def reordered : String :=
  "\x7b\"data\":[\x7b\"b\":\"x\",\"a\":1\x7d,\x7b\"a\":null,\"b\":\"y\"\x7d]\x7d"

/-- The columns of a JSON result stand in the order of their names, where they are found. -/
theorem obtained_exact_records : ∃ t : Table, t.Obtained ∧
    t.columnIndex? "a" = some 0 ∧ t.columnIndex? "b" = some 1 ∧
    (∃ c, t.get? 1 1 = some c) ∧ ¬ ∃ c, t.get? 2 0 = some c := by
  have hdecode : ∃ t ∈ (Records.decode reordered).toOption,
      t.columns = [⟨"a", "Int64", true⟩, ⟨"b", "Utf8", true⟩] ∧ t.rows.length = 2 := by
    decide +kernel
  obtain ⟨t, ht, hcolumns, hrows⟩ := hdecode
  have ht : t.Obtained := .records (Outcome.toOption_eq_some.1 ht)
  obtain ⟨-, -, -, hnavigate⟩ := obtained_exact t.columns t.rows
  obtain ⟨-, hbounds, hindex⟩ := hnavigate t ht rfl rfl
  refine ⟨t, ht, ?_, ?_, ?_, ?_⟩
  · rw [hindex, hcolumns]
    rfl
  · rw [hindex, hcolumns]
    rfl
  · rw [hbounds, hrows, hcolumns]
    decide
  · rw [hbounds, hrows]
    omega

end DataClient.Table
