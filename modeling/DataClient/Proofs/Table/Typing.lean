import DataClient.Proofs.Table.Records

/-!
# The types of record columns

A record column is labelled with the least type that all its values have, and its cells are of that
type. Both come from the kind of the column being the least above those of its cells: a label
says what all values of the column are, which is a question about each of them
(`joined_le_iff`), and a cell below the kind of its column is brought to it without loss (`Kept`).
-/

set_option autoImplicit false

namespace DataClient.Records

/-! ## Values and cells -/

/-- A number without a fraction. -/
def IsInteger (v : Json) : Prop :=
  (∃ n, v = .number (.natural n)) ∨ ∃ n, v = .number (.negative n)

def IsNumber (v : Json) : Prop := ∃ n, v = .number n

def IsBool (v : Json) : Prop := ∃ b, v = .bool b

/-- The cell that holds a value: an integer as the number that it is, lists and objects as their
text. -/
inductive CellFor : Json → Cell → Prop
  | null : CellFor .null .null
  | bool {b : Bool} : CellFor (.bool b) (.bool b)
  | natural {u : UInt64} {n : Int64} (h : n.toInt = u.toNat) :
    CellFor (.number (.natural u)) (.int n)
  | negative {n : Int64} : CellFor (.number (.negative n)) (.int n)
  | float {x : Float} : CellFor (.number (.float x)) (.float x)
  | string {s : String} : CellFor (.string s) (.string s)
  | array {items : List Json} : CellFor (.array items) (.string (Json.array items).compact)
  | object {members : List (String × Json)} :
    CellFor (.object members) (.string (Json.object members).compact)

/-- A value that is read has the cell that holds it, and the other way round. -/
theorem cellOf_eq_ok {name : String} {v : Json} {d : Cell} : cellOf name v = .ok d ↔ CellFor v d := by
  constructor
  · intro h
    cases v with
    | number number =>
      cases number with
      | natural u =>
        simp only [cellOf] at h
        split at h
        · rename_i hlt
          cases h
          exact .natural (Int64.toInt_ofNat_of_lt hlt)
        · cases h
      | negative | float =>
        cases h
        constructor
    | null | bool | string | array | object =>
      cases h
      constructor
  · intro h
    cases h with
    | @natural u n h =>
      have hlt : u.toNat < 0x8000000000000000 := by
        have := Int64.toInt_lt n
        omega
      have hn : Int64.ofNat u.toNat = n := Int64.toInt_inj.1 ((Int64.toInt_ofNat_of_lt hlt).trans h.symm)
      rw [cellOf, if_pos hlt, hn]
    | _ => rfl

/-- A cell of the type that a label names, or null. -/
inductive OfLabel : String → Cell → Prop
  | null {label : String} : OfLabel label .null
  | bool {b : Bool} : OfLabel "Boolean" (.bool b)
  | int {n : Int64} : OfLabel "Int64" (.int n)
  | float {x : Float} : OfLabel "Float64" (.float x)
  | string {s : String} : OfLabel "Utf8" (.string s)

/-- What becomes of a cell in a column of a label: integers become doubles among doubles, everything
becomes the text it is shown as among texts, and else nothing changes. -/
inductive Kept : String → Cell → Cell → Prop
  | widened {n : Int64} : Kept "Float64" (.int n) (.float (Float.ofInt n.toInt))
  | shown {d : Cell} (hnull : d ≠ .null) (hstring : ∀ s, d ≠ .string s) :
    Kept "Utf8" d (.string d.display)
  | same {label : String} {d : Cell} (hint : label = "Float64" → ∀ n, d ≠ .int n)
    (hutf8 : label = "Utf8" → d = .null ∨ ∃ s, d = .string s) : Kept label d d

/-- What kind of cell a value has depends on the kind of the value alone. -/
theorem CellFor.ofCell {v : Json} {d : Cell} (h : CellFor v d) :
    (ColumnKind.ofCell d ≤ .null ↔ v = .null) ∧
    (ColumnKind.ofCell d ≤ .boolean ↔ v = .null ∨ IsBool v) ∧
    (ColumnKind.ofCell d ≤ .int64 ↔ v = .null ∨ IsInteger v) ∧
    (ColumnKind.ofCell d ≤ .float64 ↔ v = .null ∨ IsNumber v) := by
  rw [ColumnKind.ofCell_le_null, ColumnKind.ofCell_le_boolean, ColumnKind.ofCell_le_int64,
    ColumnKind.ofCell_le_float64]
  cases h <;> simp [IsBool, IsInteger, IsNumber]

theorem coerce_null_iff {k : ColumnKind} {d : Cell} : k.coerce d = .null ↔ d = .null := by
  cases k <;> cases d <;> simp [ColumnKind.coerce]

/-- A cell that is brought to a kind above its own is of that kind. -/
theorem coerce_ofLabel {k : ColumnKind} {d : Cell} (h : ColumnKind.ofCell d ≤ k) :
    OfLabel k.name (k.coerce d) := by
  cases k with
  | utf8 => cases d <;> constructor
  | null =>
    obtain rfl := ColumnKind.ofCell_le_null.1 h
    exact .null
  | boolean =>
    obtain rfl | ⟨b, rfl⟩ := ColumnKind.ofCell_le_boolean.1 h <;> constructor
  | int64 =>
    obtain rfl | ⟨n, rfl⟩ := ColumnKind.ofCell_le_int64.1 h <;> constructor
  | float64 =>
    obtain rfl | ⟨n, rfl⟩ | ⟨x, rfl⟩ := ColumnKind.ofCell_le_float64.1 h <;> constructor

theorem coerce_kept {k : ColumnKind} {d : Cell} : Kept k.name d (k.coerce d) := by
  cases k with
  | float64 =>
    cases d with
    | int n => exact .widened
    | null | bool | float | string | bytes | timestamp =>
      exact .same (by simp) (by simp [ColumnKind.name])
  | utf8 =>
    cases d with
    | null => exact .same (by simp [ColumnKind.name]) (by simp)
    | string s => exact .same (by simp) (by simp)
    | bool | int | float | bytes | timestamp => exact .shown (by simp) (by simp)
  | null | boolean | int64 =>
    cases d <;> exact .same (by simp [ColumnKind.name]) (by simp [ColumnKind.name])

/-! ## Columns -/

/-- A column is labelled with what all its values are, and its cells are those of the values, of the
type of the label. -/
structure Typed (label : String) (values : List Json) (cells : List Cell) : Prop where
  nulls : List.Forall₂ (fun v c => c = .null ↔ v = .null) values cells
  kept : List.Forall₂ (fun v c => ∃ d, CellFor v d ∧ Kept label d c) values cells
  ofLabel : ∀ c ∈ cells, OfLabel label c
  null_iff : label = "Null" ↔ ∀ v ∈ values, v = .null
  boolean_iff : label = "Boolean" ↔
    (∀ v ∈ values, v = .null ∨ IsBool v) ∧ ∃ v ∈ values, v ≠ .null
  int64_iff : label = "Int64" ↔
    (∀ v ∈ values, v = .null ∨ IsInteger v) ∧ ∃ v ∈ values, v ≠ .null
  float64_iff : label = "Float64" ↔
    (∀ v ∈ values, v = .null ∨ IsNumber v) ∧ ∃ v ∈ values, v ≠ .null ∧ ¬ IsInteger v
  utf8_iff : label = "Utf8" ↔
    label ≠ "Null" ∧ label ≠ "Boolean" ∧ label ≠ "Int64" ∧ label ≠ "Float64"

/-- The same can be said of all elements of two lists if it can be said of each pair. -/
theorem forall_mem_iff {α β : Type} {R : α → β → Prop} {P : α → Prop} {Q : β → Prop} {as : List α}
    {bs : List β} (h : List.Forall₂ R as bs) (hR : ∀ a b, R a b → (Q b ↔ P a)) :
    (∀ b ∈ bs, Q b) ↔ ∀ a ∈ as, P a := by
  induction h with
  | nil => simp
  | cons hab _ ih => rw [List.forall_mem_cons, List.forall_mem_cons, hR _ _ hab, ih]

theorem typed_of_cells {values : List Json} {ds : List Cell} (h : List.Forall₂ CellFor values ds) :
    Typed (ColumnKind.joined ds).name values
      (ds.map (ColumnKind.coerce (ColumnKind.joined ds))) := by
  generalize hk : ColumnKind.joined ds = k
  -- The kind is below another one exactly if all values are.
  have hnull : k ≤ .null ↔ ∀ v ∈ values, v = .null := by
    rw [← hk, ColumnKind.joined_le_iff, forall_mem_iff h fun v d hd => hd.ofCell.1]
  have hboolean : k ≤ .boolean ↔ ∀ v ∈ values, v = .null ∨ IsBool v := by
    rw [← hk, ColumnKind.joined_le_iff, forall_mem_iff h fun v d hd => hd.ofCell.2.1]
  have hint64 : k ≤ .int64 ↔ ∀ v ∈ values, v = .null ∨ IsInteger v := by
    rw [← hk, ColumnKind.joined_le_iff, forall_mem_iff h fun v d hd => hd.ofCell.2.2.1]
  have hfloat64 : k ≤ .float64 ↔ ∀ v ∈ values, v = .null ∨ IsNumber v := by
    rw [← hk, ColumnKind.joined_le_iff, forall_mem_iff h fun v d hd => hd.ofCell.2.2.2]
  have hname : ∀ j : ColumnKind, k.name = j.name ↔ k = j := fun _ => ColumnKind.name_inj
  refine ⟨?_, ?_, ?_, ?_, ?_, ?_, ?_, ?_⟩
  · rw [List.forall₂_map_right_iff]
    exact h.imp fun v d hd => by
      rw [coerce_null_iff, ← ColumnKind.ofCell_le_null, hd.ofCell.1]
  · rw [List.forall₂_map_right_iff]
    exact h.imp fun v d hd => ⟨d, hd, coerce_kept⟩
  · intro c hc
    obtain ⟨d, hd, rfl⟩ := List.mem_map.1 hc
    exact coerce_ofLabel (hk ▸ ColumnKind.ofCell_le_joined hd)
  · rw [← hnull, ← ColumnKind.eq_null_iff]
    exact hname .null
  · have hsome : (∃ v ∈ values, v ≠ .null) ↔ ¬ k ≤ .null := by simp [hnull]
    rw [← hboolean, hsome, ← ColumnKind.eq_boolean_iff]
    exact hname .boolean
  · have hsome : (∃ v ∈ values, v ≠ .null) ↔ ¬ k ≤ .null := by simp [hnull]
    rw [← hint64, hsome, ← ColumnKind.eq_int64_iff]
    exact hname .int64
  · have hsome : (∃ v ∈ values, v ≠ .null ∧ ¬ IsInteger v) ↔ ¬ k ≤ .int64 := by simp [hint64]
    rw [← hfloat64, hsome, ← ColumnKind.eq_float64_iff]
    exact hname .float64
  · cases k <;> simp [ColumnKind.name]

/-- A column of a transcription, from the values of the rows to the cells of the table. -/
theorem exists_column {name : String} {j : Nat} {k : ColumnKind}
    {data : List (List (String × Json))} {rows : List Row}
    (h : List.Forall₂ (fun members row => ∃ d, cell? name members = some d ∧
      row[j]? = some (k.coerce d)) data rows) :
    ∃ values, List.Forall₂ (fun members v => Json.lookup name members = some v) data values ∧
      List.Forall₂ CellFor values (data.filterMap (cell? name)) ∧
      List.Forall₂ (fun row c => row[j]? = some c) rows
        ((data.filterMap (cell? name)).map k.coerce) := by
  induction h with
  | nil => exact ⟨[], .nil, .nil, .nil⟩
  | cons hrow _ ih =>
    obtain ⟨d, hd, hc⟩ := hrow
    obtain ⟨v, hv, hcell⟩ := cell?_eq_some.1 hd
    obtain ⟨values, hvalues, hcells, hrows⟩ := ih
    refine ⟨v :: values, .cons hv hvalues, ?_, ?_⟩
    · simp [hd, cellOf_eq_ok.1 hcell, hcells]
    · simp [hd, hc, hrows]

theorem Transcribes.typed {r : Result} {t : Table} (h : Transcribes r t) {j : Nat} {col : Column}
    (hcol : t.columns[j]? = some col) :
    ∃ values cells,
      List.Forall₂ (fun members v => Json.lookup col.name members = some v) r.data values ∧
      List.Forall₂ (fun row c => row[j]? = some c) t.rows cells ∧
      Typed col.dataType values cells := by
  rw [h.columns, List.getElem?_map, Option.map_eq_some_iff] at hcol
  obtain ⟨name, hname, rfl⟩ := hcol
  obtain ⟨hj, rfl⟩ := List.getElem?_eq_some_iff.1 hname
  have hrows : List.Forall₂ (fun members row => ∃ d, cell? r.names[j] members = some d ∧
      row[j]? = some ((columnKind r r.names[j]).coerce d)) r.data t.rows := by
    refine h.rows.imp fun members row hrow => ?_
    have hlt : j < row.length := hrow.length_eq ▸ hj
    obtain ⟨d, hd, hc⟩ := hrow.get hj hlt
    exact ⟨d, hd, by rw [List.getElem?_eq_getElem hlt]; exact congrArg some hc⟩
  obtain ⟨values, hvalues, hcells, hcolumn⟩ := exists_column hrows
  exact ⟨values, _, hvalues, hcolumn, typed_of_cells hcells⟩

/-- **Every column is typed, and as narrowly as its values allow.** A cell is null exactly if its
value is; the label is the least that fits all values, in whatever order they come; all cells are of
that type, and they are the cells of the values unless these had to be widened or shown. -/
theorem decode_typed {text : String} {t : Table} (h : decode text = .ok t) :
    ∃ r, Json.read reader text = .ok r ∧
      ∀ (j : Nat) (col : Column), t.columns[j]? = some col → ∃ values cells,
        List.Forall₂ (fun members v => Json.lookup col.name members = some v) r.data values ∧
        List.Forall₂ (fun row c => row[j]? = some c) t.rows cells ∧
        Typed col.dataType values cells := by
  obtain ⟨_, r, hr, _, ht⟩ := decode_eq_ok.1 h
  exact ⟨r, hr, fun j col hcol => ht.typed hcol⟩

/-- Two rows with a column of different kinds and one of nulls. -/
def mixed : String :=
  "\x7b\"data\":[\x7b\"a\":1,\"b\":null\x7d,\x7b\"a\":true,\"b\":null\x7d]\x7d"

/-- The first column holds texts and the second nothing. -/
theorem decode_mixed_typed : ∃ t, decode mixed = .ok t ∧
    t.columns = [⟨"a", "Utf8", true⟩, ⟨"b", "Null", true⟩] ∧
    t.rows.map (·.map Cell.string?) = [[some "1", none], [some "true", none]] ∧
    ∃ r, Json.read reader mixed = .ok r ∧
      ∀ (j : Nat) (col : Column), t.columns[j]? = some col → ∃ values cells,
        List.Forall₂ (fun members v => Json.lookup col.name members = some v) r.data values ∧
        List.Forall₂ (fun row c => row[j]? = some c) t.rows cells ∧
        Typed col.dataType values cells := by
  have hdecode : ∃ t ∈ (decode mixed).toOption,
      t.columns = [⟨"a", "Utf8", true⟩, ⟨"b", "Null", true⟩] ∧
      t.rows.map (·.map Cell.string?) = [[some "1", none], [some "true", none]] := by
    decide +kernel
  obtain ⟨t, ht, hcolumns, hrows⟩ := hdecode
  cases hd : decode mixed with
  | error e => simp [hd, Except.toOption] at ht
  | ok t' =>
    obtain rfl : t' = t := by simpa [hd, Except.toOption] using ht
    exact ⟨t', rfl, hcolumns, hrows, decode_typed hd⟩

end DataClient.Records
