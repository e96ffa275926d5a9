import DataClient.Output
import DataClient.Proofs.Bytes.Base64
import DataClient.Proofs.Json.Distinct
import DataClient.Proofs.Json.Floats
import DataClient.Proofs.Time.Calendar

/-!
# Tables as JSON

A rendered table is one document and a line break, and the document is read back as an object that
tells the table cell by cell (`Table.Told`). The one thing that it does not tell is a double without a
finite value: that is written as null. So two tables are rendered alike only if they are equal up to
how doubles are written (`Table.render_exact`).
-/

set_option autoImplicit false

namespace DataClient

open Json.Reader

/-! ## What a document tells -/

/-- The integer of a number that is written without fraction and exponent. -/
def Json.Number.int? : Json.Number → Option Int
  | .natural n => some n.toNat
  | .negative n => some n.toInt
  | .float _ => none

/-- What a cell is read back as. Bytes are told by the decoder of base64, an instant by the fact that no
other has its text. -/
def Cell.Told : Cell → Json → Prop
  | .null, j => j = .null
  | .bool b, j => j = .bool b
  | .int n, j => ∃ k, j = .number k ∧ k.int? = some n.toInt
  | .float x, j => (Number.isFiniteDouble x = true → ∃ y, j = .number (.float y)) ∧
    (Number.isFiniteDouble x = false → j = .null)
  | .string s, j => j = .string s
  | .bytes b, j => ∃ s, j = .string s ∧ Bytes.ofBase64? s = some b
  | .timestamp ms, j => ∃ s, j = .string s ∧ ∀ ms', Time.writeMillis ms' = s ↔ ms' = ms

/-- A column as it is read back, its members in order. -/
def Column.read (c : Column) : Json :=
  .object [("dataType", .string c.dataType), ("name", .string c.name), ("nullable", .bool c.nullable)]

/-- An object with the columns, the number of rows and the rows, and nothing else. -/
def Table.Told (t : Table) (j : Json) : Prop :=
  ∃ (n : UInt64) (rows : List (List Json)), j = .object [("columns", .array (t.columns.map Column.read)),
      ("rowCount", .number (.natural n)), ("rows", .array (rows.map Json.array))] ∧
    (t.rowCount < 2 ^ 64 → n.toNat = t.rowCount) ∧
    List.Forall₂ (List.Forall₂ Cell.Told) t.rows rows

/-- **Null is read for a null and for a double without a finite value**, and for nothing else. -/
theorem Cell.Told.eq_null_iff {c : Cell} {j : Json} (h : c.Told j) :
    j = .null ↔ c = .null ∨ ∃ x, c = .float x ∧ Number.isFiniteDouble x = false := by
  cases c with
  | null => exact ⟨fun _ => .inl rfl, fun _ => h⟩
  | float x =>
    by_cases hx : Number.isFiniteDouble x = true
    · obtain ⟨y, rfl⟩ := h.1 hx
      simp [hx]
    · have hx : Number.isFiniteDouble x = false := by simpa using hx
      simp [h.2 hx, hx]
  | bool b =>
    cases h
    simp
  | int n =>
    obtain ⟨k, rfl, -⟩ := h
    simp
  | string s =>
    cases h
    simp
  | bytes b =>
    obtain ⟨s, rfl, -⟩ := h
    simp
  | timestamp ms =>
    obtain ⟨s, rfl, -⟩ := h
    simp

/-! ## Reading back -/

theorem exists_told_int (m : Int64) : ∃ k, Json.ofInt64 m = .number k ∧ k.int? = some m.toInt := by
  have hle := m.le_toInt
  have hlt := m.toInt_lt
  by_cases hm : m < 0
  · exact ⟨.negative m, by rw [Json.ofInt64, if_pos hm], rfl⟩
  · have hpos : 0 ≤ m.toInt := Int.not_lt.1 fun h => hm (Int64.lt_iff_toInt_lt.2 h)
    have hsmall : m.toInt.toNat < 0x8000000000000000 := by omega
    have hnat : m.toInt.toNat.toUInt64.toNat = m.toInt.toNat :=
      UInt64.toNat_ofNat_of_lt' (Nat.lt_trans hsmall (by decide))
    refine ⟨.natural m.toInt.toNat.toUInt64, by rw [Json.ofInt64, if_neg hm], ?_⟩
    rw [Json.Number.int?, hnat, Int.toNat_of_nonneg hpos]

theorem exists_reads_cell (c : Cell) (n d : Nat) :
    ∃ j, Reads (documentFrom (n + 1)) d c.toJson j ∧ c.Told j := by
  cases c with
  | null => exact ⟨_, reads_document_null, rfl⟩
  | bool b => exact ⟨_, reads_document_bool b, rfl⟩
  | int m => exact ⟨_, reads_document_int64 m, exists_told_int m⟩
  | float x =>
    by_cases hx : Number.isFiniteDouble x = true
    · obtain ⟨y, hy⟩ := exists_reads_double hx n d
      refine ⟨_, hy, fun _ => ⟨y, rfl⟩, ?_⟩
      rw [hx]
      intro h
      cases h
    · have hx : Number.isFiniteDouble x = false := by simpa using hx
      refine ⟨_, reads_infinite hx n d, ?_, fun _ => rfl⟩
      rw [hx]
      intro h
      cases h
  | string s => exact ⟨_, reads_document_string s, rfl⟩
  | bytes b => exact ⟨_, reads_document_string _, _, rfl, Bytes.ofBase64?_toBase64 b⟩
  | timestamp ms =>
    refine ⟨_, reads_document_string _, _, rfl, fun ms' => ⟨Time.writeMillis_injective, ?_⟩⟩
    rintro rfl
    rfl

theorem reads_column (c : Column) {n d : Nat} (hd : 1 < d) :
    Reads (documentFrom (n + 2)) d (Table.columnJson c) c.read := by
  let parts : List (String × Json) :=
    [("name", .string c.name), ("dataType", .string c.dataType), ("nullable", .bool c.nullable)]
  have hparts : ∀ p ∈ parts, Reads (documentFrom (n + 1)) (d - 1) p.2 p.2 := by
    intro p hp
    simp only [parts, List.mem_cons, List.not_mem_nil, or_false] at hp
    rcases hp with rfl | rfl | rfl
    · exact reads_document_string _
    · exact reads_document_string _
    · exact reads_document_bool _
  have hread : Reads (documentFrom (n + 2)) d (.object parts) (Json.ofMembers parts) :=
    @Reads.object _ _ _ Prod.fst Prod.snd Prod.snd _ hd hparts
  have hordered : Json.ofMembers parts = c.read := by
    have hname : "dataType" < "name" := by decide
    have hnullable : ¬ "nullable" < "dataType" ∧ ¬ "nullable" < "name" := by decide
    simp only [parts, Json.ofMembers, Json.members, List.foldl_cons, List.foldl_nil, Json.insertMember,
      String.reduceEq, if_false, if_pos hname, if_neg hnullable.1, if_neg hnullable.2]
    rfl
  rwa [hordered] at hread

theorem exists_reads_row (row : Row) {n d : Nat} (hd : 1 < d) :
    ∃ js, Reads (documentFrom (n + 2)) d (.array (row.map Cell.toJson)) (.array js) ∧
      List.Forall₂ Cell.Told row js := by
  choose cell hcell htold using fun c => exists_reads_cell c n (d - 1)
  refine ⟨row.map cell, .array hd fun c _ => hcell c, ?_⟩
  rw [List.forall₂_map_right_iff, List.forall₂_same]
  intro c _
  exact htold c

theorem exists_reads_rows (rows : List Row) {n d : Nat} (hd : 2 < d) :
    ∃ js : List (List Json), Reads (documentFrom (n + 3)) d
        (.array (rows.map fun r => .array (r.map Cell.toJson))) (.array (js.map Json.array)) ∧
      List.Forall₂ (List.Forall₂ Cell.Told) rows js := by
  have hrow (row : Row) := exists_reads_row row (n := n) (show 1 < d - 1 by omega)
  choose cells hcells htold using hrow
  refine ⟨rows.map cells, ?_, ?_⟩
  · rw [List.map_map]
    exact .array (by omega) fun r _ => hcells r
  · rw [List.forall₂_map_right_iff, List.forall₂_same]
    intro r _
    exact htold r

/-- **A table is read back from its document.** -/
theorem exists_reads_table (t : Table) {n d : Nat} (hd : 3 < d) :
    ∃ j, Reads (documentFrom (n + 4)) d t.toJson j ∧ t.Told j := by
  have hcolumns : Reads (documentFrom (n + 3)) (d - 1) (.array (t.columns.map Table.columnJson))
      (.array (t.columns.map Column.read)) := by
    apply Reads.array (by omega)
    intro c _
    exact reads_column c (by omega)
  obtain ⟨rows, hrows, htold⟩ := exists_reads_rows t.rows (n := n) (show 2 < d - 1 by omega)
  have hcount : Reads (documentFrom (n + 3)) (d - 1) (Json.ofCount t.rowCount)
      (Json.ofCount t.rowCount) := by
    have hfits : FitsInteger false t.rowCount.toUInt64.toNat := UInt64.toNat_lt _
    have hcount := reads_document_integer (n := n + 2) (d := d - 1) hfits
    rwa [integer, if_neg Bool.false_ne_true, Nat.toUInt64_eq, UInt64.ofNat_toNat] at hcount
  let parts : List (String × Json × Json) :=
    [("columns", .array (t.columns.map Table.columnJson), .array (t.columns.map Column.read)),
     ("rows", .array (t.rows.map fun r => .array (r.map Cell.toJson)), .array (rows.map Json.array)),
     ("rowCount", Json.ofCount t.rowCount, Json.ofCount t.rowCount)]
  have hparts : ∀ p ∈ parts, Reads (documentFrom (n + 3)) (d - 1) p.2.1 p.2.2 := by
    intro p hp
    simp only [parts, List.mem_cons, List.not_mem_nil, or_false] at hp
    rcases hp with rfl | rfl | rfl
    · exact hcolumns
    · exact hrows
    · exact hcount
  have hread : Reads (documentFrom (n + 4)) d (.object (parts.map fun p => (p.1, p.2.1)))
      (Json.ofMembers (parts.map fun p => (p.1, p.2.2))) :=
    @Reads.object (String × Json × Json) _ _ Prod.fst (·.2.1) (·.2.2) parts (by omega) hparts
  refine ⟨_, hread, t.rowCount.toUInt64, rows, ?_, fun h => UInt64.toNat_ofNat_of_lt' h, htold⟩
  have hlast : ¬ "rows" < "columns" := by decide
  have hmiddle : ¬ "rowCount" < "columns" ∧ "rowCount" < "rows" := by decide
  simp only [parts, List.map_cons, List.map_nil, Json.ofMembers, Json.members, List.foldl_cons, List.foldl_nil,
    Json.insertMember, String.reduceEq, if_false, if_neg hlast, if_neg hmiddle.1, if_pos hmiddle.2]
  rfl

/-! ## Tables that are rendered alike -/

/-- What kind of value a cell holds. -/
inductive Cell.Kind
  | null
  | bool
  | int
  | float
  | string
  | bytes
  | timestamp

def Cell.kind : Cell → Cell.Kind
  | .null => .null
  | .bool _ => .bool
  | .int _ => .int
  | .float _ => .float
  | .string _ => .string
  | .bytes _ => .bytes
  | .timestamp _ => .timestamp

/-- Equal up to how doubles are written, where a double without a finite value is written as null. -/
def Cell.Alike (a b : Cell) : Prop :=
  a = b ∨ a.toJson.compact = b.toJson.compact ∧ ∀ c ∈ [a, b], c.kind = .float ∨ c.kind = .null

theorem written_cell (c : Cell) (l : Json.Layout) (level : Nat) :
    Json.written l level c.toJson = c.toJson.compact.toList := by
  rw [Json.toList_compact level]
  cases c <;> rfl

/-- What is told alike of two cells of one kind is told of one cell, doubles apart. -/
theorem Cell.Told.eq_or_float {a b : Cell} {j : Json} (ha : a.Told j) (hb : b.Told j)
    (hkind : a.kind = b.kind) : a = b ∨ a.kind = .float := by
  cases a with
  | null =>
    cases b <;> cases hkind
    exact .inl rfl
  | bool v =>
    cases b <;> cases hkind
    cases ha
    cases hb
    exact .inl rfl
  | int n =>
    cases b <;> cases hkind
    obtain ⟨k, rfl, hn⟩ := ha
    obtain ⟨k', hk, hn'⟩ := hb
    cases hk
    rw [hn] at hn'
    exact .inl (congrArg Cell.int (Int64.toInt_inj.1 (Option.some.inj hn')))
  | float x => exact .inr rfl
  | string s =>
    cases b <;> cases hkind
    cases ha
    cases hb
    exact .inl rfl
  | bytes bytes =>
    cases b <;> cases hkind
    obtain ⟨s, rfl, hs⟩ := ha
    obtain ⟨s', hs', hb⟩ := hb
    cases hs'
    rw [hs] at hb
    exact .inl (congrArg Cell.bytes (Option.some.inj hb))
  | timestamp ms =>
    cases b <;> cases hkind
    obtain ⟨s, rfl, hs⟩ := ha
    obtain ⟨s', hs', hms⟩ := hb
    cases hs'
    exact .inl (congrArg Cell.timestamp ((hms ms).1 ((hs ms).2 rfl)))

/-- Cells of one kind, nulls apart, that are written alike. -/
theorem Cell.alike_of_compact_eq {a b : Cell} (hkind : a.kind = b.kind ∨ a = .null ∨ b = .null)
    (h : a.toJson.compact = b.toJson.compact) : a.Alike b := by
  obtain ⟨j, hj, ha⟩ := exists_reads_cell a 0 2
  obtain ⟨j', hj', hb⟩ := exists_reads_cell b 0 2
  have htext : Json.written .dense 0 a.toJson ++ [] = Json.written .dense 0 b.toJson ++ [] := by
    rw [written_cell, written_cell, h]
  obtain ⟨rfl, -, -⟩ := hj.text_eq hj' .nil .nil htext
  by_cases hnull : j = .null
  · -- Both are nulls or doubles without a finite value.
    have hdouble {c : Cell} (hc : c.Told j) : c.kind = .float ∨ c.kind = .null := by
      rcases hc.eq_null_iff.1 hnull with rfl | ⟨x, rfl, -⟩
      · exact .inr rfl
      · exact .inl rfl
    refine .inr ⟨h, fun c hc => ?_⟩
    rcases List.mem_pair.1 hc with rfl | rfl
    · exact hdouble ha
    · exact hdouble hb
  · have hkind : a.kind = b.kind := by
      rcases hkind with hkind | rfl | rfl
      · exact hkind
      · exact absurd ha hnull
      · exact absurd hb hnull
    rcases ha.eq_or_float hb hkind with rfl | hfloat
    · exact .inl rfl
    · refine .inr ⟨h, fun c hc => .inl ?_⟩
      rcases List.mem_pair.1 hc with rfl | rfl
      · exact hfloat
      · exact hkind ▸ hfloat

theorem forall₂_of_written_row {row row' : Row} {level : Nat}
    (h : Json.written .lines level (.array (row.map Cell.toJson))
      = Json.written .lines level (.array (row'.map Cell.toJson))) :
    List.Forall₂ (fun a b => a.toJson.compact = b.toJson.compact) row row' := by
  have hcells (row : Row) : ∀ j ∈ row.map Cell.toJson, ∃ a, Reads (documentFrom 1) 1 j a := by
    intro j hj
    obtain ⟨c, -, rfl⟩ := List.mem_map.1 hj
    obtain ⟨a, ha, -⟩ := exists_reads_cell c 0 1
    exact ⟨a, ha⟩
  have hall := forall₂_written (hcells row) (hcells row') h
  rw [List.forall₂_map_left_iff, List.forall₂_map_right_iff] at hall
  refine hall.imp fun a b hab => ?_
  rw [written_cell, written_cell] at hab
  exact String.toList_inj.1 hab

/-- **Tables with the same columns that are rendered alike are written alike cell by cell.** -/
theorem Table.forall₂_of_render_eq {t u : Table} (hcolumns : t.columns = u.columns)
    (h : t.render .json = u.render .json) :
    List.Forall₂ (List.Forall₂ fun a b => a.toJson.compact = b.toJson.compact) t.rows u.rows := by
  have htext : Json.written .lines 0 t.toJson = Json.written .lines 0 u.toJson := by
    have hlists := congrArg String.toList h
    simp only [render, renderJson, String.toList_append] at hlists
    rw [← Json.toList_indented, ← Json.toList_indented]
    exact List.append_cancel_right hlists
  obtain ⟨_, hrows, -⟩ := exists_reads_rows t.rows (n := 0) (show 2 < 3 by decide)
  obtain ⟨_, hrows', -⟩ := exists_reads_rows u.rows (n := 0) (show 2 < 3 by decide)
  -- The rows stand behind the columns, which are the same in both texts.
  rw [toJson, toJson, ← hcolumns] at htext
  have hall := written_eq_of_object hrows hrows' [("columns", .array (t.columns.map columnJson))]
    [("rowCount", Json.ofCount t.rowCount)] [("rowCount", Json.ofCount u.rowCount)] htext
  have hrow (rows : List Row) : ∀ j ∈ rows.map (fun r => Json.array (r.map Cell.toJson)),
      ∃ a, Reads (documentFrom 2) 2 j a := by
    intro j hj
    obtain ⟨r, -, rfl⟩ := List.mem_map.1 hj
    obtain ⟨js, hjs, -⟩ := exists_reads_row r (n := 0) (show 1 < 2 by decide)
    exact ⟨_, hjs⟩
  have hlists := forall₂_written (hrow t.rows) (hrow u.rows) hall
  rw [List.forall₂_map_left_iff, List.forall₂_map_right_iff] at hlists
  exact hlists.imp fun r r' => forall₂_of_written_row

/-! ## Rendering -/

/-- **A rendered table tells the table.** It is one document and a line break, read as an object with
the columns, the number of rows and every cell; null is told of nulls and of doubles without a finite
value. Tables with the same columns, whose cells at a place are of one kind or null, are rendered alike
only if they are equal up to how doubles are written. -/
theorem Table.render_exact (t : Table) :
    (∃ document j, t.render .json = document ++ "\n" ∧ Json.parse document = .ok j ∧
      Json.parse (t.render .json) = .ok j ∧ t.Told j) ∧
    (∀ (c : Cell) (j : Json), c.Told j →
      (j = .null ↔ c = .null ∨ ∃ x, c = .float x ∧ Number.isFiniteDouble x = false)) ∧
    ∀ u : Table, t.columns = u.columns →
      (∀ i k a b, t.get? i k = some a → u.get? i k = some b → a.kind = b.kind ∨ a = .null ∨ b = .null) →
      t.render .json = u.render .json → List.Forall₂ (List.Forall₂ Cell.Alike) t.rows u.rows := by
  refine ⟨?_, fun c j h => h.eq_null_iff, fun u hcolumns hkinds h => ?_⟩
  · obtain ⟨j, hj, htold⟩ := exists_reads_table t (n := 125) (show 3 < Json.depthLimit by decide)
    refine ⟨t.toJson.pretty, j, rfl, ?_, hj.read_pretty, htold⟩
    have hread := (hj .lines 0).read .nil
    rwa [List.append_nil, ← Json.toList_indented, String.ofList_toList] at hread
  · have hall := forall₂_of_render_eq hcolumns h
    rw [List.forall₂_iff_get] at hall ⊢
    obtain ⟨hlength, hrows⟩ := hall
    refine ⟨hlength, fun i hi hi' => ?_⟩
    have hrow := hrows i hi hi'
    rw [List.forall₂_iff_get] at hrow ⊢
    obtain ⟨hwidth, hcells⟩ := hrow
    refine ⟨hwidth, fun k hk hk' => Cell.alike_of_compact_eq (hkinds i k _ _ ?_ ?_) (hcells k hk hk')⟩
    · simp [get?, hi]
    · simp [get?, hi']

/-- A table with one column of doubles and one row. -/
def Table.single (x : Float) : Table :=
  ⟨[⟨"x", "Float64", true⟩], [[.float x]], by decide, by simp⟩

/-- Infinity is written as null, though its cell is none. -/
theorem Table.render_infinity :
    Json.parse ((single (Float.ofBits 0x7ff0000000000000)).render .json)
        = .ok (.object [("columns", .array [Column.read ⟨"x", "Float64", true⟩]),
            ("rowCount", .number (.natural 1)), ("rows", .array [.array [.null]])]) ∧
      (single (Float.ofBits 0x7ff0000000000000)).get? 0 0 = some (.float (Float.ofBits 0x7ff0000000000000)) := by
  refine ⟨?_, rfl⟩
  obtain ⟨j, hj, n, rows, rfl, hn, htold⟩ :=
    exists_reads_table (single (Float.ofBits 0x7ff0000000000000)) (n := 125) (d := Json.depthLimit)
      (by decide)
  have hone : n = 1 := UInt64.toNat_inj.1 (hn (by decide))
  have hrows : rows = [[.null]] := by
    cases htold with
    | cons hrow hrest =>
      cases hrest
      cases hrow with
      | cons hcell hmore =>
        cases hmore
        rw [hcell.2 (by decide +kernel)]
  rw [hone, hrows] at hj
  exact hj.read_pretty

end DataClient
