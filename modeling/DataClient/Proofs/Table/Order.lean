import DataClient.Proofs.Json.Documents
import DataClient.Proofs.Resource.Fields
import DataClient.Proofs.Table.Results
import Mathlib.Data.List.Sort
import Mathlib.Logic.Equiv.Fin.Basic

/-!
# The order of rows

The rows of a JSON result may be given in any order. That the rows are regular is a statement about
all of them, the columns are the keys that every row has, and the kind of a column is the least above
those of its cells, so none of these depends on the order; the cells of a row depend on that row and on
the kinds alone. So the tables of two texts with the same rows in two orders have the same columns, and
their rows stand in these orders (`decode_reordered`).
-/

set_option autoImplicit false

namespace DataClient

/-- The kind of a column is that of the cells it has, in whatever order and however often. -/
theorem ColumnKind.joined_congr {as bs : List Cell} (h : ∀ c, c ∈ as ↔ c ∈ bs) : joined as = joined bs := by
  apply le_antisymm
  · exact joined_le_iff.2 fun c hc => ofCell_le_joined ((h c).1 hc)
  · exact joined_le_iff.2 fun c hc => ofCell_le_joined ((h c).2 hc)

namespace Records

open Json Json.Reader

/-- There are as many rows as announced, if that is announced. -/
def Result.Counted (r : Result) : Prop := ∀ n, r.rowCount = some n → n = r.data.length

section Reordered

variable {ra rb : Result}

theorem names_congr (ha : ∀ members ∈ ra.data, Ordered members) (hb : ∀ members ∈ rb.data, Ordered members)
    (hmem : ∀ members, members ∈ ra.data ↔ members ∈ rb.data) (hr : Regular ra) : rb.names = ra.names := by
  have hnames := names_increase ha
  cases hdata : rb.data with
  | nil =>
    have hnone : ra.data = [] := List.eq_nil_iff_forall_not_mem.2 fun members h => by
      have := (hmem members).1 h
      rw [hdata] at this
      cases this
    rw [Result.names, Result.names, hdata, hnone]
  | cons first rest =>
    have hfirst : first ∈ rb.data := hdata ▸ List.mem_cons_self
    have hkeys : rb.names = first.map (·.1) := by rw [Result.names, hdata]
    rw [hkeys]
    -- All rows have the same keys and keep them in order: any of them gives the names.
    have hincrease : (first.map (·.1)).Pairwise (· < ·) := hb first hfirst
    exact hincrease.eq_of_mem_iff hnames (hr.keys first ((hmem first).2 hfirst))

theorem columnKind_congr (hmem : ∀ members, members ∈ ra.data ↔ members ∈ rb.data) (name : String) :
    columnKind rb name = columnKind ra name := by
  apply ColumnKind.joined_congr
  intro c
  simp only [columnCells, List.mem_filterMap, hmem]

/-- Whether rows are regular does not depend on their order. -/
theorem Regular.congr (ha : ∀ members ∈ ra.data, Ordered members)
    (hb : ∀ members ∈ rb.data, Ordered members) (hmem : ∀ members, members ∈ ra.data ↔ members ∈ rb.data)
    (hcount : rb.Counted) (hr : Regular ra) : Regular rb where
  count := hcount
  keys members hmembers k := by
    rw [names_congr ha hb hmem hr]
    exact hr.keys members ((hmem members).2 hmembers) k
  integers members hmembers := hr.integers members ((hmem members).2 hmembers)

/-- The cells of a row are determined by the row, the columns and their kinds. -/
theorem row_unique {names : List String} {kind : String → ColumnKind} {members : List (String × Json)}
    {row row' : Row}
    (h : List.Forall₂ (fun name c => ∃ d, cell? name members = some d ∧ c = (kind name).coerce d) names row)
    (h' : List.Forall₂ (fun name c => ∃ d, cell? name members = some d ∧ c = (kind name).coerce d)
      names row') : row = row' := by
  refine List.right_unique_forall₂' ?_ h h'
  rintro name c c' ⟨d, hd, rfl⟩ ⟨d', hd', rfl⟩
  rw [hd] at hd'
  cases hd'
  rfl

variable (σ : Fin rb.data.length ≃ Fin ra.data.length)
  (hσ : ∀ i, rb.data.get i = ra.data.get (σ i))

include hσ

theorem mem_data_iff (members : List (String × Json)) : members ∈ ra.data ↔ members ∈ rb.data := by
  rw [List.mem_iff_get, List.mem_iff_get]
  constructor
  · rintro ⟨i, rfl⟩
    exact ⟨σ.symm i, by rw [hσ, Equiv.apply_symm_apply]⟩
  · rintro ⟨i, rfl⟩
    exact ⟨σ i, (hσ i).symm⟩

/-- The rows of two transcriptions stand in the orders of what they transcribe. -/
theorem Transcribes.reordered {t u : Table} (ht : Transcribes ra t) (hu : Transcribes rb u)
    (hnames : rb.names = ra.names) (i : Fin rb.data.length) : u.rows[i]? = t.rows[σ i]? := by
  have hkind : columnKind rb = columnKind ra := funext (columnKind_congr (mem_data_iff σ hσ))
  have hi : i.1 < u.rows.length := hu.rows.length_eq ▸ i.2
  have hj : (σ i).1 < t.rows.length := ht.rows.length_eq ▸ (σ i).2
  have hrow := hu.rows.get i.2 hi
  have hrow' := ht.rows.get (σ i).2 hj
  -- Both rows are cells of the same members, in the same columns and of the same kinds.
  rw [hnames, hkind, show rb.data.get ⟨i.1, i.2⟩ = ra.data.get (σ i) from hσ i] at hrow
  have hsame := row_unique hrow hrow'
  show u.rows[i.1]? = t.rows[(σ i).1]?
  rw [List.getElem?_eq_getElem hi, List.getElem?_eq_getElem hj]
  exact congrArg some hsame

end Reordered

/-- **Rows may come in any order.** Two texts with the same rows in two orders, which announce the same
number of rows or none that is wrong, are both decoded or both refused; the tables have the same columns,
and their rows stand in these orders, cell by cell. -/
theorem decode_reordered {a b : String} {ra rb : Result} (ha : Json.read reader a = .ok ra)
    (hb : Json.read reader b = .ok rb)
    (hcount : ra.rowCount = rb.rowCount ∨ ra.Counted ∧ rb.Counted)
    (σ : Fin rb.data.length ≃ Fin ra.data.length) (hσ : ∀ i, rb.data.get i = ra.data.get (σ i)) :
    ((∃ t, decode a = .ok t) ↔ ∃ u, decode b = .ok u) ∧
    ∀ t u, decode a = .ok t → decode b = .ok u →
      u.columns = t.columns ∧ t.rowCount = ra.data.length ∧ u.rowCount = rb.data.length ∧
      ∀ (i : Fin rb.data.length) (k : Nat), u.get? i k = t.get? (σ i) k := by
  have hmem := mem_data_iff σ hσ
  have hordered := ordered_of_read ha
  have hordered' := ordered_of_read hb
  have hcounted : ra.Counted ↔ rb.Counted := by
    rcases hcount with hsame | ⟨hra, hrb⟩
    · rw [Result.Counted, Result.Counted, hsame, Fin.equiv_iff_eq.1 ⟨σ⟩]
    · exact iff_of_true hra hrb
  have hregular : Regular ra ↔ Regular rb :=
    ⟨fun h => h.congr hordered hordered' hmem (hcounted.1 h.count),
      fun h => h.congr hordered' hordered (fun members => (hmem members).symm) (hcounted.2 h.count)⟩
  have hdecodes {text : String} {r : Result} (h : Json.read reader text = .ok r) :
      (∃ t, decode text = .ok t) ↔ Regular r := by
    rw [(decode_exact text).2.1, and_iff_right (not_blank_of_read h)]
    constructor
    · rintro ⟨r', hr', hregular'⟩
      cases h.symm.trans hr'
      exact hregular'
    · exact fun hr => ⟨r, h, hr⟩
  refine ⟨(hdecodes ha).trans (hregular.trans (hdecodes hb).symm), fun t u ht hu => ?_⟩
  have htranscribes {text : String} {r : Result} {t : Table} (h : Json.read reader text = .ok r)
      (ht : decode text = .ok t) : Transcribes r t := by
    obtain ⟨-, r', hr', -, ht'⟩ := decode_eq_ok.1 ht
    cases h.symm.trans hr'
    exact ht'
  have hta := htranscribes ha ht
  have hub := htranscribes hb hu
  have hnames := names_congr hordered hordered' hmem ((hdecodes ha).1 ⟨t, ht⟩)
  -- Columns are determined by the set of rows, rows by what they are transcribed from.
  refine ⟨?_, hta.rows.length_eq.symm, hub.rows.length_eq.symm, fun i k => ?_⟩
  · rw [hta.columns, hub.columns, hnames]
    refine List.map_congr_left fun name _ => ?_
    rw [column, column, columnKind_congr hmem]
  · have hrow := hta.reordered σ hσ hub hnames i
    rw [Table.get?, Table.get?]
    exact congrArg (fun row : Option Row => row.bind fun r => r[k]?) hrow

/-! ## Written rows -/

/-- What is written of rows is read as these rows. -/
theorem read_rows {rows : List (List (String × Json))} (hordered : ∀ row ∈ rows, Ordered row)
    (hvalues : ∀ row ∈ rows, ∀ m ∈ row, Reads document (depthLimit - 3) m.2 m.2) :
    Json.read reader (Json.object [("data", .array (rows.map .object))]).compact = .ok ⟨rows, none⟩ := by
  have hrow : ∀ row ∈ rows, Reads (dictionary document) (depthLimit - 2) (.object row) row := by
    intro row hrow
    have hread : Reads (dictionary document) (depthLimit - 2) (.object (row.map fun e => (e.1, id e.2)))
        (row.map fun e => (e.1, id e.2)) := .dictionary (by decide) (hordered row hrow) (hvalues row hrow)
    have hsame : row.map (fun e => (e.1, id e.2)) = row := List.map_id'' (fun _ => rfl) row
    rwa [hsame] at hread
  have hdata : Reads (list (dictionary document)) (depthLimit - 1) (.array (rows.map .object)) rows := by
    have hread : Reads (list (dictionary document)) (depthLimit - 1) (.array (rows.map .object))
        (rows.map id) := .list (by decide) hrow
    rwa [List.map_id] at hread
  have hresult : Reads reader depthLimit (.object [("data", .array (rows.map .object))]) ⟨rows, none⟩ := by
    refine Reads.record (fun pre => if pre.isEmpty then ({} : Partial) else { data := some rows }) (by decide)
      (fun pre m post hpre l level => ?_) rfl
    cases pre with
    | nil =>
      cases hpre
      exact takes_fieldByName (p := fun (p : Partial) v => { p with data := some v }) rfl rfl (fun _ => rfl)
        hdata l level
    | cons m' pre => cases pre <;> cases hpre
  exact hresult.read_compact

/-- Two rows with one column, as a text. -/
def pair (first second : Json) : String :=
  (Json.object [("data", .array ([[("v", first)], [("v", second)]].map .object))]).compact

theorem read_pair {first second : Json} (h : Reads document (depthLimit - 3) first first)
    (h' : Reads document (depthLimit - 3) second second) :
    Json.read reader (pair first second) = .ok ⟨[[("v", first)], [("v", second)]], none⟩ := by
  apply read_rows
  · intro row hrow
    rcases List.mem_pair.1 hrow with rfl | rfl <;> exact List.pairwise_singleton _ _
  · intro row hrow m hm
    rcases List.mem_pair.1 hrow with rfl | rfl <;> cases List.mem_singleton.1 hm
    · exact h
    · exact h'

/-- A column of a truth value and a text, and the same rows the other way round. -/
theorem decode_pair : ∃ t u,
    decode (pair (.bool true) (.string "x")) = .ok t ∧ decode (pair (.string "x") (.bool true)) = .ok u ∧
      u.columns = t.columns ∧ (∀ k, u.get? 0 k = t.get? 1 k) ∧ ∀ k, u.get? 1 k = t.get? 0 k := by
  have ha := read_pair (reads_document_bool true) (reads_document_string "x")
  have hb := read_pair (reads_document_string "x") (reads_document_bool true)
  have hdecodes : ∃ t, decode (pair (.bool true) (.string "x")) = .ok t := by
    refine (decode_exact _).2.1.2 ⟨not_blank_of_read ha, _, ha, fun n hn => (by cases hn), ?_, ?_⟩
    · simp [Result.names]
    · simp
  obtain ⟨hboth, hsame⟩ := decode_reordered ha hb (.inl rfl) (Equiv.swap (0 : Fin 2) 1)
    (Fin.forall_fin_two.2 ⟨rfl, rfl⟩)
  obtain ⟨t, ht⟩ := hdecodes
  obtain ⟨u, hu⟩ := hboth.1 ⟨t, ht⟩
  obtain ⟨hcolumns, -, -, hcells⟩ := hsame t u ht hu
  exact ⟨t, u, ht, hu, hcolumns, hcells 0, hcells 1⟩

end Records

end DataClient
