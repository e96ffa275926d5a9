import DataClient.Proofs.Json.Reader
import DataClient.Proofs.Outcome
import DataClient.Proofs.Table.Kinds
import DataClient.Proofs.Table.Parts
import Mathlib.Data.List.Forall2
import Mathlib.Data.List.Perm.Subperm
import Mathlib.Data.List.TakeWhile

/-!
# Which records have a table

A text has a table exactly if it is not blank, reads as a result, and the result is regular: as many
rows as it announces, the same keys in every row, and no integer too large for a cell. That the keys
are the same is never compared as such. Rows are as long as the first one and have all its keys, and
since keys increase strictly that is the same (`fits_iff`).

The table then holds, row by row and key by key, the cells of the values, each brought to the kind of
its column (`Transcribes`). Otherwise the error is the first in the order in which the rows and their
columns are gone through (`Refused`).
-/

set_option autoImplicit false

namespace DataClient

theorem Text.trimChars_eq_nil {cs : List Char} :
    Text.trimChars cs = [] ↔ ∀ c ∈ cs, Text.isBlank c = true := by
  have hdrop : (∀ c ∈ cs.dropWhile Text.isBlank, Text.isBlank c = true) ↔
      ∀ c ∈ cs, Text.isBlank c = true := by
    constructor
    · intro h
      rw [← List.takeWhile_append_dropWhile (p := Text.isBlank) (l := cs)]
      intro c hc
      rcases List.mem_append.1 hc with hc | hc
      · exact List.mem_takeWhile_imp hc
      · exact h c hc
    · exact fun h c hc => h c (List.dropWhile_subset _ hc)
  rw [Text.trimChars, List.reverse_eq_nil_iff, List.dropWhile_eq_nil_iff, ← hdrop]
  simp

namespace Records

open Outcome

/-- The columns of the rows: the keys of the first of them. -/
def Result.names (r : Result) : List String :=
  match r.data with
  | [] => []
  | first :: _ => first.map (·.1)

/-- The cell that a row has in a column. -/
def cell? (name : String) (members : List (String × Json)) : Option Cell :=
  (Json.lookup name members).bind fun value => (cellOf name value).toOption

/-- The cells of a column, from the first row on. -/
def columnCells (r : Result) (name : String) : List Cell := r.data.filterMap (cell? name)

/-- The kind that the cells of a column have in common. -/
def columnKind (r : Result) (name : String) : ColumnKind := .joined (columnCells r name)

def column (r : Result) (name : String) : Column := ⟨name, (columnKind r name).name, true⟩

/-- The table holds the cells of all rows in all columns, brought to the kind of their column. -/
structure Transcribes (r : Result) (t : Table) : Prop where
  columns : t.columns = r.names.map (column r)
  rows : List.Forall₂ (fun members row =>
    List.Forall₂ (fun name c => ∃ d, cell? name members = some d ∧
      c = (columnKind r name).coerce d) r.names row) r.data t.rows

/-- There are as many rows as announced, all with the keys of the first, and every integer in them
fits into a cell. -/
structure Regular (r : Result) : Prop where
  count : ∀ n, r.rowCount = some n → n = r.data.length
  keys : ∀ members ∈ r.data, ∀ k, k ∈ members.map (·.1) ↔ k ∈ r.names
  integers : ∀ members ∈ r.data, ∀ k n, (k, Json.number (.natural n)) ∈ members →
    n.toNat < 0x8000000000000000

/-! ## One row -/

theorem cellOf_eq_error {name : String} {value : Json} {e : DecodeError} :
    cellOf name value = .error e ↔ ∃ n, value = .number (.natural n) ∧
      0x8000000000000000 ≤ n.toNat ∧ e = .value name (.unsigned n.toNat) := by
  cases value with
  | number number =>
    cases number with
    | natural n =>
      by_cases hn : n.toNat < 0x8000000000000000
      · simp [cellOf, hn]
      · simp [cellOf, hn, Nat.not_lt.1 hn, eq_comm]
    | negative | float => simp [cellOf]
  | null | bool | string | array | object => simp [cellOf]

/-- Every value has a cell unless it is an integer too large for one. -/
theorem exists_cellOf_iff {name : String} {value : Json} :
    (∃ c, cellOf name value = .ok c) ↔
      ∀ n, value = .number (.natural n) → n.toNat < 0x8000000000000000 := by
  constructor
  · rintro ⟨c, hc⟩ n hn
    by_contra hlarge
    cases hc.symm.trans (cellOf_eq_error.2 ⟨n, hn, Nat.not_lt.1 hlarge, rfl⟩)
  · intro h
    cases hc : cellOf name value with
    | ok c => exact ⟨c, rfl⟩
    | error e =>
      obtain ⟨n, hn, hlarge, -⟩ := cellOf_eq_error.1 hc
      exact absurd (h n hn) (Nat.not_lt.2 hlarge)

theorem cell?_eq_some {name : String} {members : List (String × Json)} {c : Cell} :
    cell? name members = some c ↔
      ∃ value, Json.lookup name members = some value ∧ cellOf name value = .ok c := by
  unfold cell?
  rw [Option.bind_eq_some_iff]
  refine exists_congr fun value => and_congr_right fun _ => ?_
  cases cellOf name value <;> simp [Except.toOption]

/-- A row has as many members as there are columns, and a cell in each of them. -/
structure Fits (names : List String) (members : List (String × Json)) : Prop where
  length : members.length = names.length
  cells : ∀ name ∈ names, ∃ c, cell? name members = some c

/-- **A row that fits has exactly the keys of the columns.** Keys and columns increase strictly, so
equal numbers and one inclusion are enough. -/
theorem fits_iff {names : List String} (hnames : names.Pairwise (· < ·))
    {members : List (String × Json)} (hmembers : Json.Ordered members) :
    Fits names members ↔ (∀ k, k ∈ members.map (·.1) ↔ k ∈ names) ∧
      ∀ k n, (k, Json.number (.natural n)) ∈ members → n.toNat < 0x8000000000000000 := by
  have hnodup : names.Nodup := hnames.imp fun hlt => ne_of_lt hlt
  constructor
  · intro h
    have hsub : names ⊆ members.map (·.1) := by
      intro name hname
      obtain ⟨c, hc⟩ := h.cells name hname
      obtain ⟨value, hvalue, -⟩ := cell?_eq_some.1 hc
      exact List.mem_map_of_mem (hmembers.lookup_iff.1 hvalue)
    have hperm : names.Perm (members.map (·.1)) :=
      (hnodup.subperm hsub).perm_of_length_le (by simp [h.length])
    refine ⟨fun k => hperm.mem_iff.symm, fun k n hn => ?_⟩
    obtain ⟨c, hc⟩ := h.cells k (hperm.mem_iff.2 (List.mem_map_of_mem hn))
    obtain ⟨value, hvalue, hcell⟩ := cell?_eq_some.1 hc
    rw [hmembers.lookup_iff.2 hn] at hvalue
    cases hvalue
    exact exists_cellOf_iff.1 ⟨c, hcell⟩ n rfl
  · rintro ⟨hkeys, hintegers⟩
    have hperm : (members.map (·.1)).Perm names :=
      (List.perm_ext_iff_of_nodup hmembers.nodup hnodup).2 hkeys
    refine ⟨by simpa using hperm.length_eq, fun name hname => ?_⟩
    obtain ⟨⟨k, value⟩, hmem, rfl⟩ := List.mem_map.1 ((hkeys name).2 hname)
    obtain ⟨c, hc⟩ : ∃ c, cellOf k value = .ok c :=
      exists_cellOf_iff.2 fun n hn => hintegers k n (hn ▸ hmem)
    exact ⟨c, cell?_eq_some.2 ⟨value, hmembers.lookup_iff.2 hmem, hc⟩⟩

/-! ## Faults -/

/-- The first of a list that is at fault, behind others that are fine; `i` is the position of the
head of the list. -/
inductive FirstFault {α : Type} (fine : α → Prop) (fault : Nat → α → DecodeError → Prop) :
    (i : Nat) → List α → DecodeError → Prop
  | here {i : Nat} {a : α} {rest : List α} {e : DecodeError} (h : fault i a e) :
    FirstFault fine fault i (a :: rest) e
  | there {i : Nat} {a : α} {rest : List α} {e : DecodeError} (ha : fine a)
    (h : FirstFault fine fault (i + 1) rest e) : FirstFault fine fault i (a :: rest) e

/-- Why a row has no cell in a column. -/
inductive CellFault (index : Nat) (members : List (String × Json)) (name : String) :
    DecodeError → Prop
  | missing (h : Json.lookup name members = none) :
    CellFault index members name (.json (.missingColumn index name))
  | unsigned {n : UInt64} (h : Json.lookup name members = some (.number (.natural n)))
    (hn : 0x8000000000000000 ≤ n.toNat) : CellFault index members name (.value name (.unsigned n.toNat))

/-- Why a row does not fit: it has more or fewer members than there are columns, or else no cell in
one of them, the first that is named. -/
inductive RowFault (names : List String) (index : Nat) (members : List (String × Json)) :
    DecodeError → Prop
  | fieldCount (h : members.length ≠ names.length) :
    RowFault names index members (.json (.fieldCount index members.length names.length))
  | cell {e : DecodeError} (hlength : members.length = names.length)
    (h : FirstFault (fun name => ∃ c, cell? name members = some c)
      (fun _ => CellFault index members) 0 names e) : RowFault names index members e

/-! ## Going through rows and columns -/

section Traverse

variable {α β : Type}

theorem exists_forall₂_iff {R : α → β → Prop} {as : List α} :
    (∃ bs, List.Forall₂ R as bs) ↔ ∀ a ∈ as, ∃ b, R a b := by
  induction as with
  | nil => simp
  | cons a rest ih =>
    rw [List.forall_mem_cons, ← ih]
    constructor
    · rintro ⟨_, h⟩
      cases h with
      | cons hb hrest => exact ⟨⟨_, hb⟩, ⟨_, hrest⟩⟩
    · rintro ⟨⟨b, hb⟩, ⟨bs, hrest⟩⟩
      exact ⟨b :: bs, .cons hb hrest⟩

/-- Takes a step for each of a list, numbered from `i` on, until one has an error. -/
def traverse (step : Nat → α → Except DecodeError β) :
    (i : Nat) → List α → Except DecodeError (List β)
  | _, [] => .ok []
  | i, a :: rest => do
    let b ← step i a
    let bs ← traverse step (i + 1) rest
    return b :: bs

variable {step : Nat → α → Except DecodeError β}

theorem traverse_eq_ok {R : α → β → Prop} (h : ∀ i a b, step i a = .ok b ↔ R a b) {i : Nat}
    {as : List α} {bs : List β} : traverse step i as = .ok bs ↔ List.Forall₂ R as bs := by
  induction as generalizing i bs with
  | nil => cases bs <;> simp [traverse]
  | cons a rest ih =>
    rw [traverse, bind_eq_ok]
    constructor
    · rintro ⟨b, hb, hrest⟩
      obtain ⟨cs, hcs, hcons⟩ := bind_eq_ok.1 hrest
      cases hcons
      exact .cons ((h i a b).1 hb) (ih.1 hcs)
    · intro hall
      cases hall with
      | cons hb hcs => exact ⟨_, (h i a _).2 hb, bind_eq_ok.2 ⟨_, ih.2 hcs, rfl⟩⟩

theorem traverse_eq_error {fine : α → Prop} {fault : Nat → α → DecodeError → Prop}
    (hfine : ∀ i a, (∃ b, step i a = .ok b) ↔ fine a)
    (hfault : ∀ i a e, step i a = .error e ↔ fault i a e) {i : Nat} {as : List α}
    {e : DecodeError} : traverse step i as = .error e ↔ FirstFault fine fault i as e := by
  induction as generalizing i with
  | nil => exact ⟨fun h => (by cases h), fun h => (by cases h)⟩
  | cons a rest ih =>
    rw [traverse, bind_eq_error]
    constructor
    · rintro (herror | ⟨b, hb, hrest⟩)
      · exact .here ((hfault i a e).1 herror)
      · rcases bind_eq_error.1 hrest with hrest | ⟨_, _, hcons⟩
        · exact .there ((hfine i a).1 ⟨b, hb⟩) (ih.1 hrest)
        · cases hcons
    · intro hfirst
      cases hfirst with
      | here herror => exact .inl ((hfault i a e).2 herror)
      | there ha hrest =>
        obtain ⟨b, hb⟩ := (hfine i a).2 ha
        exact .inr ⟨b, hb, bind_eq_error.2 (.inl (ih.2 hrest))⟩

end Traverse

/-- The cell of a row in a column, or why it has none. -/
def cellIn (index : Nat) (members : List (String × Json)) (name : String) :
    Except DecodeError Cell :=
  match Json.lookup name members with
  | none => .error (.json (.missingColumn index name))
  | some value => cellOf name value

theorem cellIn_eq_ok {index : Nat} {members : List (String × Json)} {name : String} {c : Cell} :
    cellIn index members name = .ok c ↔ cell? name members = some c := by
  unfold cellIn
  rw [cell?_eq_some]
  cases Json.lookup name members <;> simp

theorem cellIn_eq_error {index : Nat} {members : List (String × Json)} {name : String}
    {e : DecodeError} : cellIn index members name = .error e ↔ CellFault index members name e := by
  unfold cellIn
  constructor
  · intro h
    split at h
    · rename_i hnone
      cases h
      exact .missing hnone
    · rename_i value hvalue
      obtain ⟨n, rfl, hn, rfl⟩ := cellOf_eq_error.1 h
      exact .unsigned hvalue hn
  · intro h
    cases h with
    | missing h => rw [h]
    | unsigned h hn => rw [h]; exact cellOf_eq_error.2 ⟨_, rfl, hn, rfl⟩

theorem rowCells_eq (index : Nat) (members : List (String × Json)) (names : List String) (i : Nat) :
    rowCells index members names = traverse (fun _ => cellIn index members) i names := by
  induction names generalizing i with
  | nil => rfl
  | cons name names ih =>
    rw [rowCells, traverse, cellIn, ← ih (i + 1)]
    cases Json.lookup name members <;> rfl

theorem rowCells_eq_ok {index : Nat} {members : List (String × Json)} {names : List String}
    {row : Row} : rowCells index members names = .ok row ↔
      List.Forall₂ (fun name c => cell? name members = some c) names row := by
  rw [rowCells_eq _ _ _ 0]
  apply traverse_eq_ok
  intro _ name c
  exact cellIn_eq_ok

theorem rowCells_eq_error {index : Nat} {members : List (String × Json)} {names : List String}
    {e : DecodeError} : rowCells index members names = .error e ↔
      FirstFault (fun name => ∃ c, cell? name members = some c)
        (fun _ => CellFault index members) 0 names e := by
  rw [rowCells_eq _ _ _ 0]
  apply traverse_eq_error
  · intro _ name
    exact exists_congr fun c => cellIn_eq_ok
  · intro _ name e
    exact cellIn_eq_error

/-- A row with cells in the columns. -/
structure Row.Of (names : List String) (members : List (String × Json)) (row : Row) : Prop where
  length : members.length = names.length
  cells : List.Forall₂ (fun name c => cell? name members = some c) names row

/-- The cells of a row, or why it does not fit. -/
def rowIn (names : List String) (index : Nat) (members : List (String × Json)) :
    Except DecodeError Row :=
  if members.length ≠ names.length then
    .error (.json (.fieldCount index members.length names.length))
  else rowCells index members names

theorem rowIn_eq_ok {names : List String} {index : Nat} {members : List (String × Json)}
    {row : Row} : rowIn names index members = .ok row ↔ Row.Of names members row := by
  unfold rowIn
  split
  · rename_i hlength
    exact ⟨fun h => (by cases h), fun h => absurd h.length hlength⟩
  · rename_i hlength
    rw [rowCells_eq_ok]
    exact ⟨fun h => ⟨not_not.1 hlength, h⟩, Row.Of.cells⟩

theorem exists_rowOf_iff {names : List String} {members : List (String × Json)} :
    (∃ row, Row.Of names members row) ↔ Fits names members := by
  constructor
  · rintro ⟨row, hlength, hcells⟩
    exact ⟨hlength, exists_forall₂_iff.1 ⟨row, hcells⟩⟩
  · rintro ⟨hlength, hcells⟩
    obtain ⟨row, hrow⟩ := exists_forall₂_iff.2 hcells
    exact ⟨row, hlength, hrow⟩

theorem rowIn_eq_error {names : List String} {index : Nat} {members : List (String × Json)}
    {e : DecodeError} : rowIn names index members = .error e ↔ RowFault names index members e := by
  unfold rowIn
  split
  · rename_i hlength
    constructor
    · intro h
      cases h
      exact .fieldCount hlength
    · intro h
      cases h with
      | fieldCount => rfl
      | cell hlength' => exact absurd hlength' hlength
  · rename_i hlength
    rw [rowCells_eq_error]
    constructor
    · exact .cell (not_not.1 hlength)
    · intro h
      cases h with
      | fieldCount hne => exact absurd hne hlength
      | cell _ h => exact h

theorem rowsFrom_eq (names : List String) (index : Nat) (data : List (List (String × Json))) :
    rowsFrom names index data = traverse (rowIn names) index data := by
  induction data generalizing index with
  | nil => rfl
  | cons members rest ih =>
    rw [rowsFrom, traverse, rowIn, ih]
    split <;> rfl

theorem rowsFrom_eq_ok {names : List String} {index : Nat} {data : List (List (String × Json))}
    {rows : List Row} :
    rowsFrom names index data = .ok rows ↔ List.Forall₂ (Row.Of names) data rows := by
  rw [rowsFrom_eq]
  apply traverse_eq_ok
  intro index members row
  exact rowIn_eq_ok

theorem rowsFrom_eq_error {names : List String} {index : Nat} {data : List (List (String × Json))}
    {e : DecodeError} : rowsFrom names index data = .error e ↔
      FirstFault (Fits names) (RowFault names) index data e := by
  rw [rowsFrom_eq]
  apply traverse_eq_error
  · intro index members
    rw [← exists_rowOf_iff]
    exact exists_congr fun row => rowIn_eq_ok
  · intro index members e
    exact rowIn_eq_error

/-! ## Kinds and cells of the columns -/

section Columns

variable {names : List String} {members : List (String × Json)} {row : Row}
  {data : List (List (String × Json))} {rows : List Row}

/-- Cells put together with what belongs to their columns. -/
theorem Row.Of.zipWith_eq {α β : Type} (h : Row.Of names members row) (f : α → Cell → β)
    (g : String → α) : List.zipWith f (names.map g) row =
      names.map fun name => f (g name) ((cell? name members).getD .null) := by
  obtain ⟨-, hcells⟩ := h
  induction hcells with
  | nil => rfl
  | cons hc _ ih => simp [hc, ih]

/-- Going through the rows, the kind of each column takes in the cells of that column. -/
theorem kindsOf_eq (h : List.Forall₂ (Row.Of names) data rows) (start : String → ColumnKind) :
    kindsOf (names.map start) rows = names.map fun name =>
      (data.filterMap (cell? name)).foldl (fun k c => k.join (.ofCell c)) (start name) := by
  induction h generalizing start with
  | nil => simp [kindsOf]
  | @cons members row data rows hrow _ ih =>
    have hfits := exists_rowOf_iff.1 ⟨row, hrow⟩
    rw [kindsOf, List.foldl_cons, hrow.zipWith_eq]
    refine (ih _).trans (List.map_congr_left fun name hname => ?_)
    -- A row that fits has a cell in every column, so no column skips it.
    obtain ⟨c, hc⟩ := hfits.cells name hname
    simp [hc]

/-- The cells of a row are brought to the kinds of their columns in one way only. -/
theorem Row.Of.coerced_iff (h : Row.Of names members row) (kind : String → ColumnKind)
    {coerced : Row} :
    List.Forall₂ (fun name c => ∃ d, cell? name members = some d ∧ c = (kind name).coerce d)
      names coerced ↔ coerced = List.zipWith ColumnKind.coerce (names.map kind) row := by
  obtain ⟨-, hcells⟩ := h
  induction hcells generalizing coerced with
  | nil => simp
  | @cons name d names row hd _ ih =>
    cases coerced with
    | nil => simp
    | cons c cs => simp [hd, ih]

theorem coerced_iff (h : List.Forall₂ (Row.Of names) data rows) (kind : String → ColumnKind)
    {coerced : List Row} :
    List.Forall₂ (fun members row => List.Forall₂ (fun name c => ∃ d, cell? name members = some d ∧
      c = (kind name).coerce d) names row) data coerced ↔
      coerced = rows.map fun row => List.zipWith ColumnKind.coerce (names.map kind) row := by
  induction h generalizing coerced with
  | nil => simp
  | cons hrow _ ih =>
    cases coerced with
    | nil => simp
    | cons c cs => simp [hrow.coerced_iff, ih]

end Columns

/-! ## Results -/

section Results

variable {r : Result}

/-- The table that is made of rows once they have been read. -/
theorem build_eq {rows : List Row} (h : List.Forall₂ (Row.Of r.names) r.data rows) :
    Result.toTable.build r r.names = Table.ofParts (r.names.map (column r))
      (rows.map fun row => List.zipWith ColumnKind.coerce (r.names.map (columnKind r)) row) := by
  have hkinds : kindsOf (r.names.map fun _ => .null) rows = r.names.map (columnKind r) :=
    kindsOf_eq h fun _ => .null
  rw [Result.toTable.build, rowsFrom_eq_ok.2 h]
  simp only [bind, Except.bind, hkinds]
  rw [List.zipWith_map_right, List.zipWith_self]
  rfl

/-- Keys that increase strictly are different names, so nothing is wrong with rows along them. -/
theorem exists_build (hnames : r.names.Pairwise (· < ·)) {rows : List Row}
    (h : List.Forall₂ (Row.Of r.names) r.data rows) :
    ∃ t, Result.toTable.build r r.names = .ok t := by
  rw [build_eq h]
  apply Table.exists_ofParts
  · have hsame : (r.names.map (column r)).map (·.name) = r.names := by
      simp [column, Function.comp_def]
    rw [hsame]
    exact hnames.imp fun hlt => ne_of_lt hlt
  · intro coerced hcoerced
    obtain ⟨row, hrow, rfl⟩ := List.mem_map.1 hcoerced
    obtain ⟨members, hof⟩ := exists_forall₂_iff.1 ⟨_, h.flip⟩ row hrow
    have hof : Row.Of r.names members row := hof
    simp [hof.cells.length_eq]

theorem build_eq_ok {t : Table} :
    Result.toTable.build r r.names = .ok t ↔
      (∀ members ∈ r.data, Fits r.names members) ∧ Transcribes r t := by
  have hrows : (∀ members ∈ r.data, Fits r.names members) ↔
      ∃ rows, List.Forall₂ (Row.Of r.names) r.data rows := by
    simp only [exists_forall₂_iff, exists_rowOf_iff]
  rw [hrows]
  constructor
  · intro h
    have hread := h
    rw [Result.toTable.build] at hread
    obtain ⟨rows, hread, -⟩ := bind_eq_ok.1 hread
    have hrows := rowsFrom_eq_ok.1 hread
    rw [build_eq hrows, Table.ofParts_eq_ok] at h
    exact ⟨⟨rows, hrows⟩, h.1, (coerced_iff hrows (columnKind r)).2 h.2⟩
  · rintro ⟨⟨rows, hrows⟩, ht⟩
    rw [build_eq hrows, Table.ofParts_eq_ok]
    exact ⟨ht.columns, (coerced_iff hrows (columnKind r)).1 ht.rows⟩

theorem build_eq_error (hnames : r.names.Pairwise (· < ·)) {e : DecodeError} :
    Result.toTable.build r r.names = .error e ↔
      FirstFault (Fits r.names) (RowFault r.names) 0 r.data e := by
  rw [← rowsFrom_eq_error]
  constructor
  · intro h
    have hread := h
    rw [Result.toTable.build] at hread
    rcases bind_eq_error.1 hread with hread | ⟨rows, hread, -⟩
    · exact hread
    · obtain ⟨t, ht⟩ := exists_build hnames (rowsFrom_eq_ok.1 hread)
      rw [ht] at h
      cases h
  · intro h
    rw [Result.toTable.build, h]
    rfl

/-- The number of rows is compared first. -/
theorem toTable_eq : r.toTable =
    match r.rowCount with
    | some n =>
      if n ≠ r.data.length then .error (.json (.rowCount n r.data.length))
      else Result.toTable.build r r.names
    | none => Result.toTable.build r r.names := by
  rfl

theorem toTable_eq_ok {t : Table} : r.toTable = .ok t ↔
    (∀ n, r.rowCount = some n → n = r.data.length) ∧
      (∀ members ∈ r.data, Fits r.names members) ∧ Transcribes r t := by
  rw [← build_eq_ok]
  rw [toTable_eq]
  cases hcount : r.rowCount with
  | none => simp
  | some n =>
    by_cases hn : n = r.data.length
    · simp [hn]
    · simp [hn]

theorem toTable_eq_error (hnames : r.names.Pairwise (· < ·)) {e : DecodeError} :
    r.toTable = .error e ↔
      (∃ n, r.rowCount = some n ∧ n ≠ r.data.length ∧ e = .json (.rowCount n r.data.length)) ∨
      (∀ n, r.rowCount = some n → n = r.data.length) ∧
        FirstFault (Fits r.names) (RowFault r.names) 0 r.data e := by
  rw [← build_eq_error hnames]
  rw [toTable_eq]
  cases hcount : r.rowCount with
  | none => simp
  | some n =>
    by_cases hn : n = r.data.length
    · simp [hn]
    · simp [hn, eq_comm]

end Results

/-! ## Texts -/

/-- Nothing but blanks. -/
def Blank (text : String) : Prop := ∀ c ∈ text.toList, Text.isBlank c = true

/-- The keys of every row that has been read increase strictly. -/
theorem ordered_of_read {text : String} {r : Result} (h : Json.read reader text = .ok r) :
    ∀ members ∈ r.data, Json.Ordered members := by
  have hreader : reader.Ensures fun r => ∀ members ∈ r.data, Json.Ordered members := by
    apply Json.Reader.ensures_record (P := fun p : Partial =>
      ∀ data, p.data = some data → ∀ members ∈ data, Json.Ordered members)
    · intro f hf p hp
      rcases List.mem_pair.1 hf with rfl | rfl
      · refine (Json.Reader.ensures_list Json.Reader.ensures_dictionary).bind fun data hdata => .pure ?_
        rintro _ ⟨⟩
        exact hdata
      · exact .after fun _ => .pure hp
    · simp
    · intro p r hp hr
      split at hr
      · rename_i data hdata
        cases hr
        exact hp data hdata
      · cases hr
  exact hreader.read h

theorem names_increase {r : Result} (h : ∀ members ∈ r.data, Json.Ordered members) :
    r.names.Pairwise (· < ·) := by
  unfold Result.names
  split
  · exact .nil
  · rename_i first rest hdata
    exact h first (hdata ▸ List.mem_cons_self)

theorem regular_iff {r : Result} (h : ∀ members ∈ r.data, Json.Ordered members) :
    Regular r ↔ (∀ n, r.rowCount = some n → n = r.data.length) ∧
      ∀ members ∈ r.data, Fits r.names members := by
  have hnames := names_increase h
  constructor
  · intro hr
    refine ⟨hr.count, fun members hmem => (fits_iff hnames (h members hmem)).2 ?_⟩
    exact ⟨hr.keys members hmem, hr.integers members hmem⟩
  · rintro ⟨hcount, hfits⟩
    have hboth := fun members hmem => (fits_iff hnames (h members hmem)).1 (hfits members hmem)
    exact ⟨hcount, fun members hmem => (hboth members hmem).1,
      fun members hmem => (hboth members hmem).2⟩

theorem exists_toTable {r : Result} (h : ∀ members ∈ r.data, Json.Ordered members)
    (hr : Regular r) : ∃ t, r.toTable = .ok t := by
  obtain ⟨hcount, hfits⟩ := (regular_iff h).1 hr
  obtain ⟨rows, hrows⟩ : ∃ rows, List.Forall₂ (Row.Of r.names) r.data rows :=
    exists_forall₂_iff.2 fun members hmem => exists_rowOf_iff.2 (hfits members hmem)
  obtain ⟨t, ht⟩ := exists_build (names_increase h) hrows
  exact ⟨t, toTable_eq_ok.2 ⟨hcount, build_eq_ok.1 ht⟩⟩

/-- Why a text has no table. -/
inductive Refused (text : String) : DecodeError → Prop
  | empty (h : Blank text) : Refused text .empty
  | malformed {e : Json.Error} (h : ¬ Blank text) (he : Json.read reader text = .error e) :
    Refused text (.json (.malformed e))
  /-- The number of rows is compared before any row is looked at. -/
  | rowCount {r : Result} {n : Nat} (h : ¬ Blank text) (hr : Json.read reader text = .ok r)
    (hn : r.rowCount = some n) (hne : n ≠ r.data.length) :
    Refused text (.json (.rowCount n r.data.length))
  /-- The first row that does not fit. -/
  | row {r : Result} {e : DecodeError} (h : ¬ Blank text) (hr : Json.read reader text = .ok r)
    (hcount : ∀ n, r.rowCount = some n → n = r.data.length)
    (hrow : FirstFault (Fits r.names) (RowFault r.names) 0 r.data e) : Refused text e

theorem decode_of_blank {text : String} (h : Blank text) : decode text = .error .empty := by
  rw [decode, if_pos (Text.trimChars_eq_nil.2 h)]

theorem decode_of_not_blank {text : String} (h : ¬ Blank text) :
    decode text = match Json.read reader text with
      | .error e => .error (.json (.malformed e))
      | .ok r => r.toTable := by
  unfold decode
  exact if_neg fun htrim => h (Text.trimChars_eq_nil.1 htrim)

theorem decode_eq_ok {text : String} {t : Table} : decode text = .ok t ↔
    ¬ Blank text ∧ ∃ r, Json.read reader text = .ok r ∧ Regular r ∧ Transcribes r t := by
  by_cases hblank : Blank text
  · simp [decode_of_blank hblank, hblank]
  · rw [decode_of_not_blank hblank, and_iff_right hblank]
    cases hread : Json.read reader text with
    | error e => simp
    | ok r => simp [toTable_eq_ok, regular_iff (ordered_of_read hread), and_assoc]

theorem decode_eq_error {text : String} {e : DecodeError} :
    decode text = .error e ↔ Refused text e := by
  by_cases hblank : Blank text
  · rw [decode_of_blank hblank]
    constructor
    · intro h
      cases h
      exact .empty hblank
    · intro h
      cases h with
      | empty => rfl
      | malformed h | rowCount h | row h => exact absurd hblank h
  · rw [decode_of_not_blank hblank]
    cases hread : Json.read reader text with
    | error why =>
      constructor
      · intro h
        cases h
        exact .malformed hblank hread
      · intro h
        cases h with
        | empty h => exact absurd h hblank
        | malformed _ he => rw [hread] at he; cases he; rfl
        | rowCount _ hr | row _ hr => rw [hread] at hr; cases hr
    | ok r =>
      dsimp only
      rw [toTable_eq_error (names_increase (ordered_of_read hread))]
      constructor
      · rintro (⟨n, hn, hne, rfl⟩ | ⟨hcount, hrow⟩)
        · exact .rowCount hblank hread hn hne
        · exact .row hblank hread hcount hrow
      · intro h
        cases h with
        | empty h => exact absurd h hblank
        | malformed _ he => rw [hread] at he; cases he
        | rowCount _ hr hn hne => rw [hread] at hr; cases hr; exact .inl ⟨_, hn, hne, rfl⟩
        | row _ hr hcount hrow => rw [hread] at hr; cases hr; exact .inr ⟨hcount, hrow⟩

theorem FirstFault.exists_fault {α : Type} {fine : α → Prop} {fault : Nat → α → DecodeError → Prop}
    {i : Nat} {as : List α} {e : DecodeError} (h : FirstFault fine fault i as e) :
    ∃ j, ∃ a ∈ as, fault j a e := by
  induction h with
  | here h => exact ⟨_, _, List.mem_cons_self, h⟩
  | there _ _ ih =>
    obtain ⟨j, a, hmem, h⟩ := ih
    exact ⟨j, a, List.mem_cons_of_mem _ hmem, h⟩

/-- A row is refused for its keys or for one of its values. -/
theorem RowFault.kind {names : List String} {index : Nat} {members : List (String × Json)}
    {e : DecodeError} (h : RowFault names index members e) :
    (∃ fault, e = .json fault) ∨ ∃ name fault, e = .value name fault := by
  cases h with
  | fieldCount => exact .inl ⟨_, rfl⟩
  | cell _ h =>
    obtain ⟨_, name, -, hcell⟩ := h.exists_fault
    cases hcell with
    | missing => exact .inl ⟨_, rfl⟩
    | unsigned => exact .inr ⟨name, _, rfl⟩

theorem Refused.kind {text : String} {e : DecodeError} (h : Refused text e) :
    e = .empty ∧ Blank text ∨ ¬ Blank text ∧
      ((∃ fault, e = .json fault) ∨ ∃ name fault, e = .value name fault) := by
  cases h with
  | empty h => exact .inl ⟨rfl, h⟩
  | malformed h | rowCount h => exact .inr ⟨h, .inl ⟨_, rfl⟩⟩
  | row h _ _ hrow =>
    obtain ⟨_, _, -, hfault⟩ := hrow.exists_fault
    exact .inr ⟨h, hfault.kind⟩

/-- **Which texts have a table, and which one.** A text that is not blank has one exactly if it reads
as a regular result, and then the table is the transcription of that; its columns are the keys of the
first row, in increasing order. Every other text is refused: as empty exactly if it is blank, else
for its shape, its number of rows or its first row that does not fit, in this order. No error is about
columnar payloads. -/
theorem decode_exact (text : String) :
    (∀ t, decode text = .ok t ↔
      ¬ Blank text ∧ ∃ r, Json.read reader text = .ok r ∧ Regular r ∧ Transcribes r t) ∧
    ((∃ t, decode text = .ok t) ↔ ¬ Blank text ∧ ∃ r, Json.read reader text = .ok r ∧ Regular r) ∧
    (∀ r, Json.read reader text = .ok r → r.names.Pairwise (· < ·)) ∧
    (∀ e, decode text = .error e ↔ Refused text e) ∧
    (decode text = .error .empty ↔ Blank text) ∧
    ∀ e, decode text = .error e →
      e = .empty ∨ (∃ fault, e = .json fault) ∨ ∃ name fault, e = .value name fault := by
  refine ⟨fun t => decode_eq_ok, ?_, fun r hr => names_increase (ordered_of_read hr),
    fun e => decode_eq_error, ?_, ?_⟩
  · constructor
    · rintro ⟨t, ht⟩
      obtain ⟨hblank, r, hr, hregular, -⟩ := decode_eq_ok.1 ht
      exact ⟨hblank, r, hr, hregular⟩
    · rintro ⟨hblank, r, hr, hregular⟩
      rw [decode_of_not_blank hblank, hr]
      exact exists_toTable (ordered_of_read hr) hregular
  · constructor
    · intro h
      rcases (decode_eq_error.1 h).kind with ⟨_, hblank⟩ | ⟨_, ⟨_, hjson⟩ | ⟨_, _, hvalue⟩⟩
      · exact hblank
      · cases hjson
      · cases hvalue
    · exact decode_of_blank
  · intro e h
    rcases (decode_eq_error.1 h).kind with ⟨he, _⟩ | ⟨_, he⟩
    · exact .inl he
    · exact .inr he

end Records

end DataClient
