import DataClient.Table.Basic

/-!
# The parts of a table

`Table.ofParts` checks what the type of tables demands, and nothing else: it refuses exactly the
parts that no table has (`ofParts_eq_ok`).
-/

set_option autoImplicit false

namespace DataClient.Table

variable {columns : List Column} {rows : List Row}

theorem firstRepeated?_eq_none {seen names : List String} :
    firstRepeated? seen names = none ↔ names.Nodup ∧ ∀ n ∈ names, n ∉ seen := by
  refine ⟨nodup_of_firstRepeated?_eq_none, ?_⟩
  rintro ⟨hnames, hseen⟩
  induction names generalizing seen with
  | nil => rfl
  | cons name rest ih =>
    obtain ⟨hname, hrest⟩ := List.nodup_cons.1 hnames
    rw [firstRepeated?, if_neg (hseen name (by simp))]
    refine ih hrest fun n hn => ?_
    rw [List.mem_cons, not_or]
    exact ⟨fun h => hname (h ▸ hn), hseen n (by simp [hn])⟩

/-- **A table is made of exactly the parts it has.** -/
theorem ofParts_eq_ok {t : Table} :
    ofParts columns rows = .ok t ↔ t.columns = columns ∧ t.rows = rows := by
  unfold ofParts
  split
  · rename_i name hname
    refine ⟨fun h => (by cases h), ?_⟩
    rintro ⟨rfl, rfl⟩
    rw [firstRepeated?_eq_none.2 ⟨t.names_nodup, by simp⟩] at hname
    cases hname
  · split
    · rename_i row hrow
      refine ⟨fun h => (by cases h), ?_⟩
      rintro ⟨rfl, rfl⟩
      have hwidth := t.rows_width row (List.mem_of_find?_eq_some hrow)
      have := List.find?_some hrow
      simp [hwidth] at this
    · constructor
      · intro h
        cases h
        exact ⟨rfl, rfl⟩
      · rintro ⟨rfl, rfl⟩
        rfl

/-- Different names and rows as wide as these have a table. -/
theorem exists_ofParts (hnames : (columns.map (·.name)).Nodup)
    (hrows : ∀ row ∈ rows, row.length = columns.length) : ∃ t, ofParts columns rows = .ok t :=
  ⟨⟨columns, rows, hnames, hrows⟩, ofParts_eq_ok.2 ⟨rfl, rfl⟩⟩

end DataClient.Table
