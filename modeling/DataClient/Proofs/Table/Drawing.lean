import DataClient.Output
import DataClient.Proofs.Text.Width
import Mathlib.Algebra.GroupWithZero.Nat
import Mathlib.Data.List.Forall2

/-!
# The box that is drawn

A drawing is described without the functions that make it. `Shown` says what stands for a cell: the
cell, or its beginning and three dots. `Fields` is one line of such cells, between bars, each filled
up to the width of its column; `Block` is all lines of a row, as many as its tallest cell has; `Box` is
the rules and the blocks. What is rendered is such a box and the number of rows (`drawn_render`), and
all its lines are equally wide, since each of them is as wide as its columns say
(`Fields.lineWidth_eq`, `lineWidth_rule`).
-/

set_option autoImplicit false

namespace DataClient.TextTable

open Text (charWidth lineWidth lineWidth_cons lineWidth_append)

/-! ## What is drawn -/

/-- What stands for a cell. -/
inductive Shown (cell : List Char) : List Char → Prop
  /-- A cell is shown as it is if all its lines are narrow enough. -/
  | whole (hnarrow : ∀ line ∈ lines cell, lineWidth line ≤ 40) : Shown cell cell
  /-- Of any other cell, as much is shown from its beginning as takes 37 columns. -/
  | begun {start rest : List Char} {c : Char} (hwide : ∃ line ∈ lines cell, 40 < lineWidth line)
    (hsplit : cell = start ++ c :: rest) (hstart : lineWidth start < 37)
    (hc : lineWidth start + charWidth c = 37) : Shown cell (start ++ c :: ['.', '.', '.'])
  /-- A wide character of which only half would be shown gives way to a mark. -/
  | halved {start rest : List Char} {c : Char} (hwide : ∃ line ∈ lines cell, 40 < lineWidth line)
    (hsplit : cell = start ++ c :: rest) (hstart : lineWidth start = 36) (hc : charWidth c = 2) :
    Shown cell (start ++ '\uFFFD' :: ['.', '.', '.'])

/-- A line of texts in columns of given widths: each text has a bar and a blank before it, is filled
up with blanks to the width of its column, and has a blank behind it; the last bar ends the line. -/
inductive Fields : List Nat → List (List Char) → List Char → Prop
  | nil : Fields [] [] ['│']
  | cons {width : Nat} {widths : List Nat} {text line : List Char} {texts : List (List Char)}
    (fill : Nat) (hfill : lineWidth text + fill = width) (hrest : Fields widths texts line) :
    Fields (width :: widths) (text :: texts)
      ('│' :: ' ' :: (text ++ List.replicate fill ' ' ++ ' ' :: line))

/-- The lines of a row: line `i` has line `i` of each cell, or nothing of a cell that has fewer, and
there are as many as the tallest cell has. -/
structure Block (widths : List Nat) (cells block : List (List Char)) : Prop where
  fields : ∀ (i : Nat) (line : List Char), block[i]? = some line →
    Fields widths (cells.map fun cell => (lines cell).getD i []) line
  tall : ∀ cell ∈ cells, (lines cell).length ≤ block.length
  tight : ∃ cell ∈ cells, (lines cell).length = block.length

/-- The lines of a row of cells, each shown as it has to be. -/
def ShownIn (widths : List Nat) (cells : List String) (block : List (List Char)) : Prop :=
  ∃ shown, List.Forall₂ (fun cell text => Shown cell.toList text) cells shown ∧
    Block widths shown block

/-- Blocks between rules: the headers, and below a rule of their own the rows, if there are any. -/
def lay (widths : List Nat) (head : List (List Char)) (blocks : List (List (List Char))) :
    List (List Char) :=
  rule '┌' '┬' '┐' widths :: head ++ rule '├' '┼' '┤' widths ::
    (if blocks = [] then [] else blocks.flatten ++ [rule '└' '┴' '┘' widths])

/-- A box of headers and rows, with columns of given widths. -/
structure Box (widths : List Nat) (headers : List String) (rows : List (List String))
    (drawing : List (List Char)) : Prop where
  columns : widths.length = headers.length
  bounds : ∀ width ∈ widths, 4 ≤ width ∧ width ≤ 40
  /-- A column that is wider than it has to be holds a line of its width. -/
  tight : ∀ (j width : Nat), widths[j]? = some width → width = 4 ∨
    ∃ row ∈ headers :: rows, ∃ cell text, row[j]? = some cell ∧ Shown cell.toList text ∧
      ∃ line ∈ lines text, lineWidth line = width
  even : ∀ line ∈ drawing, lineWidth line = 1 + (widths.map (· + 3)).sum
  parts : ∃ head blocks, ShownIn widths headers head ∧
    List.Forall₂ (ShownIn widths) rows blocks ∧ drawing = lay widths head blocks

/-- A text whose lines are a box, and one line with the number of rows behind it. -/
def Drawn (headers : List String) (rows : List (List String)) (text : String) : Prop :=
  ∃ widths drawing, Box widths headers rows drawing ∧
    Text.splitChars '\n' text.toList = drawing ++
      [(if rows.length = 1 then "1 row" else toString rows.length ++ " rows").toList, []]

/-! ## The widest and the tallest -/

section Largest

variable {α : Type} {f : α → Nat} {xs : List α} {a n : Nat}

theorem foldl_max_le_iff :
    xs.foldl (fun m x => max m (f x)) a ≤ n ↔ a ≤ n ∧ ∀ x ∈ xs, f x ≤ n := by
  induction xs generalizing a with
  | nil => simp
  | cons x xs ih => rw [List.foldl_cons, ih, Nat.max_le, List.forall_mem_cons, and_assoc]

variable (f xs a) in
theorem foldl_max_cases :
    xs.foldl (fun m x => max m (f x)) a = a ∨
      ∃ x ∈ xs, f x = xs.foldl (fun m x => max m (f x)) a := by
  induction xs generalizing a with
  | nil => exact .inl rfl
  | cons x xs ih =>
    rw [List.foldl_cons]
    rcases ih (a := max a (f x)) with h | ⟨y, hy, h⟩
    · rw [h]
      rcases Nat.le_total (f x) a with hle | hle
      · exact .inl (Nat.max_eq_left hle)
      · exact .inr ⟨x, List.mem_cons_self, (Nat.max_eq_right hle).symm⟩
    · exact .inr ⟨y, List.mem_cons_of_mem x hy, h⟩

end Largest

theorem blockWidth_le_iff {cs : List Char} {n : Nat} :
    blockWidth cs ≤ n ↔ ∀ line ∈ lines cs, lineWidth line ≤ n := by
  rw [blockWidth, foldl_max_le_iff, and_iff_right (Nat.zero_le n)]

theorem exists_lineWidth_eq {cs : List Char} (h : 0 < blockWidth cs) :
    ∃ line ∈ lines cs, lineWidth line = blockWidth cs := by
  rcases foldl_max_cases lineWidth (lines cs) 0 with hzero | hline
  · exact absurd h (Nat.not_lt.2 (Nat.le_of_eq hzero))
  · exact hline

/-! ## Cells -/

/-- What is cut off a text that is too wide, one character at a time: the last one shown fits
exactly, or it is a wide one with a single column left for it. -/
theorem exists_cut {n : Nat} {cs : List Char} (hn : 0 < n) (h : n < lineWidth cs) :
    ∃ start c rest, cs = start ++ c :: rest ∧ lineWidth start < n ∧
      (lineWidth start + charWidth c = n ∧ cut n cs = start ++ [c] ∨
        lineWidth start + 1 = n ∧ charWidth c = 2 ∧ cut n cs = start ++ [cutMark]) := by
  induction cs generalizing n with
  | nil => exact absurd h (Nat.not_lt_zero n)
  | cons c cs ih =>
    obtain ⟨n, rfl⟩ := Nat.exists_eq_succ_of_ne_zero (Nat.ne_of_gt hn)
    rw [lineWidth_cons] at h
    have htwo := Text.charWidth_le_two c
    rw [cut]
    split
    · -- The character is wider than what is left, which is one column.
      obtain rfl : n = 0 := by omega
      exact ⟨[], c, cs, rfl, by simp, .inr ⟨by simp, by omega, rfl⟩⟩
    · rcases Nat.eq_zero_or_pos (n + 1 - charWidth c) with hzero | hpos
      · refine ⟨[], c, cs, rfl, by simp, .inl ⟨by simp; omega, ?_⟩⟩
        rw [hzero]
        cases cs <;> rfl
      · obtain ⟨start, d, rest, hsplit, hstart, hcut⟩ := ih hpos (by omega)
        refine ⟨c :: start, d, rest, by rw [hsplit]; rfl, by rw [lineWidth_cons]; omega, ?_⟩
        rw [lineWidth_cons]
        rcases hcut with ⟨hd, hcut⟩ | ⟨hd, htwo, hcut⟩
        · exact .inl ⟨by omega, by rw [hcut]; rfl⟩
        · exact .inr ⟨by omega, htwo, by rw [hcut]; rfl⟩

theorem shown_fit (cs : List Char) : Shown cs (fit cs) := by
  unfold fit
  split
  · rename_i h
    exact .whole (blockWidth_le_iff.1 h)
  · rename_i h
    rw [blockWidth_le_iff] at h
    obtain ⟨line, hline, hwide⟩ : ∃ line ∈ lines cs, 40 < lineWidth line := by
      simpa [maxWidth] using h
    have hwidth := Text.lineWidth_le_of_mem_splitChars hline
    obtain ⟨start, c, rest, hsplit, hstart, hcut⟩ :=
      exists_cut (n := maxWidth - ellipsis.length) (by decide) (Nat.lt_trans (by decide)
        (Nat.lt_of_lt_of_le hwide hwidth))
    rcases hcut with ⟨hc, hcut⟩ | ⟨hc, htwo, hcut⟩ <;> rw [hcut, List.append_assoc]
    · exact .begun ⟨line, hline, hwide⟩ hsplit hstart hc
    · exact .halved ⟨line, hline, hwide⟩ hsplit (Nat.succ.inj hc) htwo

theorem charWidth_dot : charWidth '.' = 1 := by decide

theorem charWidth_cutMark : charWidth '\uFFFD' = 1 := by decide +kernel

/-- What is shown of a cell fits into the widest column. -/
theorem Shown.lineWidth_le {cell text : List Char} (h : Shown cell text) :
    ∀ line ∈ lines text, lineWidth line ≤ 40 := by
  cases h with
  | whole hnarrow => exact hnarrow
  | begun hwide hsplit hstart hc =>
    refine fun line hline => Nat.le_trans (Text.lineWidth_le_of_mem_splitChars hline) ?_
    simp [charWidth_dot]
    omega
  | halved hwide hsplit hstart hc =>
    refine fun line hline => Nat.le_trans (Text.lineWidth_le_of_mem_splitChars hline) ?_
    simp [charWidth_dot, charWidth_cutMark]
    omega

/-! ## Rows -/

/-- The characters that the box is made of. -/
def ruling : List Char := ['│', '─', '┌', '┬', '┐', '├', '┼', '┤', '└', '┴', '┘']

theorem charWidth_ruling : ∀ c ∈ ruling, charWidth c = 1 := by
  have hall : (ruling.all fun c => charWidth c == 1) = true := by decide +kernel
  intro c hc
  simpa using List.all_eq_true.1 hall c hc

theorem charWidth_blank : charWidth ' ' = 1 := by decide

theorem charWidth_bar : charWidth '│' = 1 := charWidth_ruling _ (by decide)

/-- A line is as wide as its columns say, whatever is in them. -/
theorem Fields.lineWidth_eq {widths : List Nat} {texts : List (List Char)} {line : List Char}
    (h : Fields widths texts line) : lineWidth line = 1 + (widths.map (· + 3)).sum := by
  induction h with
  | nil => simp [charWidth_bar]
  | cons fill hfill hrest ih =>
    simp only [lineWidth_cons, lineWidth_append, Text.lineWidth_replicate charWidth_blank,
      charWidth_bar, charWidth_blank, ih, List.map_cons, List.sum_cons]
    omega

theorem Fields.break_not_mem {widths : List Nat} {texts : List (List Char)} {line : List Char}
    (h : Fields widths texts line) (htexts : ∀ text ∈ texts, '\n' ∉ text) : '\n' ∉ line := by
  induction h with
  | nil => decide
  | cons fill hfill hrest ih =>
    obtain ⟨htext, htexts⟩ := List.forall_mem_cons.1 htexts
    have hline := ih htexts
    simp [htext, hline]

/-- Texts that are no wider than their columns stand in fields of the line that is drawn. -/
theorem fields_drawLine {widths : List Nat} {texts : List (List Char)}
    (h : List.Forall₂ (fun width text => lineWidth text ≤ width) widths texts) :
    Fields widths texts
      ('│' :: (widths.zip texts).flatMap fun (width, text) => drawLine width text ++ ['│']) := by
  induction h with
  | nil => exact .nil
  | cons hle hrest ih =>
    have hfields := Fields.cons _ (Nat.add_sub_cancel' hle) ih
    simpa [drawLine] using hfields

variable {widths : List Nat} {cells : List (List Char)}

/-- The lines drawn of a row are those of its cells, none of which is wider than its column. -/
theorem block_drawRow (hcells : cells ≠ [])
    (h : List.Forall₂ (fun width cell => blockWidth cell ≤ width) widths cells) :
    Block widths cells (drawRow widths cells) := by
  let height := (cells.map lines).foldl (fun h b => max h b.length) 1
  have hlength : (drawRow widths cells).length = height := by
    simp [drawRow, height]
  refine ⟨fun i line hline => ?_, fun cell hcell => ?_, ?_⟩
  · have hfits : List.Forall₂ (fun width text => lineWidth text ≤ width) widths
        (cells.map fun cell => (lines cell).getD i []) := by
      rw [List.forall₂_map_right_iff]
      refine h.imp fun width cell hle => ?_
      rw [List.getD_eq_getElem?_getD]
      cases hi : (lines cell)[i]? with
      | none => exact Nat.zero_le _
      | some text => exact blockWidth_le_iff.1 hle text (List.mem_of_getElem? hi)
    have hfields := fields_drawLine hfits
    obtain ⟨hi, rfl⟩ := List.getElem?_eq_some_iff.1 hline
    simpa [drawRow, List.zip_map_right, List.flatMap_map] using hfields
  · rw [hlength]
    exact (foldl_max_le_iff.1 (Nat.le_refl height)).2 _ (List.mem_map_of_mem hcell)
  · rw [hlength]
    rcases foldl_max_cases List.length (cells.map lines) 1 with hone | ⟨b, hb, hlen⟩
    · -- Every cell has a line, so a row of a single line has a cell of one.
      obtain ⟨cell, hcell⟩ := List.exists_mem_of_ne_nil cells hcells
      have hle := (foldl_max_le_iff.1 (Nat.le_refl height)).2 _ (List.mem_map_of_mem hcell)
      have hpos := List.length_pos_of_ne_nil (Text.splitChars_ne_nil '\n' cell)
      exact ⟨cell, hcell, Nat.le_antisymm hle (Nat.le_trans (Nat.le_of_eq hone) hpos)⟩
    · obtain ⟨cell, hcell, rfl⟩ := List.mem_map.1 hb
      exact ⟨cell, hcell, hlen⟩

/-- A rule is as wide as a line of fields. -/
theorem lineWidth_rule {left cross right : Char} (hleft : left ∈ ruling) (hcross : cross ∈ ruling)
    (hright : right ∈ ruling) (hwidths : widths ≠ []) :
    lineWidth (rule left cross right widths) = 1 + (widths.map (· + 3)).sum := by
  have hsegment (width : Nat) : lineWidth (List.replicate (width + 2) '─') = width + 2 :=
    Text.lineWidth_replicate (charWidth_ruling _ (by decide)) _
  -- Between two segments stands one cross, behind the last one the right end.
  have hsegments (widths : List Nat) (hwidths : widths ≠ []) :
      lineWidth ((widths.map fun w => List.replicate (w + 2) '─').intersperse [cross]).flatten + 1
        = (widths.map (· + 3)).sum := by
    induction widths with
    | nil => exact absurd rfl hwidths
    | cons width rest ih =>
      cases rest with
      | nil => simp [hsegment]
      | cons next rest =>
        have hrest := ih (List.cons_ne_nil next rest)
        simp only [List.map_cons, List.intersperse_cons_cons, List.flatten_cons, lineWidth_append,
          hsegment, lineWidth_cons, charWidth_ruling cross hcross, Text.lineWidth_nil,
          List.sum_cons] at hrest ⊢
        omega
  have hlast := hsegments widths hwidths
  simp only [rule, lineWidth_cons, lineWidth_append, charWidth_ruling left hleft,
    charWidth_ruling right hright, Text.lineWidth_nil, List.cons_append]
  omega

/-- Every line of a row is a line of fields. -/
theorem ShownIn.exists_fields {row : List String} {block : List (List Char)}
    (h : ShownIn widths row block) : ∀ line ∈ block,
      ∃ texts, Fields widths texts line ∧ ∀ text ∈ texts, '\n' ∉ text := by
  intro line hline
  obtain ⟨shown, -, hblock⟩ := h
  obtain ⟨i, hi⟩ := List.getElem?_of_mem hline
  refine ⟨_, hblock.fields i line hi, fun text htext => ?_⟩
  obtain ⟨cell, -, rfl⟩ := List.mem_map.1 htext
  rw [List.getD_eq_getElem?_getD]
  cases htext : (lines cell)[i]? with
  | none => exact List.not_mem_nil
  | some text => exact Text.sep_not_mem_splitChars cell text (List.mem_of_getElem? htext)

/-- What holds of rules and of the lines of all rows holds of the lines of a box. -/
theorem forall_mem_lay {P : List Char → Prop} {headers : List String} {rows : List (List String)}
    {head : List (List Char)} {blocks : List (List (List Char))}
    (hhead : ShownIn widths headers head) (hblocks : List.Forall₂ (ShownIn widths) rows blocks)
    (hrule : ∀ left ∈ ruling, ∀ cross ∈ ruling, ∀ right ∈ ruling,
      P (rule left cross right widths))
    (hfields : ∀ texts line, Fields widths texts line → (∀ text ∈ texts, '\n' ∉ text) → P line) :
    ∀ line ∈ lay widths head blocks, P line := by
  have hrow {row : List String} {block : List (List Char)} (h : ShownIn widths row block) :
      ∀ line ∈ block, P line := by
    intro line hline
    obtain ⟨texts, hline, htexts⟩ := h.exists_fields line hline
    exact hfields texts line hline htexts
  have hbody : ∀ line ∈ blocks.flatten, P line := by
    induction hblocks with
    | nil => exact fun line hline => absurd hline List.not_mem_nil
    | cons hblock _ ih =>
      intro line hline
      rw [List.flatten_cons] at hline
      rcases List.mem_append.1 hline with hline | hline
      · exact hrow hblock line hline
      · exact ih line hline
  intro line hline
  rw [lay, List.mem_append, List.mem_cons, List.mem_cons] at hline
  rcases hline with (rfl | hline) | rfl | hline
  · exact hrule _ (by decide) _ (by decide) _ (by decide)
  · exact hrow hhead line hline
  · exact hrule _ (by decide) _ (by decide) _ (by decide)
  · split at hline
    · exact absurd hline List.not_mem_nil
    · rcases List.mem_append.1 hline with hline | hline
      · exact hbody line hline
      · rw [List.mem_singleton.1 hline]
        exact hrule _ (by decide) _ (by decide) _ (by decide)

theorem break_not_mem_rule {left cross right : Char} (hleft : left ∈ ruling)
    (hcross : cross ∈ ruling) (hright : right ∈ ruling) : '\n' ∉ rule left cross right widths := by
  have hbreak : '\n' ∉ ruling := by decide
  have hruling : ∀ c ∈ ruling, '\n' ≠ c := fun c hc heq => hbreak (heq ▸ hc)
  have hsegment (width : Nat) : '\n' ∉ List.replicate (width + 2) '─' :=
    fun h => hruling '─' (by decide) (List.eq_of_mem_replicate h)
  have hsegments (widths : List Nat) :
      '\n' ∉ ((widths.map fun w => List.replicate (w + 2) '─').intersperse [cross]).flatten := by
    induction widths with
    | nil => exact List.not_mem_nil
    | cons width rest ih =>
      cases rest with
      | nil => simp
      | cons next rest =>
        rw [List.map_cons, List.map_cons, List.intersperse_cons_cons, List.flatten_cons,
          List.flatten_cons, List.mem_append, List.mem_append, not_or, not_or]
        exact ⟨hsegment width, by simpa using hruling cross hcross, ih⟩
  have hmiddle := hsegments widths
  rw [rule, List.cons_append, List.mem_cons, List.mem_append, List.mem_singleton, not_or, not_or]
  exact ⟨hruling left hleft, hmiddle, hruling right hright⟩

/-! ## The box -/

/-- The cells of the headers and of the rows, each as it is shown. -/
def fitted (cells : List String) : List (List Char) := cells.map fun s => fit s.toList

/-- The widths of the columns that a box has. -/
def widthsOf (headers : List (List Char)) (rows : List (List (List Char))) : List Nat :=
  (List.range headers.length).map fun i => columnWidth (columnCells (headers :: rows) i)

theorem forall₂_fitted (cells : List String) :
    List.Forall₂ (fun cell text => Shown cell.toList text) cells (fitted cells) := by
  rw [fitted, List.forall₂_map_right_iff, List.forall₂_same]
  exact fun cell _ => shown_fit cell.toList

theorem blockWidth_fit_le (cs : List Char) : blockWidth (fit cs) ≤ 40 :=
  blockWidth_le_iff.2 (shown_fit cs).lineWidth_le

/-- No cell is wider than its column. -/
theorem blockWidth_le_widthsOf {headers row : List (List Char)} {rows : List (List (List Char))}
    (hrow : row ∈ headers :: rows) (hlength : row.length = headers.length) :
    List.Forall₂ (fun width cell => blockWidth cell ≤ width) (widthsOf headers rows) row := by
  have hcount : (widthsOf headers rows).length = row.length := by
    rw [widthsOf, List.length_map, List.length_range, hlength]
  rw [List.forall₂_iff_get]
  refine ⟨hcount, fun j hj hj' => ?_⟩
  have hcell : row[j] ∈ columnCells (headers :: rows) j :=
    List.mem_filterMap.2 ⟨row, hrow, List.getElem?_eq_getElem hj'⟩
  have hle := (foldl_max_le_iff.1 (Nat.le_refl (columnWidth (columnCells (headers :: rows) j)))).2
    _ hcell
  simpa [widthsOf] using hle

variable {headers : List String} {rows : List (List String)}

theorem mem_columnCells {j : Nat} {cell : List Char} :
    cell ∈ columnCells (fitted headers :: rows.map fitted) j ↔
      ∃ row ∈ headers :: rows, ∃ s, row[j]? = some s ∧ fit s.toList = cell := by
  have hall : fitted headers :: rows.map fitted = (headers :: rows).map fitted := rfl
  rw [columnCells, hall, List.mem_filterMap]
  constructor
  · rintro ⟨_, hmem, hcell⟩
    obtain ⟨row, hrow, rfl⟩ := List.mem_map.1 hmem
    rw [fitted, List.getElem?_map, Option.map_eq_some_iff] at hcell
    exact ⟨row, hrow, hcell⟩
  · rintro ⟨row, hrow, hcell⟩
    refine ⟨fitted row, List.mem_map_of_mem hrow, ?_⟩
    rw [fitted, List.getElem?_map, Option.map_eq_some_iff]
    exact hcell

theorem length_fitted (cells : List String) : (fitted cells).length = cells.length := List.length_map _

@[simp] theorem length_widthsOf_fitted :
    (widthsOf (fitted headers) (rows.map fitted)).length = headers.length := by
  rw [widthsOf, List.length_map, List.length_range, length_fitted]

/-- A column has room for a fit text, and for no more than that. -/
theorem bounds_of_mem_widthsOf {width : Nat} (h : width ∈ widthsOf (fitted headers) (rows.map fitted)) :
    4 ≤ width ∧ width ≤ 40 := by
  obtain ⟨j, -, rfl⟩ := List.mem_map.1 h
  refine ⟨(foldl_max_le_iff.1 (Nat.le_refl _)).1, foldl_max_le_iff.2 ⟨by decide, ?_⟩⟩
  intro cell hcell
  obtain ⟨_, -, s, -, rfl⟩ := mem_columnCells.1 hcell
  exact blockWidth_fit_le s.toList

/-- A column is as wide as the widest line in it, if that is more than the least width. -/
theorem tight_widthsOf {j width : Nat}
    (h : (widthsOf (fitted headers) (rows.map fitted))[j]? = some width) : width = 4 ∨
      ∃ row ∈ headers :: rows, ∃ cell text, row[j]? = some cell ∧ Shown cell.toList text ∧
        ∃ line ∈ lines text, lineWidth line = width := by
  obtain ⟨hj, rfl⟩ := List.getElem?_eq_some_iff.1 h
  have hcolumn : (widthsOf (fitted headers) (rows.map fitted))[j]
      = columnWidth (columnCells (fitted headers :: rows.map fitted) j) := by
    simp [widthsOf]
  rw [hcolumn]
  rcases foldl_max_cases blockWidth
    (columnCells (fitted headers :: rows.map fitted) j) minWidth with hleast | ⟨cell, hcell, hwidest⟩
  · exact .inl hleast
  · obtain ⟨row, hrow, s, hs, rfl⟩ := mem_columnCells.1 hcell
    have hfour : 4 ≤ blockWidth (fit s.toList) :=
      Nat.le_trans (foldl_max_le_iff.1 (Nat.le_refl _)).1 (Nat.le_of_eq hwidest.symm)
    obtain ⟨line, hline, hwidth⟩ := exists_lineWidth_eq (Nat.lt_of_lt_of_le (by decide) hfour)
    exact .inr ⟨row, hrow, s, _, hs, shown_fit s.toList, line, hline, hwidth.trans hwidest⟩

/-- A row as wide as the headers is shown in the columns. -/
theorem shownIn_drawRow {cells : List String} (hheaders : headers ≠ []) (hmem : cells ∈ headers :: rows)
    (hcells : cells.length = headers.length) :
    ShownIn (widthsOf (fitted headers) (rows.map fitted)) cells
      (drawRow (widthsOf (fitted headers) (rows.map fitted)) (fitted cells)) := by
  refine ⟨fitted cells, forall₂_fitted cells, block_drawRow ?_ (blockWidth_le_widthsOf ?_ ?_)⟩
  · refine List.ne_nil_of_length_pos ?_
    rw [length_fitted, hcells]
    exact List.length_pos_of_ne_nil hheaders
  · exact List.mem_map_of_mem (f := fitted) hmem
  · rw [length_fitted, length_fitted, hcells]

/-- What is drawn of headers and rows as wide as these. -/
theorem box_drawBox (hheaders : headers ≠ []) (hrows : ∀ row ∈ rows, row.length = headers.length) :
    Box (widthsOf (fitted headers) (rows.map fitted)) headers rows
      (drawBox (fitted headers) (rows.map fitted)) := by
  let widths := widthsOf (fitted headers) (rows.map fitted)
  have hwidths : widths ≠ [] :=
    List.ne_nil_of_length_pos (length_widthsOf_fitted ▸ List.length_pos_of_ne_nil hheaders)
  have hhead : ShownIn widths headers (drawRow widths (fitted headers)) :=
    shownIn_drawRow hheaders List.mem_cons_self rfl
  have hblocks : List.Forall₂ (ShownIn widths) rows ((rows.map fitted).map (drawRow widths)) := by
    rw [List.forall₂_map_right_iff, List.forall₂_map_right_iff, List.forall₂_same]
    exact fun row hrow => shownIn_drawRow hheaders (List.mem_cons_of_mem headers hrow) (hrows row hrow)
  have hparts : drawBox (fitted headers) (rows.map fitted)
      = lay widths (drawRow widths (fitted headers))
        ((rows.map fitted).map (drawRow widths)) := by
    cases rows <;> rfl
  refine ⟨length_widthsOf_fitted, fun width => bounds_of_mem_widthsOf, fun j width => tight_widthsOf,
    fun line hline => ?_, _, _, hhead, hblocks, hparts⟩
  rw [hparts] at hline
  exact forall_mem_lay (P := fun line => lineWidth line = 1 + (widths.map (· + 3)).sum)
    hhead hblocks
    (fun _ hleft _ hcross _ hright => lineWidth_rule hleft hcross hright hwidths)
    (fun _ _ hfields _ => hfields.lineWidth_eq) line hline

/-! ## The text -/

theorem footer_eq (n : Nat) :
    footer n = if n = 1 then "1 row" else toString n ++ " rows" := by
  unfold footer
  split
  · rename_i h
    rw [h]
    rfl
  · rw [String.append_assoc]
    rfl

theorem break_not_mem_footer (n : Nat) : '\n' ∉ (footer n).toList := by
  have hdigits : (toString n).toList = Nat.toDigits 10 n := String.toList_ofList
  have hnumber : '\n' ∉ (toString n).toList := by
    rw [hdigits]
    intro h
    have := Nat.isDigit_of_mem_toDigits (by decide) (by decide) h
    exact absurd this (by decide)
  unfold footer
  rw [String.toList_append, String.toList_append, List.mem_append, List.mem_append, not_or, not_or]
  refine ⟨⟨hnumber, by decide⟩, ?_⟩
  split <;> decide

/-- **What is rendered is a box with the number of rows behind it.** -/
theorem drawn_render (t : TextTable) (hheaders : t.headers ≠ []) :
    Drawn t.headers t.rows t.render := by
  have hbox := box_drawBox hheaders t.rows_width
  have hbreak : ∀ line ∈ drawBox (fitted t.headers) (t.rows.map fitted), '\n' ∉ line := by
    obtain ⟨head, blocks, hhead, hblocks, hparts⟩ := hbox.parts
    rw [hparts]
    exact forall_mem_lay hhead hblocks
      (fun _ hleft _ hcross _ hright => break_not_mem_rule hleft hcross hright)
      fun _ _ hfields htexts => hfields.break_not_mem htexts
  have htext : t.render.toList
      = (drawBox (fitted t.headers) (t.rows.map fitted)).flatMap (· ++ ['\n'])
        ++ ((footer t.rows.length).toList ++ '\n' :: []) := by
    rw [render, if_neg (by simpa using hheaders), String.toList_append, String.toList_append,
      String.toList_join, List.flatMap_map, List.append_assoc]
    simp only [String.toList_append, String.toList_ofList]
    rfl
  refine ⟨_, _, hbox, ?_⟩
  rw [htext, Text.splitChars_flatMap hbreak, Text.splitChars_append_sep,
    Text.splitChars_of_not_mem (break_not_mem_footer _), footer_eq]
  rfl

example : ((ofHeaders ["id", "name"]).push ["1"]).render
    = "┌──────┬──────┐\n│ id   │ name │\n├──────┼──────┤\n│ 1    │      │\n└──────┴──────┘\n1 row\n" := by
  decide +kernel

/-! ## Tables -/

/-- A cell that is there stays in its place, one that is missing is empty. -/
theorem getElem?_resize {n j : Nat} (hj : j < n) (cells : List String) :
    (resize n cells)[j]? = some (cells[j]?.getD "") := by
  rw [resize, List.getElem?_append, List.length_take]
  split
  · rename_i h
    rw [List.getElem?_take_of_lt hj, List.getElem?_eq_getElem (by omega)]
    rfl
  · rename_i h
    rw [List.getElem?_eq_none (l := cells) (by omega), List.getElem?_replicate, if_pos (by omega)]
    rfl

theorem resize_of_length {n : Nat} {cells : List String} (h : cells.length = n) :
    resize n cells = cells := by
  rw [resize, h, Nat.sub_self, List.replicate_zero, List.append_nil, List.take_of_length_le]
  exact Nat.le_of_eq h

/-- The rows of a text table that a table is shown as are its cells as they are displayed. -/
theorem rows_toText (t : Table) : t.toText.rows = t.rows.map fun row => row.map Cell.display := by
  have hrows : ∀ row ∈ t.rows.map fun row => row.map Cell.display,
      resize t.columnNames.length row = row := by
    intro row hrow
    obtain ⟨cells, hcells, rfl⟩ := List.mem_map.1 hrow
    refine resize_of_length ?_
    rw [List.length_map, Table.columnNames, List.length_map]
    exact t.rows_width cells hcells
  exact (List.map_congr_left hrows).trans (List.map_id _)

/-- **What is drawn is a true box.** However many cells are pushed in each row, the rows have as many
as there are headers: those that are there in their places, none beyond, and empty ones where some are
missing. The text is a box of these rows, whose lines are all equally wide and whose columns are each
between 4 and 40 wide, and a last line with the number of rows. A cell stands in its row and column as
it is, or if one of its lines is wider than 40, as its beginning and three dots. A table is drawn in
the same way, each cell as it is displayed. -/
theorem drawing_exact (headers : List String) (hheaders : headers ≠ []) :
    (∀ pushed : List (List String),
      let t := pushed.foldl push (ofHeaders headers)
      List.Forall₂ (fun cells row => row.length = headers.length ∧
        ∀ j < headers.length, row[j]? = some (cells[j]?.getD "")) pushed t.rows ∧
      Drawn headers t.rows t.render) ∧
    ∀ t : Table, t.columnNames = headers →
      Drawn headers (t.rows.map fun row => row.map Cell.display) (t.render .text) := by
  refine ⟨fun pushed => ?_, fun t ht => ?_⟩
  · rw [← append_eq_foldl_push]
    refine ⟨?_, drawn_render ((ofHeaders headers).append pushed) hheaders⟩
    have hrows : ((ofHeaders headers).append pushed).rows = pushed.map (resize headers.length) := rfl
    rw [hrows, List.forall₂_map_right_iff, List.forall₂_same]
    exact fun cells _ => ⟨length_resize _ cells, fun j hj => getElem?_resize hj cells⟩
  · have hdrawn := drawn_render t.toText (ht ▸ hheaders : t.columnNames ≠ [])
    rw [rows_toText] at hdrawn
    rw [← ht]
    exact hdrawn

/-- A cell of 25 wide characters is cut in the middle of one, a row with a missing cell and one with a
cell too many and a cell of two lines are drawn below it. -/
theorem drawing_exact_halved :
    let wide := String.ofList (List.replicate 25 '漢')
    let t := [[wide], ["a\nb", "c", "dropped"]].foldl push (ofHeaders ["k", "v"])
    ["k", "v"] ≠ [] ∧ t.rows = [[wide, ""], ["a\nb", "c"]] ∧ Drawn ["k", "v"] t.rows t.render ∧
      Shown wide.toList (List.replicate 18 '漢' ++ ['\uFFFD', '.', '.', '.']) := by
  intro wide t
  have hheaders : ["k", "v"] ≠ [] := by decide
  obtain ⟨-, hdrawn⟩ := (drawing_exact ["k", "v"] hheaders).1 [[wide], ["a\nb", "c", "dropped"]]
  have hfit : fit wide.toList = List.replicate 18 '漢' ++ ['\uFFFD', '.', '.', '.'] := by
    decide +kernel
  exact ⟨hheaders, rfl, hdrawn, hfit ▸ shown_fit wide.toList⟩

end DataClient.TextTable
