import DataClient.Text.Chars
import DataClient.Text.Width

/-!
# Boxed text tables

A text table is a list of headers and rows with exactly one cell for each header. It is drawn as a
box in which every column is as wide as its widest line, within `minWidth` and `maxWidth`, under
which the number of rows is written. A cell with a line that is too wide is cut.
-/

set_option autoImplicit false

namespace DataClient

/-- Columns are at most this wide. -/
def maxWidth : Nat := 40

/-- Columns are at least this wide. -/
def minWidth : Nat := 4

/-- Headers, and rows of as many cells. -/
structure TextTable where
  headers : List String
  rows : List (List String)
  rows_width : ∀ row ∈ rows, row.length = headers.length

namespace TextTable

/-- A list brought to a given length: blanks are added, or cells dropped, at its end. -/
def resize (n : Nat) (cells : List String) : List String :=
  cells.take n ++ List.replicate (n - cells.length) ""

theorem length_resize (n : Nat) (cells : List String) : (resize n cells).length = n := by
  simp [resize]; omega

/-- A table without rows. -/
def ofHeaders (headers : List String) : TextTable := ⟨headers, [], by simp⟩

/-- Adds a row at the end, brought to the number of headers. -/
def push (t : TextTable) (cells : List String) : TextTable where
  headers := t.headers
  rows := t.rows ++ [resize t.headers.length cells]
  rows_width := by
    intro row h
    rcases List.mem_append.1 h with h | h
    · exact t.rows_width row h
    · simp only [List.mem_singleton] at h
      rw [h, length_resize]

/-- Adds rows at the end, each brought to the number of headers. -/
def append (t : TextTable) (rows : List (List String)) : TextTable where
  headers := t.headers
  rows := t.rows ++ rows.map (resize t.headers.length)
  rows_width := by
    intro row h
    rcases List.mem_append.1 h with h | h
    · exact t.rows_width row h
    · obtain ⟨cells, _, rfl⟩ := List.mem_map.1 h
      rw [length_resize]

/-- Adding rows together is adding them one by one. -/
theorem append_eq_foldl_push (t : TextTable) (rows : List (List String)) :
    t.append rows = rows.foldl push t := by
  induction rows generalizing t with
  | nil => simp only [append, List.map_nil, List.append_nil, List.foldl_nil]
  | cons row rest ih =>
    rw [List.foldl_cons, ← ih]
    simp only [append, push, List.map_cons, List.append_assoc, List.cons_append, List.nil_append]

/-- The lines of a cell. -/
def lines (cs : List Char) : List (List Char) := Text.splitChars '\n' cs

/-- The width of the widest line. -/
def blockWidth (cs : List Char) : Nat := (lines cs).foldl (fun w l => max w (Text.lineWidth l)) 0

/-- The mark for each column of a character that was cut in half. -/
def cutMark : Char := Char.ofNat 0xFFFD

/-- The beginning of a text that takes `width` columns. A character that would reach further gives
way to a mark for each column that is left. -/
def cut : (width : Nat) → List Char → List Char
  | _, [] => []
  | 0, _ :: _ => []
  | width + 1, c :: cs =>
    let w := Text.charWidth c
    if width + 1 < w then List.replicate (width + 1) cutMark
    else c :: cut (width + 1 - w) cs

/-- What follows a cut. -/
def ellipsis : List Char := ['.', '.', '.']

/-- A cell as it is drawn: cut if one of its lines is too wide. -/
def fit (cs : List Char) : List Char :=
  if blockWidth cs ≤ maxWidth then cs else cut (maxWidth - ellipsis.length) cs ++ ellipsis

/-- The width of a column with the given cells. -/
def columnWidth (cells : List (List Char)) : Nat :=
  cells.foldl (fun w c => max w (blockWidth c)) minWidth

/-- The cells of a column; rows too short have none. -/
def columnCells (rows : List (List (List Char))) (i : Nat) : List (List Char) :=
  rows.filterMap (·[i]?)

/-- One line of a cell, filled up to the width of its column, with a blank on either side. -/
def drawLine (width : Nat) (line : List Char) : List Char :=
  ' ' :: line ++ List.replicate (width - Text.lineWidth line) ' ' ++ [' ']

/-- A rule between `left` and `right`, with `cross` between the columns. -/
def rule (left cross right : Char) (widths : List Nat) : List Char :=
  left :: ((widths.map fun w => List.replicate (w + 2) '─').intersperse [cross]).flatten ++ [right]

/-- The lines of a row: as many as its tallest cell has. -/
def drawRow (widths : List Nat) (cells : List (List Char)) : List (List Char) :=
  let blocks := cells.map lines
  let height := blocks.foldl (fun h b => max h b.length) 1
  (List.range height).map fun i =>
    '│' :: ((widths.zip blocks).flatMap fun (w, b) => drawLine w (b.getD i []) ++ ['│'])

/-- The lines of the box. The rule under the headers closes a box without rows. -/
def drawBox (headers : List (List Char)) (rows : List (List (List Char))) : List (List Char) :=
  let all := headers :: rows
  let widths := (List.range headers.length).map fun i => columnWidth (columnCells all i)
  rule '┌' '┬' '┐' widths :: drawRow widths headers ++ rule '├' '┼' '┤' widths
    :: (if rows.isEmpty then []
        else rows.flatMap (drawRow widths) ++ [rule '└' '┴' '┘' widths])

/-- The number of rows in words. -/
def footer (n : Nat) : String := toString n ++ " row" ++ (if n = 1 then "" else "s")

def render (t : TextTable) : String :=
  if t.headers.isEmpty then "(empty result)\n"
  else
    let fitted (cells : List String) := cells.map fun s => fit s.toList
    let box := drawBox (fitted t.headers) (t.rows.map fitted)
    String.join (box.map fun l => String.ofList l ++ "\n") ++ footer t.rows.length ++ "\n"

end TextTable

end DataClient
