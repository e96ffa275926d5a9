import DataClient.Proofs.Json.Scalars

/-!
# Documents in any layout

Compact and indented documents differ in spaces only: `written` is a document in a layout, and
`toList_compact` and `toList_indented` say that the two writers are this with two layouts. A reader
reads a document if it reads it in every layout (`Reads`), so that each reader is shown to read back
what it is meant to once for both writers.
-/

set_option autoImplicit false

namespace DataClient.Json

open Reader (Spaces)

/-- Where spaces stand in a document. -/
structure Layout where
  /-- What stands before an item or a member, or before the bracket that closes them, at a level of
  nesting. -/
  line : Nat → List Char
  /-- What stands between a colon and a value. -/
  gap : List Char
  line_spaces : ∀ level, Spaces (line level)
  gap_spaces : Spaces gap

/-- No spaces at all. -/
def Layout.dense : Layout := ⟨fun _ => [], [], fun _ => .nil, .nil⟩

/-- A line for each item and each member. -/
def Layout.lines : Layout where
  line level := '\n' :: List.replicate (2 * level) ' '
  gap := [' ']
  line_spaces _ := List.forall_mem_cons.2 ⟨rfl, fun _ hx => (List.eq_of_mem_replicate hx) ▸ rfl⟩
  gap_spaces := List.forall_mem_cons.2 ⟨rfl, Reader.Spaces.nil⟩

/-- Behind the quote that opens a string. -/
def quoted (s : String) : List Char := s.toList.flatMap writeChar ++ ['"']

/-- A member with the text of its value. -/
def Layout.member (l : Layout) (level : Nat) (key : String) (value : List Char) : Member :=
  ⟨l.line level, quoted key, key, [], l.gap ++ value, []⟩

mutual

/-- A document in a layout. -/
def written (l : Layout) (level : Nat) : Json → List Char
  | .null => ['n', 'u', 'l', 'l']
  | .bool b => if b then ['t', 'r', 'u', 'e'] else ['f', 'a', 'l', 's', 'e']
  | .number n => n.write.toList
  | .string s => '"' :: quoted s
  | .array items =>
    '[' :: (writtenItems l (level + 1) true items ++ (if items.isEmpty then [] else l.line level)
      ++ [']'])
  | .object ms =>
    '{' :: (Member.joined (writtenMembers l (level + 1) ms)
      ++ (if ms.isEmpty then [] else l.line level) ++ ['}'])

/-- Items, with commas between them. -/
def writtenItems (l : Layout) (level : Nat) : (first : Bool) → List Json → List Char
  | _, [] => []
  | first, x :: xs =>
    (if first then [] else [',']) ++ (l.line level ++ (written l level x ++ writtenItems l level false xs))

/-- Members as they are written. -/
def writtenMembers (l : Layout) (level : Nat) : List (String × Json) → List Member
  | [] => []
  | (k, v) :: ms => l.member level k (written l level v) :: writtenMembers l level ms

end

mutual

/-- **A compact document has no spaces.** -/
theorem toList_compact (level : Nat) : (j : Json) → j.compact.toList = written .dense level j
  | .null => rfl
  | .bool true => rfl
  | .bool false => rfl
  | .number _ => rfl
  | .string s => Reader.toList_writeString s
  | .array items => by
    have hitems := toList_compactItems (level + 1) items
    cases h : items.isEmpty <;>
      simp [compact, written, hitems, h, Layout.dense]
  | .object ms => by
    have hmembers := toList_compactMembers (level + 1) ms
    cases h : ms.isEmpty <;>
      simp [compact, written, hmembers, h, Layout.dense]

theorem toList_compactItems (level : Nat) : (items : List Json) →
    (compactItems items).toList = writtenItems .dense level true items
  | [] => rfl
  | x :: xs => by
    simp [compactItems, writtenItems, toList_compact level x, toList_compactMoreItems level xs,
      Layout.dense]

theorem toList_compactMoreItems (level : Nat) : (items : List Json) →
    (compactMoreItems items).toList = writtenItems .dense level false items
  | [] => rfl
  | x :: xs => by
    simp [compactMoreItems, writtenItems, toList_compact level x, toList_compactMoreItems level xs,
      Layout.dense]

theorem toList_compactMembers (level : Nat) : (ms : List (String × Json)) →
    (compactMembers ms).toList = Member.joined (writtenMembers .dense level ms)
  | [] => rfl
  | (k, v) :: ms => by
    simp [compactMembers, writtenMembers, toList_compact level v, toList_compactMoreMembers level ms,
      Reader.toList_writeString, Member.joined, Member.front, quoted,
      Layout.member, Layout.dense]

theorem toList_compactMoreMembers (level : Nat) : (ms : List (String × Json)) →
    (compactMoreMembers ms).toList = Member.more (writtenMembers .dense level ms)
  | [] => rfl
  | (k, v) :: ms => by
    simp [compactMoreMembers, writtenMembers, toList_compact level v, toList_compactMoreMembers level ms,
      Reader.toList_writeString, Member.more, Member.front, quoted,
      Layout.member, Layout.dense]

end

theorem toList_indent (level : Nat) : (indent level).toList = Layout.lines.line level := by
  simp [indent, Layout.lines]

mutual

/-- **An indented document has a line for each item and each member.** -/
theorem toList_indented (level : Nat) : (j : Json) → (j.indented level).toList = written .lines level j
  | .null => by simp [indented, written]
  | .bool b => by cases b <;> simp [indented, written]
  | .number _ => by simp [indented, written]
  | .string s => by simp [indented, written, Reader.toList_writeString, quoted]
  | .array [] => by simp [indented, written, writtenItems]
  | .array (x :: xs) => by
    simp [indented, written, writtenItems, toList_indent, toList_indented (level + 1) x,
      toList_indentedItems (level + 1) xs]
  | .object [] => by simp [indented, written, writtenMembers, Member.joined]
  | .object ((k, v) :: ms) => by
    simp [indented, written, writtenMembers, toList_indent, toList_indented (level + 1) v,
      toList_indentedMembers (level + 1) ms, Reader.toList_writeString, Member.joined, Member.front,
      quoted, Layout.member, Layout.lines]

theorem toList_indentedItems (level : Nat) : (items : List Json) →
    (indentedItems level items).toList = writtenItems .lines level false items
  | [] => rfl
  | x :: xs => by
    simp [indentedItems, writtenItems, toList_indent, toList_indented level x,
      toList_indentedItems level xs]

theorem toList_indentedMembers (level : Nat) : (ms : List (String × Json)) →
    (indentedMembers level ms).toList = Member.more (writtenMembers .lines level ms)
  | [] => rfl
  | (k, v) :: ms => by
    simp [indentedMembers, writtenMembers, toList_indent, toList_indented level v,
      toList_indentedMembers level ms, Reader.toList_writeString, Member.more, Member.front,
      quoted, Layout.member, Layout.lines]

end

end DataClient.Json
