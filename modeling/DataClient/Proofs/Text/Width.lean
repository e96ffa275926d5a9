import DataClient.Proofs.Text.Parts
import DataClient.Text.Width

/-!
# Widths of lines

The width of a line is the sum of the widths of its characters, each at most two, so parts of a line
are no wider than the line.
-/

set_option autoImplicit false

namespace DataClient.Text

@[simp] theorem lineWidth_nil : lineWidth [] = 0 := rfl

@[simp] theorem lineWidth_cons (c : Char) (cs : List Char) :
    lineWidth (c :: cs) = charWidth c + lineWidth cs := by
  -- The fold adds to what it began with.
  have hbegin (n : Nat) : cs.foldl (fun n c => n + charWidth c) n = n + lineWidth cs := by
    unfold lineWidth
    induction cs generalizing n with
    | nil => rfl
    | cons d ds ih => rw [List.foldl_cons, List.foldl_cons, ih, ih (0 + _)]; omega
  rw [lineWidth, List.foldl_cons, hbegin]
  omega

@[simp] theorem lineWidth_append (cs ds : List Char) :
    lineWidth (cs ++ ds) = lineWidth cs + lineWidth ds := by
  induction cs with
  | nil => simp
  | cons c cs ih => simp [ih]; omega

theorem lineWidth_replicate {c : Char} (hc : charWidth c = 1) (n : Nat) :
    lineWidth (List.replicate n c) = n := by
  induction n with
  | zero => rfl
  | succ n ih => rw [List.replicate_succ, lineWidth_cons, hc, ih]; omega

theorem charWidth_le_two (c : Char) : charWidth c ≤ 2 := by
  unfold charWidth
  dsimp only
  split
  · omega
  · split
    · omega
    · split <;> omega

/-- No part of a text is wider than all of it. -/
theorem lineWidth_le_of_mem_splitChars {sep : Char} {cs part : List Char}
    (hpart : part ∈ splitChars sep cs) : lineWidth part ≤ lineWidth cs := by
  induction cs generalizing part with
  | nil =>
    obtain rfl := List.mem_singleton.1 hpart
    exact Nat.le_refl _
  | cons c cs ih =>
    obtain ⟨first, parts, h⟩ := List.exists_cons_of_ne_nil (splitChars_ne_nil sep cs)
    rw [h] at ih
    rw [splitChars_cons h] at hpart
    rw [lineWidth_cons]
    split_ifs at hpart
    · rcases List.mem_cons.1 hpart with rfl | hpart
      · exact Nat.zero_le _
      · exact Nat.le_add_left_of_le (ih hpart)
    · rcases List.mem_cons.1 hpart with rfl | hpart
      · rw [lineWidth_cons]
        exact Nat.add_le_add_left (ih List.mem_cons_self) _
      · exact Nat.le_add_left_of_le (ih (List.mem_cons_of_mem first hpart))

end DataClient.Text
