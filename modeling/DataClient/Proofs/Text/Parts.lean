import DataClient.Text.Chars
import Mathlib.Tactic.SplitIfs

/-!
# Parts of a text

A text is split where a separator stands. Between the separators the parts are as they were, none of
them has a separator in it, and putting texts together at a separator puts their parts together.
-/

set_option autoImplicit false

namespace DataClient

namespace Text

theorem splitChars_ne_nil (sep : Char) (cs : List Char) : splitChars sep cs ≠ [] := by
  intro h
  cases cs with
  | nil => exact absurd h (List.cons_ne_nil _ _)
  | cons c cs =>
    rw [splitChars] at h
    split at h
    · exact absurd h (List.cons_ne_nil _ _)
    · split_ifs at h

variable {sep : Char}

theorem splitChars_cons {c : Char} {cs part : List Char} {parts : List (List Char)}
    (h : splitChars sep cs = part :: parts) :
    splitChars sep (c :: cs) = if c = sep then [] :: part :: parts else (c :: part) :: parts := by
  rw [splitChars, h]

theorem splitChars_sep (cs : List Char) : splitChars sep (sep :: cs) = [] :: splitChars sep cs := by
  obtain ⟨part, parts, h⟩ := List.exists_cons_of_ne_nil (splitChars_ne_nil sep cs)
  rw [splitChars_cons h, if_pos rfl, h]

theorem splitChars_append {cs rest part : List Char} {parts : List (List Char)} (hcs : sep ∉ cs)
    (h : splitChars sep rest = part :: parts) :
    splitChars sep (cs ++ rest) = (cs ++ part) :: parts := by
  induction cs with
  | nil => exact h
  | cons c cs ih =>
    obtain ⟨hc, hcs⟩ := not_or.1 (mt List.mem_cons.2 hcs)
    rw [List.cons_append, splitChars_cons (ih hcs), if_neg (Ne.symm hc), List.cons_append]

theorem splitChars_of_not_mem {cs : List Char} (h : sep ∉ cs) : splitChars sep cs = [cs] := by
  have hnil : splitChars sep [] = [[]] := rfl
  have := splitChars_append h hnil
  rwa [List.append_nil] at this

/-- A text that is put together at a separator has the parts of both sides. -/
theorem splitChars_append_sep (cs rest : List Char) :
    splitChars sep (cs ++ sep :: rest) = splitChars sep cs ++ splitChars sep rest := by
  induction cs with
  | nil => rw [List.nil_append, splitChars_sep]; rfl
  | cons c cs ih =>
    obtain ⟨part, parts, h⟩ := List.exists_cons_of_ne_nil (splitChars_ne_nil sep cs)
    rw [h, List.cons_append] at ih
    rw [List.cons_append, splitChars_cons ih, splitChars_cons h]
    split_ifs <;> rfl

/-- Parts with a separator behind each are read back, and then what follows. -/
theorem splitChars_flatMap {parts : List (List Char)} (h : ∀ part ∈ parts, sep ∉ part)
    (rest : List Char) :
    splitChars sep (parts.flatMap (· ++ [sep]) ++ rest) = parts ++ splitChars sep rest := by
  induction parts with
  | nil => rfl
  | cons part parts ih =>
    obtain ⟨hpart, hparts⟩ := List.forall_mem_cons.1 h
    rw [List.flatMap_cons, List.append_assoc, List.append_assoc, List.singleton_append,
      splitChars_append_sep, splitChars_of_not_mem hpart, ih hparts]
    rfl

theorem sep_not_mem_splitChars (cs : List Char) : ∀ part ∈ splitChars sep cs, sep ∉ part := by
  induction cs with
  | nil =>
    intro part hpart
    rw [List.mem_singleton.1 hpart]
    exact List.not_mem_nil
  | cons c cs ih =>
    obtain ⟨first, parts, h⟩ := List.exists_cons_of_ne_nil (splitChars_ne_nil sep cs)
    rw [h] at ih
    obtain ⟨hfirst, hparts⟩ := List.forall_mem_cons.1 ih
    rw [splitChars_cons h]
    split_ifs with hc
    · exact List.forall_mem_cons.2 ⟨List.not_mem_nil, ih⟩
    · refine List.forall_mem_cons.2 ⟨?_, hparts⟩
      rw [List.mem_cons]
      exact not_or.2 ⟨Ne.symm hc, hfirst⟩

theorem mem_of_mem_splitChars {c : Char} {cs part : List Char} (hpart : part ∈ splitChars sep cs)
    (hc : c ∈ part) : c ∈ cs := by
  induction cs generalizing part with
  | nil =>
    rw [List.mem_singleton.1 hpart] at hc
    exact absurd hc List.not_mem_nil
  | cons d cs ih =>
    obtain ⟨first, parts, h⟩ := List.exists_cons_of_ne_nil (splitChars_ne_nil sep cs)
    rw [h] at ih
    rw [splitChars_cons h] at hpart
    split_ifs at hpart
    · rcases List.mem_cons.1 hpart with rfl | hpart
      · exact absurd hc List.not_mem_nil
      · exact List.mem_cons_of_mem d (ih hpart hc)
    · rcases List.mem_cons.1 hpart with rfl | hpart
      · rcases List.mem_cons.1 hc with rfl | hc
        · exact List.mem_cons_self
        · exact List.mem_cons_of_mem d (ih List.mem_cons_self hc)
      · exact List.mem_cons_of_mem d (ih (List.mem_cons_of_mem first hpart) hc)

end Text

end DataClient
