import DataClient.Proofs.Json.Entries
import DataClient.Proofs.Json.Positional
import DataClient.Proofs.Table.Records

/-!
# The documents of results

A JSON result is an object with a member for its rows (`Records.InMembers`), or, as every record may be
written, the list of its two fields (`Records.InOrder`). A text has a table exactly if it is one of the
two and what it says is regular (`Records.exists_decode_iff`); no other document has one.
-/

set_option autoImplicit false

namespace DataClient.Records

open Json Json.Reader

/-- The fields of a result, in order. -/
def fields : List (FieldReader Partial) := [
  ⟨"data", fun p => p.data.isSome, fun p => do
    return { p with data := some (← list (dictionary document)) }, false⟩,
  ⟨"rowCount", fun p => p.rowCount.isSome, fun p => do
    return { p with rowCount := some (← optional count) }, false⟩]

/-- The result, or the name of the field that is missing. -/
def Partial.finish (p : Partial) : Except String Result :=
  match p.data with
  | some data => .ok ⟨data, p.rowCount.getD none⟩
  | none => .error "data"

theorem reader_eq : reader = record "JsonResult" fields {} Partial.finish := rfl

theorem readsValue_rows : ReadsValue (list (dictionary document)) :=
  readsValue_list (readsValue_dictionary readsValue_document)

theorem readsValue_fields : ∀ f ∈ fields, ∀ s, ReadsValue (f.read s) := by
  intro f hf s
  rcases List.mem_pair.1 hf with rfl | rfl
  · exact readsValue_rows.bind fun _ => .pure
  · exact (readsValue_optional readsValue_number).bind fun _ => .pure

/-- Only the field for the rows reads rows. -/
theorem keeps_rows : ∀ g ∈ fields, g.name ≠ "data" → ∀ s c s' c', g.read s c = .ok s' c' →
    s'.data = s.data := by
  intro g hg hname s c s' c' h
  rcases List.mem_pair.1 hg with rfl | rfl
  · exact absurd rfl hname
  · obtain ⟨v, c₁, -, h⟩ := Reader.bind_eq_ok.1 h
    cases h
    rfl

/-- The text is an object whose members say `r`, and one of them gives the rows. -/
def InMembers (text : String) (r : Result) : Prop :=
  ∃ lead inner ms trail s, Spaces lead ∧ Spaces inner ∧ Spaces trail ∧ text = objectText lead inner ms trail ∧
    Steps (fieldByName fields) (depthLimit - 1) {} ms s ∧ s.finish = .ok r ∧ ∃ m ∈ ms, m.name = "data"

/-- The text is a list of two items, the rows and how many there should be. -/
def InOrder (text : String) (r : Result) : Prop :=
  ∃ lead inner rows number trail, Spaces lead ∧ Spaces inner ∧ Spaces trail ∧
    text = listText lead inner [rows, number] trail ∧ rows.WellFormed ∧ number.WellFormed ∧
    Takes Delimited (list (dictionary document)) (depthLimit - 1) rows.value r.data ∧
    Takes Delimited (optional count) (depthLimit - 1) number.value r.rowCount

theorem inMembers_iff {text : String} {r : Result} :
    InMembers text r ↔ ∃ s, AsObject fields {} text s ∧ s.finish = .ok r := by
  constructor
  · rintro ⟨lead, inner, ms, trail, s, hlead, hinner, htrail, htext, hsteps, hs, -⟩
    exact ⟨s, ⟨lead, inner, ms, trail, hlead, hinner, htrail, htext, hsteps⟩, hs⟩
  · rintro ⟨s, ⟨lead, inner, ms, trail, hlead, hinner, htrail, htext, hsteps⟩, hs⟩
    refine ⟨lead, inner, ms, trail, s, hlead, hinner, htrail, htext, hsteps, hs, ?_⟩
    have hdata : s.data.isSome = true := by
      unfold Partial.finish at hs
      split at hs
      · rename_i hdata
        rw [hdata]
        rfl
      · cases hs
    exact hsteps.exists_member (p := fun s => s.data.isSome)
      (fun g hg hname s c s' c' h => congrArg Option.isSome (keeps_rows g hg hname s c s' c' h)) rfl hdata

theorem inOrder_iff {text : String} {r : Result} :
    InOrder text r ↔ ∃ s, AsList fields {} text s ∧ s.finish = .ok r := by
  constructor
  · rintro ⟨lead, inner, rows, number, trail, hlead, hinner, htrail, htext, hrows, hnumber, hdata, hcount⟩
    refine ⟨⟨some r.data, some r.rowCount⟩, ⟨lead, inner, _, trail, hlead, hinner, htrail, htext, ?_⟩, rfl⟩
    exact .item hrows hdata.then_pure (.item hnumber hcount.then_pure (.done _ fun f hf => by cases hf))
  · rintro ⟨s, ⟨lead, inner, is, trail, hlead, hinner, htrail, htext, hlisted⟩, hs⟩
    cases hlisted with
    | done _ h => exact absurd (h _ List.mem_cons_self) Bool.false_ne_true
    | item hrows hdata hlisted =>
      cases hlisted with
      | done _ h => exact absurd (h _ List.mem_cons_self) Bool.false_ne_true
      | item hnumber hcount hlisted =>
        cases hlisted with
        | done _ _ =>
          obtain ⟨data, rfl, hdata'⟩ := exists_takes_of_pure readsValue_rows.closed hdata
          obtain ⟨n, rfl, hcount'⟩ := exists_takes_of_pure (readsValue_optional readsValue_number).closed hcount
          cases hs
          exact ⟨lead, inner, _, _, trail, hlead, hinner, htrail, htext, hrows, hnumber, hdata', hcount'⟩

/-- **A result is read from an object with its rows or from a list of two items**, and from nothing else. -/
theorem read_iff {text : String} {r : Result} :
    Json.read reader text = .ok r ↔ InMembers text r ∨ InOrder text r := by
  rw [reader_eq, read_record_iff readsValue_fields, inMembers_iff, inOrder_iff, ← exists_or]
  exact exists_congr fun s => or_and_right

theorem not_blank_of_read {text : String} {r : Result} (h : Json.read reader text = .ok r) :
    ¬ Blank text := by
  intro hblank
  obtain ⟨c, hread, -⟩ := read_eq_ok.1 h
  obtain ⟨lead, x, t, -, htext, hx⟩ := bracket_of_record hread
  have hmem : x ∈ text.toList := by
    rw [show text.toList = lead ++ x :: t from htext]
    simp
  have hx' := hblank x hmem
  rcases hx with rfl | rfl <;> cases hx'

theorem exists_decode_iff {text : String} :
    (∃ t, decode text = .ok t) ↔ ∃ r, (InMembers text r ∨ InOrder text r) ∧ Regular r := by
  constructor
  · rintro ⟨t, ht⟩
    obtain ⟨-, r, hr, hregular, -⟩ := decode_eq_ok.1 ht
    exact ⟨r, read_iff.1 hr, hregular⟩
  · rintro ⟨r, hr, hregular⟩
    have hread := read_iff.2 hr
    obtain ⟨t, ht⟩ := exists_toTable (ordered_of_read hread) hregular
    exact ⟨t, by rw [decode_of_not_blank (not_blank_of_read hread), hread]; exact ht⟩

end DataClient.Records
