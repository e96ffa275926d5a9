import DataClient.Proofs.Json.Holes
import DataClient.Proofs.Resource.Fields
import DataClient.Proofs.Table.Results

/-!
# Where cells stand

Each cell of a JSON result has a place in its text, between two pieces of it: whatever document stands
there is the value of the cell, the result being else the same, and where no document stands the text is
not read (`Place`). Every value that is read from a text has such a place in it (`exists_place`).
-/

set_option autoImplicit false

namespace DataClient.Records

open Json Json.Reader

/-- The result with another value in a row and a column. -/
def Result.put (r : Result) (i : Nat) (name : String) (v : Json) : Result :=
  { r with data := r.data.modify i (insertMember name v) }

/-- Two pieces of a text with something between them. -/
def filled (pre post s : List Char) : String := String.ofList (pre ++ (s ++ post))

/-- Between the two pieces stands the value of a row in a column, in a text that says `r` but for this
value. -/
structure Place (pre post : List Char) (i : Nat) (name : String) (r : Result) : Prop where
  member : ∃ members, r.data[i]? = some members ∧ name ∈ members.map (·.1)
  hole : TextHole reader pre post document (depthLimit - 3) (fun _ => True) (r.put i name)

/-! ## The rows -/

/-- The field for the rows. -/
def rowsField : FieldReader Partial :=
  ⟨"data", fun p => p.data.isSome, fun p => do
    return { p with data := some (← list (dictionary document)) }, false⟩

theorem fails_rowsField {d : Nat} {text : List Char} (p : Partial)
    (h : Fails (list (dictionary document)) d text) : Fails (rowsField.read p) d text := h.bind

/-- The rows of a result that is written as a list are its first item. -/
theorem InOrder.exists_hole {text : String} {r : Result} (h : InOrder text r) :
    ∃ p s q, text = filled p q s ∧ Begun s ∧
      Takes Delimited (list (dictionary document)) (depthLimit - 1) s r.data ∧
      TextHole reader p q (list (dictionary document)) (depthLimit - 1) Begun fun data => ⟨data, r.rowCount⟩ := by
  obtain ⟨lead, inner, rows, number, trail, hlead, hinner, htrail, rfl, hrows, hnumber, hdata, hcount⟩ := h
  have htext (s : List Char) : listText lead inner [{ rows with value := s }, number] trail
      = filled (lead ++ '[' :: (inner ++ rows.lead)) (rows.trail ++ (Item.more [number] ++ ']' :: trail)) s := by
    simp [listText, filled, Item.joined]
  refine ⟨_, rows.value, _, htext rows.value, hrows.value, hdata, fun {s data} hs hdata => ?_,
    fun {s} hs hfails => ?_, delimited_items hrows.trail [number]⟩
  · have hread : InOrder (listText lead inner [{ rows with value := s }, number] trail) ⟨data, r.rowCount⟩ :=
      ⟨lead, inner, _, _, trail, hlead, hinner, htrail, rfl, ⟨hrows.lead, hrows.trail, hs⟩, hnumber, hdata,
        hcount⟩
    rw [htext] at hread
    exact read_iff.2 (.inr hread)
  · have hwell : ({ rows with value := s } : Item).WellFormed := ⟨hrows.lead, hrows.trail, hs⟩
    have hall := @fails_record_first _ _ "JsonResult" {} Partial.finish rowsField fields.tail depthLimit lead
      inner trail hlead hinner _ [number] hwell (fails_rowsField _ hfails)
    rw [show lead ++ '[' :: (inner ++ rows.lead)
        ++ (s ++ (rows.trail ++ (Item.more [number] ++ ']' :: trail)))
      = lead ++ '[' :: (inner ++ (Item.joined [{ rows with value := s }, number] ++ ']' :: trail)) by
        simp [Item.joined]]
    exact not_read_of_fails hall

/-- The number of rows is read without a look at the rows. -/
theorem blind_rows (data : List (List (String × Json))) :
    ∀ g ∈ fields, g.name ≠ rowsField.name →
      Blind (fun p : Partial => { p with data := some data }) g := by
  intro g hg hname
  rcases List.mem_pair.1 hg with rfl | rfl
  · exact absurd rfl hname
  · let put (p : Partial) (v : Option Nat) : Partial := { p with rowCount := some v }
    have hput (p : Partial) (v : Option Nat) :
        ({ put p v with data := some data } : Partial) = put { p with data := some data } v := rfl
    exact .of_put (fun _ => rfl) hput fun _ => rfl

theorem fieldByName_rows {p : Partial} (hunset : p.data.isSome = false) :
    fieldByName fields rowsField.name p = colon >>= fun _ => rowsField.read p := by
  have hfound : fields.find? (·.name == rowsField.name) = some rowsField := rfl
  have hset : rowsField.isSet p = false := hunset
  rw [fieldByName, hfound]
  exact if_neg (by rw [hset]; exact Bool.false_ne_true)

/-- The member for the rows is the only one of its name, and its value gives the rows. Whatever else
stands there leaves the members behind it as they are. -/
theorem rows_of_steps {d : Nat} {p p' : Partial} {m : Member} {post : List Member}
    (hname : m.name = rowsField.name) (h : Steps (fieldByName fields) d p (m :: post) p') :
    p.data.isSome = false ∧
      (∃ data, Takes Delimited (list (dictionary document)) d m.value data ∧ p'.data = some data) ∧
      ∀ data, Steps (fieldByName fields) d { p with data := some data } post
        { p' with data := some data } := by
  cases h with | @cons _ p₁ _ _ _ hm hvalue hpost =>
  rw [hname] at hvalue
  have hunset : p.data.isSome = false := by
    obtain ⟨o', h'⟩ := hvalue 0 _ exists_delimited
    obtain ⟨g, hg, hunset, -⟩ | ⟨hnone, -, -⟩ := fieldByName_eq_ok.1 h'
    · cases hg
      exact hunset
    · cases hnone
  rw [fieldByName_rows hunset] at hvalue
  have hread := takes_behind_colon (readsValue_rows.closed.bind fun _ => .pure) hm.gap hvalue
  obtain ⟨data, rfl, hdata⟩ := exists_takes_of_pure readsValue_rows.closed hread
  -- Behind it the rows are set, so that no further member can be one for them.
  have hnames := hpost.name_ne (f := rowsField) rfl (fun g hg hne s c s' c' h => by
    show s'.data.isSome = s.data.isSome
    rw [keeps_rows g hg hne s c s' c' h]) rfl
  refine ⟨hunset, ⟨data, hdata, hpost.keeps keeps_rows hnames⟩, fun data' => ?_⟩
  refine hpost.map (φ := fun p => { p with data := some data' }) fun q hq g hg => ?_
  have hgname : g.name = q.name := by simpa using List.find?_some hg
  exact blind_rows data' g (List.mem_of_find?_eq_some hg) (hgname ▸ hnames q hq)

/-- The rows of a result that is written as an object are the value of its member for them. -/
theorem InMembers.exists_hole {text : String} {r : Result} (h : InMembers text r) :
    ∃ p s q, text = filled p q s ∧ Takes Delimited (list (dictionary document)) (depthLimit - 1) s r.data ∧
      TextHole reader p q (list (dictionary document)) (depthLimit - 1) (fun _ => True)
        fun data => ⟨data, r.rowCount⟩ := by
  obtain ⟨lead, inner, ms, trail, s, hlead, hinner, htrail, rfl, hsteps, hs, m, hm, hname⟩ := h
  obtain ⟨pre, post, rfl⟩ := List.append_of_mem hm
  obtain ⟨t, hpre, hrest⟩ := steps_append.1 hsteps
  have hm' : m.WellFormed := by
    cases hrest with | cons hm' _ _ => exact hm'
  obtain ⟨hunset, ⟨data, hdata, hlast⟩, hbehind⟩ := rows_of_steps hname hrest
  obtain rfl : r = ⟨data, s.rowCount.getD none⟩ := by
    rw [Partial.finish, hlast] at hs
    cases hs
    rfl
  obtain ⟨p, hp⟩ := Member.exists_text true pre post m
  have htext (v : List Char) : objectText lead inner (pre ++ { m with value := v } :: post) trail
      = filled (lead ++ '{' :: (inner ++ p)) (m.trail ++ (Member.more post ++ '}' :: trail)) v := by
    rw [objectText, show Member.joined _ = _ from hp v]
    simp [filled]
  refine ⟨_, m.value, _, htext m.value, hdata, fun {v data'} _ hdata' => ?_, fun {v} _ hfails => ?_,
    delimited_members hm'.trail post⟩
  · have hstep : Takes Delimited (fieldByName fields m.name t) (depthLimit - 1) (m.gap ++ [':'] ++ v)
        { t with data := some data' } := by
      rw [hname]
      change Takes Delimited (fieldByName fields rowsField.name t) _ _ _
      rw [fieldByName_rows hunset]
      exact (takes_colon hm'.gap _).bind hdata'.then_pure fun _ _ => trivial
    rw [List.append_assoc] at hstep
    have hall := steps_append.2 ⟨t, hpre, .cons (hm'.with_value v) hstep (hbehind data')⟩
    have hread := read_iff.2 (.inl ⟨lead, inner, _, trail, _, hlead, hinner, htrail, rfl, hall, rfl,
      { m with value := v }, by simp, hname⟩)
    rwa [htext] at hread
  · have hall := @fails_record_member _ _ fields "JsonResult" {} Partial.finish rowsField rfl depthLimit lead
      inner trail hlead hinner pre post { m with value := v } t hpre (hm'.with_value v) hname hunset
      (fails_rowsField _ hfails)
    rw [show lead ++ '{' :: (inner ++ p) ++ (v ++ (m.trail ++ (Member.more post ++ '}' :: trail)))
      = lead ++ '{' :: (inner ++ (Member.joined (pre ++ { m with value := v } :: post) ++ '}' :: trail)) by
        rw [show Member.joined _ = _ from hp v]
        simp]
    exact not_read_of_fails hall

/-! ## The cells -/

/-- It can be told from its beginning whether the text is as it should be. -/
def ToldAtStart (F : List Char → Prop) : Prop :=
  ∀ p s s', p ≠ [] → F (p ++ s) → F (p ++ s')

theorem toldAtStart_begun : ToldAtStart Begun := by
  intro p s s' hp h
  obtain ⟨x, t, rfl⟩ := List.exists_cons_of_ne_nil hp
  obtain ⟨y, u, hy, hspace, hclose⟩ := h
  cases hy
  exact ⟨x, t ++ s', rfl, hspace, hclose⟩

/-- The rows that are read from a text stand in a hole of it. -/
theorem exists_hole_rows {text : String} {r : Result} (h : Json.read reader text = .ok r) :
    ∃ F p s q, ToldAtStart F ∧ F s ∧ text = filled p q s ∧
      Takes Delimited (list (dictionary document)) (depthLimit - 1) s r.data ∧
      TextHole reader p q (list (dictionary document)) (depthLimit - 1) F fun data => ⟨data, r.rowCount⟩ := by
  rcases read_iff.1 h with h | h
  · obtain ⟨p, s, q, htext, hdata, hole⟩ := h.exists_hole
    exact ⟨_, p, s, q, fun _ _ _ _ _ => trivial, trivial, htext, hdata, hole⟩
  · obtain ⟨p, s, q, htext, hs, hdata, hole⟩ := h.exists_hole
    exact ⟨_, p, s, q, toldAtStart_begun, hs, htext, hdata, hole⟩

theorem put_eq {r : Result} {i : Nat} {members : List (String × Json)} (hrow : r.data[i]? = some members)
    (name : String) (v : Json) : r.put i name v = ⟨r.data.set i (insertMember name v members), r.rowCount⟩ := by
  have hrows : r.data.modify i (insertMember name v) = r.data.set i (insertMember name v members) := by
    apply List.ext_getElem?
    intro j
    rw [List.getElem?_modify, List.getElem?_set]
    obtain ⟨hi, rfl⟩ := List.getElem?_eq_some_iff.1 hrow
    by_cases hij : i = j
    · subst hij
      simp [hi]
    · simp [hij]
  rw [Result.put, hrows]

/-- **Every value that is read stands in a place of the text.** -/
theorem exists_place {text : String} {r : Result} (h : Json.read reader text = .ok r) {i : Nat}
    {members : List (String × Json)} (hrow : r.data[i]? = some members) {name : String}
    (hname : name ∈ members.map (·.1)) : ∃ pre post s v, text = filled pre post s ∧
      Takes Delimited document (depthLimit - 3) s v ∧ lookup name members = some v ∧
      Place pre post i name r := by
  obtain ⟨F, p, s, q, htold, hF, rfl, hdata, hole⟩ := exists_hole_rows h
  obtain ⟨p', s', q', rfl, hp', hbegun, hmembers, hole'⟩ :=
    exists_hole_list (readsValue_dictionary readsValue_document) hdata hrow
  obtain ⟨p'', s'', q'', v, rfl, hp'', hvalue, hlookup, hole''⟩ :=
    exists_hole_dictionary readsValue_document hmembers hname
  have hall := (hole.comp hole' fun s _ => htold p' _ _ hp' hF).comp hole'' fun s _ =>
    toldAtStart_begun p'' _ _ hp'' hbegun
  refine ⟨p ++ p' ++ p'', q'' ++ (q' ++ q), s'', v, ?_, hvalue, hlookup, ⟨members, hrow, hname⟩, ?_⟩
  · simp [filled]
  · have hput : r.put i name = _ := funext fun v => put_eq hrow name v
    rw [hput]
    exact hall

end DataClient.Records
