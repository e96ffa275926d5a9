import DataClient.Proofs.Json.Objects

/-!
# Fields that may be null or left out

A field of a record is loose if null stands for what the record has without it (`Loose`). The value of
a loose field can be replaced by null, or the whole member taken away, in every text that is accepted:
both texts are accepted and say the same (`read_edited`). All that is asked of the other fields is
that they do not notice (`Blind`).
-/

set_option autoImplicit false

namespace DataClient.Json.Reader

variable {α σ : Type}

/-! ## Steps -/

theorem steps_append {member : String → σ → Reader σ} {d : Nat} {s s' : σ} {ms ms' : List Member} :
    Steps member d s (ms ++ ms') s' ↔ ∃ t, Steps member d s ms t ∧ Steps member d t ms' s' := by
  induction ms generalizing s with
  | nil =>
    constructor
    · exact fun h => ⟨s, .nil s, h⟩
    · rintro ⟨t, h, h'⟩
      cases h
      exact h'
  | cons m ms ih =>
    constructor
    · intro h
      cases h with | cons hm hv hms =>
        obtain ⟨t, ht, ht'⟩ := ih.1 hms
        exact ⟨t, .cons hm hv ht, ht'⟩
    · rintro ⟨t, h, h'⟩
      cases h with | cons hm hv hms => exact .cons hm hv (ih.2 ⟨t, hms, h'⟩)

/-- The field does not notice a change of the state. -/
structure Blind (φ : σ → σ) (g : FieldReader σ) : Prop where
  read : ∀ s c s' c', g.read s c = .ok s' c' → g.read (φ s) c = .ok (φ s') c'
  isSet : ∀ s, g.isSet (φ s) = g.isSet s

variable {fields : List (FieldReader σ)}

theorem fieldByName_eq_ok {k : String} {s s' : σ} {c c' : Cursor} :
    fieldByName fields k s c = .ok s' c' ↔
      (∃ f, fields.find? (·.name == k) = some f ∧ f.isSet s = false ∧
        (colon >>= fun _ => f.read s) c = .ok s' c') ∨
      (fields.find? (·.name == k) = none ∧ s' = s ∧ (colon >>= fun _ => skipValue) c = .ok () c') := by
  unfold fieldByName
  cases hfind : fields.find? (·.name == k) with
  | some f =>
    cases hset : f.isSet s with
    | true => simp [refuses_failShape _ c s' c', hset]
    | false => simp [hset]
  | none =>
    constructor
    · intro h
      obtain ⟨u, c₁, hcolon, h⟩ := bind_eq_ok.1 h
      obtain ⟨v, c₂, hskip, h⟩ := bind_eq_ok.1 h
      cases h
      exact .inr ⟨rfl, rfl, bind_eq_ok.2 ⟨u, c₁, hcolon, hskip⟩⟩
    · rintro (⟨f, hf, -⟩ | ⟨-, rfl, h⟩)
      · cases hf
      · obtain ⟨u, c₁, hcolon, hskip⟩ := bind_eq_ok.1 h
        exact bind_eq_ok.2 ⟨u, c₁, hcolon, bind_eq_ok.2 ⟨(), c', hskip, rfl⟩⟩

/-- Members of fields that do not notice a change are read after it as before. -/
theorem Steps.map {φ : σ → σ} {d : Nat} {s s' : σ} {ms : List Member}
    (h : Steps (fieldByName fields) d s ms s')
    (hblind : ∀ m ∈ ms, ∀ g, fields.find? (·.name == m.name) = some g → Blind φ g) :
    Steps (fieldByName fields) d (φ s) ms (φ s') := by
  induction h with
  | nil s => exact .nil _
  | @cons s s₁ s' m ms hm hvalue hms ih =>
    obtain ⟨hhead, htail⟩ := List.forall_mem_cons.1 hblind
    refine .cons hm (fun o rest hrest => ?_) (ih htail)
    obtain ⟨o', h'⟩ := hvalue o rest hrest
    refine ⟨o', fieldByName_eq_ok.2 ?_⟩
    rcases fieldByName_eq_ok.1 h' with ⟨g, hg, hset, h⟩ | ⟨hnone, rfl, h⟩
    · obtain ⟨u, c₁, hcolon, hread⟩ := bind_eq_ok.1 h
      have hg' := hhead g hg
      exact .inl ⟨g, hg, (hg'.isSet s).trans hset,
        bind_eq_ok.2 ⟨u, c₁, hcolon, hg'.read _ _ _ _ hread⟩⟩
    · exact .inr ⟨hnone, rfl, h⟩

theorem exists_delimited : Delimited [','] := ⟨',', [], rfl, rfl⟩

/-- What only members of one name change stays as it is without them. -/
theorem Steps.keeps {β : Type} {k : String} {π : σ → β} (hkeeps : ∀ g ∈ fields, g.name ≠ k →
      ∀ s c s' c', g.read s c = .ok s' c' → π s' = π s) {d : Nat} {s s' : σ} {ms : List Member}
    (h : Steps (fieldByName fields) d s ms s') (hnames : ∀ m ∈ ms, m.name ≠ k) : π s' = π s := by
  induction h with
  | nil s => rfl
  | @cons s s₁ s' m ms hm hvalue hms ih =>
    obtain ⟨hname, hnames⟩ := List.forall_mem_cons.1 hnames
    rw [ih hnames]
    obtain ⟨o', h'⟩ := hvalue 0 _ exists_delimited
    rcases fieldByName_eq_ok.1 h' with ⟨g, hg, -, h⟩ | ⟨-, rfl, -⟩
    · obtain ⟨u, c₁, -, hread⟩ := bind_eq_ok.1 h
      have hgname : g.name = m.name := by simpa using List.find?_some hg
      exact hkeeps g (List.mem_of_find?_eq_some hg) (hgname ▸ hname) _ _ _ _ hread
    · rfl

/-- What only members of one name establish is established by such a member. -/
theorem Steps.exists_member {k : String} {p : σ → Bool} (hkeeps : ∀ g ∈ fields, g.name ≠ k →
      ∀ s c s' c', g.read s c = .ok s' c' → p s' = p s) {d : Nat} {s s' : σ} {ms : List Member}
    (h : Steps (fieldByName fields) d s ms s') (hs : p s = false) (hs' : p s' = true) :
    ∃ m ∈ ms, m.name = k := by
  by_contra hnone
  have hsame := h.keeps hkeeps fun m hm hname => hnone ⟨m, hm, hname⟩
  rw [hs, hs'] at hsame
  cases hsame

/-- Once a field has a value there is no further member of its name. -/
theorem Steps.name_ne {f : FieldReader σ} (hfound : fields.find? (·.name == f.name) = some f)
    (hkeeps : ∀ g ∈ fields, g.name ≠ f.name → ∀ s c s' c', g.read s c = .ok s' c' → f.isSet s' = f.isSet s)
    {d : Nat} {s s' : σ} {ms : List Member} (h : Steps (fieldByName fields) d s ms s')
    (hset : f.isSet s = true) : ∀ m ∈ ms, m.name ≠ f.name := by
  induction h with
  | nil s => exact fun m hm => by cases hm
  | @cons s s₁ s' m ms hm hvalue hms ih =>
    obtain ⟨o', h'⟩ := hvalue 0 _ exists_delimited
    have hne : m.name ≠ f.name ∧ f.isSet s₁ = true := by
      rcases fieldByName_eq_ok.1 h' with ⟨g, hg, hunset, h⟩ | ⟨hnone, rfl, h⟩
      · have hname : m.name ≠ f.name := by
          intro hname
          rw [hname, hfound] at hg
          cases hg
          rw [hset] at hunset
          cases hunset
        obtain ⟨u, c₁, -, hread⟩ := bind_eq_ok.1 h
        have hgname : g.name = m.name := by simpa using List.find?_some hg
        have hkept := hkeeps g (List.mem_of_find?_eq_some hg) (hgname ▸ hname) _ _ _ _ hread
        exact ⟨hname, hkept.trans hset⟩
      · refine ⟨fun hname => ?_, hset⟩
        rw [hname, hfound] at hnone
        cases hnone
    exact List.forall_mem_cons.2 ⟨hne.1, ih hne.2⟩

/-! ## Loose fields -/

/-- The field does not notice null in another one, nor its absence, and does not set it. -/
structure Apart (isSet : σ → Bool) (null blank : σ → σ) (g : FieldReader σ) : Prop where
  null : Blind null g
  blank : Blind blank g
  keeps : ∀ s c s' c', g.read s c = .ok s' c' → isSet s' = isSet s

/-- Null in a field says the same as leaving the field out: `null` and `blank` are what they make of a
state. -/
structure Loose (fields : List (FieldReader σ)) (finish : σ → Except String α) (f : FieldReader σ)
    (null blank : σ → σ) : Prop where
  found : fields.find? (·.name == f.name) = some f
  blank_eq : ∀ s, f.isSet s = false → blank s = s
  read : ∀ s c s' c', f.read s c = .ok s' c' → f.isSet s' = true ∧ null s' = null s ∧ blank s' = blank s
  read_null : ∀ s d, Takes (fun _ => True) (f.read s) d ['n', 'u', 'l', 'l'] (null s)
  others : ∀ g ∈ fields, g.name ≠ f.name → Apart f.isSet null blank g
  finish_eq : ∀ s, finish (null s) = finish (blank s)
  finish_ok : ∀ s a, finish s = .ok a → ∃ a', finish (blank s) = .ok a'

section Loose

variable {finish : σ → Except String α} {f : FieldReader σ} {null blank : σ → σ}

/-- **Null in a loose field, or no such member at all, is read alike.** -/
theorem Loose.edit (hf : Loose fields finish f null blank) {d : Nat} {s₀ s : σ} {pre post : List Member}
    {m : Member} {a : α} (h : Steps (fieldByName fields) d s₀ (pre ++ m :: post) s)
    (hs : finish s = .ok a) (hm : m.name = f.name) :
    ∃ a' s₁ s₂,
      Steps (fieldByName fields) d s₀ (pre ++ { m with value := ['n', 'u', 'l', 'l'] } :: post) s₁ ∧
      finish s₁ = .ok a' ∧ Steps (fieldByName fields) d s₀ (pre ++ post) s₂ ∧ finish s₂ = .ok a' := by
  obtain ⟨t, hpre, hrest⟩ := steps_append.1 h
  cases hrest with | @cons _ t' _ _ _ hm' hvalue hpost =>
    obtain ⟨o', h'⟩ := hvalue 0 _ exists_delimited
    obtain ⟨g, hg, hunset, hread⟩ | ⟨hnone, -, -⟩ := fieldByName_eq_ok.1 h'
    · rw [hm, hf.found] at hg
      cases hg
      obtain ⟨u, c₁, hcolon, hread⟩ := bind_eq_ok.1 hread
      obtain ⟨hset, hnull, hblank⟩ := hf.read _ _ _ _ hread
      rw [hf.blank_eq t hunset] at hblank
      have hapart : ∀ p ∈ post, ∀ g, fields.find? (·.name == p.name) = some g →
          Apart f.isSet null blank g := by
        intro p hp g hg
        have hgname : g.name = p.name := by simpa using List.find?_some hg
        have hname := hpost.name_ne hf.found (fun g hg hne => (hf.others g hg hne).keeps) hset p hp
        exact hf.others g (List.mem_of_find?_eq_some hg) (hgname ▸ hname)
      have hpost₁ := hpost.map fun p hp g hg => (hapart p hp g hg).null
      have hpost₂ := hpost.map fun p hp g hg => (hapart p hp g hg).blank
      rw [hnull] at hpost₁
      rw [hblank] at hpost₂
      obtain ⟨a', ha'⟩ := hf.finish_ok s a hs
      refine ⟨a', null s, blank s, steps_append.2 ⟨t, hpre, .cons ⟨hm'.lead, hm'.gap, hm'.trail, hm'.key⟩
        ?_ hpost₁⟩, (hf.finish_eq s).trans ha', steps_append.2 ⟨t, hpre, hpost₂⟩, ha'⟩
      have htakes := (takes_colon hm'.gap d).bind (f := fun _ => f.read t) (hf.read_null t d)
        fun _ _ => trivial
      rw [List.append_assoc, List.singleton_append] at htakes
      intro o rest _
      obtain ⟨o', h'⟩ := htakes o rest trivial
      refine ⟨o', fieldByName_eq_ok.2 (.inl ⟨f, hm ▸ hf.found, hunset, h'⟩)⟩
    · rw [hm, hf.found] at hnone
      cases hnone

end Loose

/-! ## Texts of objects -/

/-- The text of an object with the given members, and spaces around it. -/
def objectText (lead inner : List Char) (ms : List Member) (trail : List Char) : String :=
  String.ofList (lead ++ '{' :: (inner ++ (Member.joined ms ++ '}' :: trail)))

/-- The text is an object, which may have spaces before it. -/
def IsObject (text : String) : Prop := ∃ lead t, Spaces lead ∧ text.toList = lead ++ '{' :: t

section Objects

variable {name : String} {empty : σ} {finish : σ → Except String α}

theorem read_objectText {lead inner trail : List Char} (hlead : Spaces lead) (hinner : Spaces inner)
    (htrail : Spaces trail) {ms : List Member} {s : σ} {a : α}
    (h : Steps (fieldByName fields) (depthLimit - 1) empty ms s) (hs : finish s = .ok a) :
    read (record name fields empty finish) (objectText lead inner ms trail) = .ok a := by
  have hdepth : 1 < depthLimit := by decide
  have htakes := @takes_record _ _ _ name _ _ _ hdepth _ _ _ hlead hinner .nil _ _ _ h hs
  have htext : lead ++ '{' :: (inner ++ (Member.joined ms ++ '}' :: trail))
      = lead ++ '{' :: (inner ++ (Member.joined ms ++ []) ++ ['}']) ++ trail := by simp
  unfold objectText
  rw [htext]
  exact read_of_takes htakes htrail

/-- **A member of a loose field says nothing that null in its place, or its absence, would not.** An
accepted object is read member by member; whatever the field held before, both edited texts are
accepted, and as the same. -/
theorem read_edited (hfields : ∀ f ∈ fields, ∀ s, ReadsValue (f.read s)) {text : String} {a : α}
    (hobject : IsObject text) (h : read (record name fields empty finish) text = .ok a) :
    ∃ lead inner ms trail s, text = objectText lead inner ms trail ∧
      Steps (fieldByName fields) (depthLimit - 1) empty ms s ∧ finish s = .ok a ∧
      ∀ pre m post f null blank, ms = pre ++ m :: post → m.name = f.name →
        Loose fields finish f null blank → ∃ a',
          read (record name fields empty finish)
            (objectText lead inner (pre ++ { m with value := ['n', 'u', 'l', 'l'] } :: post) trail)
            = .ok a' ∧
          read (record name fields empty finish) (objectText lead inner (pre ++ post) trail)
            = .ok a' := by
  obtain ⟨c, hread, htrail⟩ := read_eq_ok.1 h
  obtain ⟨lead, t, hlead, htext⟩ := hobject
  obtain ⟨-, inner, ms, s, hinner, ht, hsteps, hs⟩ := record_eq_ok hfields hlead htext hread
  refine ⟨lead, inner, ms, c.rest, s, ?_, hsteps, hs, fun pre m post f null blank hms hname hf => ?_⟩
  · rw [objectText, ← ht, ← htext, String.ofList_toList]
  · subst hms
    obtain ⟨a', s₁, s₂, h₁, ha₁, h₂, ha₂⟩ := hf.edit hsteps hs hname
    exact ⟨a', read_objectText hlead hinner htrail h₁ ha₁, read_objectText hlead hinner htrail h₂ ha₂⟩

end Objects

end DataClient.Json.Reader
