import DataClient.Proofs.Json.Items
import DataClient.Proofs.Json.Loose

/-!
# Records written as lists

A record is written as an object, or as the list of its fields in their order (`Listed`). There is no
third way, and both are read exactly as far as the fields are: a text is read as a record if and only if
it is an object whose members can be read one by one or a list whose items can
(`read_record_iff`).
-/

set_option autoImplicit false

namespace DataClient.Json

namespace Reader

variable {α σ : Type}

/-- The fields are read from the items, one from each; those that are left over may be left out. -/
inductive Listed (d : Nat) : List (FieldReader σ) → σ → List Item → σ → Prop
  | done {fs : List (FieldReader σ)} (s : σ) (h : ∀ f ∈ fs, f.mayEnd = true) : Listed d fs s [] s
  | item {f : FieldReader σ} {fs : List (FieldReader σ)} {s s' s'' : σ} {i : Item} {is : List Item}
    (hi : i.WellFormed) (h : Takes Delimited (f.read s) d i.value s') (his : Listed d fs s' is s'') :
    Listed d (f :: fs) s (i :: is) s''

/-! ## What is read is a list of items -/

/-- Fields that are left out at the end of a list change nothing. -/
theorem rest_eq_ok {expected : String} {fs : List (FieldReader σ)} {s s' : σ} {j : Nat} {c c' : Cursor}
    (h : fieldsInOrder.rest expected s fs j c = .ok s' c') :
    s' = s ∧ c' = c ∧ ∀ f ∈ fs, f.mayEnd = true := by
  induction fs generalizing j with
  | nil =>
    cases h
    exact ⟨rfl, rfl, fun f hf => by cases hf⟩
  | cons f fs ih =>
    unfold fieldsInOrder.rest at h
    split_ifs at h with hend
    · obtain ⟨hs, hc, hall⟩ := ih h
      exact ⟨hs, hc, List.forall_mem_cons.2 ⟨hend, hall⟩⟩
    · exact absurd h (refuses_failShape _ _ _ _)

/-- **Whatever is read as fields in their order is a list of items.** -/
theorem listed_of_fieldsInOrder {expected : String} {fs : List (FieldReader σ)}
    (hfields : ∀ f ∈ fs, ∀ s, ReadsValue (f.read s)) {i d : Nat} {s s' : σ} {c c' c'' : Cursor} {u : Unit}
    (h : fieldsInOrder expected fs i s c = .ok s' c')
    (hclose : closeList { c' with depth := d } = .ok u c'') :
    ∃ sp is, Spaces sp ∧ c.rest = sp ++ (Item.text (i = 0) is ++ ']' :: c''.rest) ∧
      Listed c.depth fs s is s' := by
  induction fs generalizing i s c with
  | nil =>
    cases h
    obtain ⟨sp, hsp, hrest⟩ := closeList_eq_ok hclose
    refine ⟨sp, [], hsp, ?_, .done _ fun f hf => by cases hf⟩
    cases i <;> exact hrest
  | cons f fs ih =>
    unfold fieldsInOrder at h
    obtain ⟨more, c₁, hmore, h⟩ := bind_eq_ok.1 h
    obtain ⟨hd₁, sp, hsp, hmore⟩ := moreItems_eq_ok hmore
    cases more with
    | false =>
      -- The list ends here, and what is left of the fields may be left out.
      obtain ⟨rfl, rfl, hall⟩ := rest_eq_ok h
      obtain ⟨sp', hsp', hrest'⟩ := closeList_eq_ok hclose
      have hrest' : c'.rest = sp' ++ ']' :: c''.rest := hrest'
      refine ⟨sp ++ sp', [], hsp.append hsp', ?_, .done s' hall⟩
      rw [hmore.2, hrest', ← List.append_assoc]
      cases i <;> rfl
    | true =>
      obtain ⟨⟨x, t, hx, hspace, hbracket⟩, lead, hlead, hrest, hfirst⟩ := hmore
      obtain ⟨hf, hfs⟩ := List.forall_mem_cons.1 hfields
      obtain ⟨s₁, c₂, hread, h⟩ := bind_eq_ok.1 h
      -- As for items, the text behind a value is known before the value itself.
      obtain ⟨trail, is, htrail, hrest₂, his⟩ := ih hfs h
      have hnext : decide (i + 1 = 0) = false := by simp
      rw [hnext] at hrest₂
      obtain ⟨hd₂, value, hvalue, htakes⟩ := (hf s).closed.takes hread (hrest₂ ▸ delimited_items htrail is)
      have hlt := (hf s).length_lt hread
      obtain ⟨v, rfl⟩ := exists_cons_of_append hx hvalue hlt
      rw [hd₁] at htakes hd₂
      rw [hd₂] at his
      refine ⟨sp, ⟨lead, x :: v, trail⟩ :: is, hsp, ?_,
        .item ⟨hlead, htrail, x, v, rfl, hspace, hbracket⟩ htakes his⟩
      rw [hrest, hvalue, hrest₂]
      cases i with
      | zero => simp [Item.text, Item.joined]
      | succ i => simp [Item.text, Item.more]

/-! ## A list of items is read -/

/-- The end of a list is reached, up to spaces, when the fields have been read from its items. -/
theorem Listed.fieldsInOrder {expected : String} {fs : List (FieldReader σ)} {d : Nat} {s s' : σ}
    {is : List Item} (h : Listed d fs s is s') {sp : List Char} (hsp : Spaces sp) (i o : Nat)
    (t : List Char) : ∃ o' sp', Spaces sp' ∧
      fieldsInOrder expected fs i s ⟨o, sp ++ (Item.text (i = 0) is ++ ']' :: t), d⟩
        = .ok s' ⟨o', sp' ++ ']' :: t, d⟩ := by
  induction h generalizing sp i o with
  | @done fs s hall =>
    have htext : Item.text (decide (i = 0)) [] = [] := by cases i <;> rfl
    rw [htext, List.nil_append]
    cases fs with
    | nil => exact ⟨o, sp, hsp, rfl⟩
    | cons f fs =>
      obtain ⟨o', h'⟩ := @takes_moreItems_false (i = 0) _ hsp d o (']' :: t) ⟨t, rfl⟩
      refine ⟨o', [], .nil, bind_eq_ok.2 ⟨false, _, h', ?_⟩⟩
      have hrest (fs : List (FieldReader σ)) (hfs : ∀ f ∈ fs, f.mayEnd = true) (j : Nat) (c : Cursor) :
          fieldsInOrder.rest expected s fs j c = .ok s c := by
        induction fs generalizing j with
        | nil => rfl
        | cons f fs ih =>
          obtain ⟨hf, hfs⟩ := List.forall_mem_cons.1 hfs
          rw [fieldsInOrder.rest, hf, if_pos rfl]
          exact ih hfs (j + 1)
      exact hrest (f :: fs) hall i _
  | @item f fs s s₁ s' x is hx hvalue _ ih =>
    obtain ⟨y, v, hy, hspace, hbracket⟩ := hx.value
    have hnext : decide (i + 1 = 0) = false := by simp
    obtain ⟨o₁, h₁⟩ := @takes_moreItems_true (i = 0) _ _ hsp hx.lead d o
      (x.value ++ (x.trail ++ (Item.text false is ++ ']' :: t))) ⟨y, _, by rw [hy]; rfl, hspace, hbracket⟩
    obtain ⟨o₂, h₂⟩ := hvalue o₁ (x.trail ++ (Item.text false is ++ ']' :: t)) (delimited_items hx.trail is)
    obtain ⟨o', sp', hsp', h'⟩ := ih hx.trail (i + 1) o₂
    rw [hnext] at h'
    refine ⟨o', sp', hsp', bind_eq_ok.2 ⟨true, _, ?_, bind_eq_ok.2 ⟨s₁, _, h₂, h'⟩⟩⟩
    rw [← h₁]
    cases i with
    | zero => simp [Item.text, Item.joined]
    | succ i => simp [Item.text, Item.more]

/-! ## Records -/

/-- The text of a list with the given items, and spaces around it. -/
def listText (lead inner : List Char) (is : List Item) (trail : List Char) : String :=
  String.ofList (lead ++ '[' :: (inner ++ (Item.joined is ++ ']' :: trail)))

/-- The text is a list, which may have spaces before it. -/
def IsList (text : String) : Prop := ∃ lead t, Spaces lead ∧ text.toList = lead ++ '[' :: t

section Records

variable {fields : List (FieldReader σ)} {name : String} {empty : σ} {finish : σ → Except String α}

theorem bracket_of_record {c c' : Cursor} {a : α} (h : record name fields empty finish c = .ok a c') :
    ∃ lead x t, Spaces lead ∧ c.rest = lead ++ x :: t ∧ (x = '{' ∨ x = '[') := by
  unfold record at h
  extract_lets done at h
  obtain ⟨x, c₁, hx, h⟩ := bind_eq_ok.1 (located_eq_ok.1 h)
  obtain ⟨-, -, lead, t, hlead, hrest, -⟩ := skipSpacesTo_eq_ok hx
  refine ⟨lead, x, t, hlead, hrest, ?_⟩
  split at h
  · exact .inr rfl
  · exact .inl rfl
  · exact absurd h (refuses_unexpected _ _ _ _)

theorem record_eq_ok_of_list (hfields : ∀ f ∈ fields, ∀ s, ReadsValue (f.read s)) {c c' : Cursor} {a : α}
    {lead t : List Char} (hlead : Spaces lead) (hc : c.rest = lead ++ '[' :: t)
    (h : record name fields empty finish c = .ok a c') :
    ∃ inner is s, Spaces inner ∧ t = inner ++ (Item.joined is ++ ']' :: c'.rest) ∧
      Listed (c.depth - 1) fields empty is s ∧ finish s = .ok a := by
  unfold record at h
  extract_lets done at h
  have h := (skipSpacesTo_bind_eq_ok hlead rfl hc).1 (located_eq_ok.1 h)
  obtain ⟨-, c₂, hcontents, hclose⟩ := bracketed_eq_ok h
  obtain ⟨u, c₃, hskip, hcontents⟩ := bind_eq_ok.1 hcontents
  cases hskip
  obtain ⟨s, c₄, hread, hdone⟩ := bind_eq_ok.1 hcontents
  obtain ⟨hs, rfl⟩ := finish_eq_ok hdone
  obtain ⟨inner, is, hinner, hrest, his⟩ := listed_of_fieldsInOrder hfields hread hclose
  exact ⟨inner, is, s, hinner, hrest, his, hs⟩

theorem read_listText {lead inner trail : List Char} (hlead : Spaces lead) (hinner : Spaces inner)
    (htrail : Spaces trail) {is : List Item} {s : σ} {a : α}
    (h : Listed (depthLimit - 1) fields empty is s) (hs : finish s = .ok a) :
    read (record name fields empty finish) (listText lead inner is trail) = .ok a := by
  obtain ⟨o, sp, hsp, hread⟩ := @Listed.fieldsInOrder _
    ("struct " ++ name ++ " with " ++ toString fields.length ++ " elements") _ _ _ _ _ h _ hinner 0
    (0 + lead.length + '['.utf8Size) trail
  obtain ⟨o', hclose⟩ := takes_closeList hsp depthLimit o trail trivial
  rw [List.append_assoc, List.singleton_append] at hclose
  refine read_eq_ok.2 ⟨⟨o', trail, depthLimit⟩, ?_, htrail⟩
  rw [listText, String.toList_ofList]
  unfold record
  extract_lets done
  refine located_eq_ok.2 (bind_eq_ok.2 ⟨'[', _, skipSpacesTo_append hlead rfl 0 _, ?_⟩)
  have hdone (c : Cursor) : done s c = .ok a c := by
    dsimp only [done]
    rw [hs]
    rfl
  have hcontents : (skip >>= fun _ => fieldsInOrder
        ("struct " ++ name ++ " with " ++ toString fields.length ++ " elements") fields 0 empty >>= done)
        ⟨0 + lead.length, '[' :: (inner ++ (Item.joined is ++ ']' :: trail)), depthLimit - 1⟩
      = .ok a ⟨o, sp ++ ']' :: trail, depthLimit - 1⟩ :=
    bind_eq_ok.2 ⟨(), _, rfl, bind_eq_ok.2 ⟨s, _, hread, hdone _⟩⟩
  show bracketed _ closeList _ = _
  unfold bracketed
  dsimp only
  rw [if_neg (by decide), hcontents]
  dsimp only
  rw [hclose]

end Records

section Shapes

variable (fields : List (FieldReader σ)) (empty : σ) (text : String) (s : σ)

/-- The text is an object whose members are read one by one. -/
def AsObject : Prop :=
  ∃ lead inner ms trail, Spaces lead ∧ Spaces inner ∧ Spaces trail ∧ text = objectText lead inner ms trail ∧
    Steps (fieldByName fields) (depthLimit - 1) empty ms s

/-- The text is a list of the fields in their order. -/
def AsList : Prop :=
  ∃ lead inner is trail, Spaces lead ∧ Spaces inner ∧ Spaces trail ∧ text = listText lead inner is trail ∧
    Listed (depthLimit - 1) fields empty is s

variable {fields empty text s}

theorem AsObject.isObject (h : AsObject fields empty text s) : IsObject text := by
  obtain ⟨lead, inner, ms, trail, hlead, -, -, rfl, -⟩ := h
  exact ⟨lead, _, hlead, by rw [objectText, String.toList_ofList]⟩

theorem AsList.isList (h : AsList fields empty text s) : IsList text := by
  obtain ⟨lead, inner, is, trail, hlead, -, -, rfl, -⟩ := h
  exact ⟨lead, _, hlead, by rw [listText, String.toList_ofList]⟩

/-- **A record is an object or a list of its fields**, and every such text is read. -/
theorem read_record_iff {name : String} {finish : σ → Except String α}
    (hfields : ∀ f ∈ fields, ∀ s, ReadsValue (f.read s)) {a : α} :
    read (record name fields empty finish) text = .ok a ↔
      ∃ s, (AsObject fields empty text s ∨ AsList fields empty text s) ∧ finish s = .ok a := by
  constructor
  · intro h
    obtain ⟨c, hread, htrail⟩ := read_eq_ok.1 h
    obtain ⟨lead, x, t, hlead, htext, hx⟩ := bracket_of_record hread
    have hsame {u : List Char} (hu : text.toList = u) : text = String.ofList u := by
      rw [← hu, String.ofList_toList]
    rcases hx with rfl | rfl
    · obtain ⟨-, inner, ms, s, hinner, rfl, hsteps, hs⟩ := record_eq_ok hfields hlead htext hread
      exact ⟨s, .inl ⟨lead, inner, ms, c.rest, hlead, hinner, htrail, hsame htext, hsteps⟩, hs⟩
    · obtain ⟨inner, is, s, hinner, rfl, hlisted, hs⟩ := record_eq_ok_of_list hfields hlead htext hread
      exact ⟨s, .inr ⟨lead, inner, is, c.rest, hlead, hinner, htrail, hsame htext, hlisted⟩, hs⟩
  · rintro ⟨s, h, hs⟩
    rcases h with ⟨lead, inner, ms, trail, hlead, hinner, htrail, rfl, hsteps⟩ |
      ⟨lead, inner, is, trail, hlead, hinner, htrail, rfl, hlisted⟩
    · exact read_objectText hlead hinner htrail hsteps hs
    · exact read_listText hlead hinner htrail hlisted hs

/-- The text is a record with these fields, in one of the two forms. -/
def IsRecord (fields : List (FieldReader σ)) (empty : σ) (finish : σ → Except String α) (text : String) :
    Prop :=
  ∃ s a, (AsObject fields empty text s ∨ AsList fields empty text s) ∧ finish s = .ok a

theorem exists_read_iff {name : String} {finish : σ → Except String α}
    (hfields : ∀ f ∈ fields, ∀ s, ReadsValue (f.read s)) :
    (∃ a, read (record name fields empty finish) text = .ok a) ↔ IsRecord fields empty finish text := by
  simp only [read_record_iff hfields]
  exact exists_comm

theorem IsRecord.isObject_or_isList {finish : σ → Except String α} (h : IsRecord fields empty finish text) :
    IsObject text ∨ IsList text := by
  obtain ⟨s, a, h, -⟩ := h
  exact h.imp AsObject.isObject AsList.isList

end Shapes

end Reader

end DataClient.Json
