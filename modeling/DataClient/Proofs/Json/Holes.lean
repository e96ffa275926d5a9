import DataClient.Proofs.Json.Entries
import DataClient.Proofs.Json.Positional
import Mathlib.Data.List.Forall2

/-!
# Holes

A hole of a text is a place between two pieces of it where a part of what the text says is written. What
is read of that part, whatever it is, is part of what is read of the whole, and if nothing is read there
nothing is read at all (`Hole`). The value of a key in a dictionary and an item of a list stand in holes
(`exists_hole_dictionary`, `exists_hole_list`), and a hole in what stands in a hole of a whole text is a
hole of the text (`TextHole.comp`).
-/

set_option autoImplicit false

namespace DataClient.Json

theorem Member.WellFormed.with_value {m : Member} (h : m.WellFormed) (value : List Char) :
    ({ m with value := value } : Member).WellFormed :=
  ⟨h.lead, h.gap, h.trail, h.key⟩

namespace Reader

variable {α β γ σ : Type}

/-! ## Nothing is read -/

/-- Nothing is read from the text. -/
def Fails (r : Reader α) (d : Nat) (text : List Char) : Prop := ∀ o a c, r ⟨o, text, d⟩ ≠ .ok a c

section Fails

variable {r : Reader α} {f : α → Reader β} {d : Nat} {text : List Char}

theorem Fails.bind (h : Fails r d text) : Fails (r >>= f) d text := by
  intro o b c hb
  obtain ⟨a, c₁, ha, -⟩ := bind_eq_ok.1 hb
  exact h o a c₁ ha

theorem Takes.then_fails {F : List Char → Prop} {s : List Char} {a : α} (hr : Takes F r d s a)
    (htext : F text) (h : Fails (f a) d text) : Fails (r >>= f) d (s ++ text) := by
  intro o b c hb
  obtain ⟨o', h'⟩ := hr o text htext
  obtain ⟨a', c₁, ha, hb⟩ := bind_eq_ok.1 hb
  rw [h'] at ha
  cases ha
  exact h o' b c hb

theorem Fails.located (h : Fails r d text) : Fails (Reader.located r) d text :=
  fun o a c ha => h o a c (located_eq_ok.1 ha)

theorem Fails.bracketed {close : Reader Unit} (x : Char) (h : Fails r (d - 1) text) :
    Fails (Reader.bracketed r close) d (x :: text) := by
  intro o a c ha
  obtain ⟨-, c₁, hcontents, -⟩ := bracketed_eq_ok ha
  obtain ⟨u, c₂, hskip, hcontents⟩ := bind_eq_ok.1 hcontents
  cases hskip
  exact h _ a c₁ hcontents

theorem Fails.spaced {cause : Cause} {f : Char → Reader β} {sp : List Char} {x : Char} (hsp : Spaces sp)
    (hx : isSpace x = false) (h : Fails (f x) d (x :: text)) :
    Fails (skipSpacesTo cause >>= f) d (sp ++ x :: text) := by
  intro o b c hb
  exact h _ b c ((skipSpacesTo_bind_eq_ok hsp hx rfl).1 hb)

theorem Fails.enough {f : Nat → Reader β} (h : ∀ n, Fails (f n) d text) :
    Fails (Reader.enough >>= f) d text := by
  intro o b c hb
  obtain ⟨n, c₁, hn, hb⟩ := bind_eq_ok.1 hb
  cases hn
  exact h _ o b c hb

end Fails

/-- Members are not read if, behind some of them, nothing is read for the next one. -/
theorem Steps.fails {member : String → σ → Reader σ} {d : Nat} {s s' : σ} {ms ms' : List Member} {m : Member}
    {rest : List Char} (h : Steps member d s ms s') (hm : m.WellFormed)
    (hfails : Fails (member m.name s') d (m.gap ++ ':' :: (m.value ++ (m.trail ++ (Member.more ms' ++ rest)))))
    (first : Bool) {sp : List Char} (hsp : Spaces sp) (n : Nat) :
    Fails (membersFrom member n first s) d (sp ++ (Member.text first (ms ++ m :: ms') ++ rest)) := by
  induction h generalizing first sp n with
  | nil s =>
    cases n with
    | zero => exact fun o a c => refuses_failHere _ _ _ _
    | succ n =>
      have htext : sp ++ (Member.text first ([] ++ m :: ms') ++ rest)
          = (sp ++ (if first then m.lead else ',' :: m.lead)) ++ (('"' :: m.key)
            ++ (m.gap ++ ':' :: (m.value ++ (m.trail ++ (Member.more ms' ++ rest))))) := by
        cases first <;> simp [Member.text, Member.joined, Member.more, Member.front]
      rw [htext]
      exact (takes_moreMembers_true hm hsp d).then_fails ⟨_, rfl⟩
        ((takes_key hm d).then_fails trivial hfails.bind)
  | @cons s s₁ s' x xs hx hvalue _ ih =>
    cases n with
    | zero => exact fun o a c => refuses_failHere _ _ _ _
    | succ n =>
      have htext : sp ++ (Member.text first (x :: xs ++ m :: ms') ++ rest)
          = (sp ++ (if first then x.lead else ',' :: x.lead)) ++ (('"' :: x.key)
            ++ ((x.gap ++ ':' :: x.value) ++ (x.trail ++ (Member.text false (xs ++ m :: ms') ++ rest)))) := by
        cases first <;> simp [Member.text, Member.joined, Member.more, Member.front]
      have hbehind : Delimited (x.trail ++ (Member.text false (xs ++ m :: ms') ++ rest)) := by
        cases xs <;> exact .spaced hx.trail rfl
      rw [htext]
      exact (takes_moreMembers_true hx hsp d).then_fails ⟨_, rfl⟩
        ((takes_key hx d).then_fails trivial (hvalue.then_fails hbehind (ih hfails false hx.trail n)))

theorem fails_dictionary {item : Reader α} {d : Nat} {lead inner rest : List Char} (hlead : Spaces lead)
    (hinner : Spaces inner) {ms ms' : List Member} {es : List (String × α)} {m : Member}
    (h : List.Forall₂ (EntryOf item (d - 1)) ms es) (hm : m.WellFormed)
    (hfails : Fails item (d - 1) (m.value ++ (m.trail ++ (Member.more ms' ++ '}' :: rest)))) :
    Fails (dictionary item) d
      (lead ++ '{' :: (inner ++ (Member.joined (ms ++ m :: ms') ++ '}' :: rest))) := by
  have hcolon (acc : List (String × α)) : Fails (entryStep item m.name acc) (d - 1)
      (m.gap ++ [':'] ++ (m.value ++ (m.trail ++ (Member.more ms' ++ '}' :: rest)))) :=
    (takes_colon hm.gap (d - 1)).then_fails trivial hfails.bind
  simp only [List.append_assoc, List.singleton_append] at hcolon
  have hmembers (n : Nat) := (steps_of_entries h []).fails hm (hcolon _) true hinner n
  exact Fails.located (.spaced hlead rfl (.bracketed '{' (.enough hmembers)))

/-- The text begins with something that is not taken for the end of a list. -/
def Begun (text : List Char) : Prop := ∃ x t, text = x :: t ∧ isSpace x = false ∧ x ≠ ']'

/-- Items are not read if, behind some of them, nothing is read for the next one. -/
theorem fails_itemsFrom {item : Reader α} {d : Nat} {is is' : List Item} {xs : List α} {i : Item}
    {rest : List Char} (h : List.Forall₂ (ItemOf item d) is xs) (hi : i.WellFormed)
    (hfails : Fails item d (i.value ++ (i.trail ++ (Item.more is' ++ rest)))) {j : Nat} {sp : List Char}
    (hsp : Spaces sp) (n : Nat) :
    Fails (itemsFrom (fun _ => item) n j) d (sp ++ (Item.text (j = 0) (is ++ i :: is') ++ rest)) := by
  induction h generalizing j sp n with
  | nil =>
    cases n with
    | zero => exact fun o a c => refuses_failHere _ _ _ _
    | succ n =>
      obtain ⟨y, t, hy, hspace, hclose⟩ := hi.value
      have htext : sp ++ (Item.text (j = 0) ([] ++ i :: is') ++ rest)
          = (sp ++ (if (decide (j = 0) : Bool) then i.lead else ',' :: i.lead))
            ++ (i.value ++ (i.trail ++ (Item.more is' ++ rest))) := by
        cases j <;> simp [Item.text, Item.joined, Item.more]
      rw [htext]
      exact (takes_moreItems_true hsp hi.lead d).then_fails
        ⟨y, _, by rw [hy]; rfl, hspace, hclose⟩ hfails.bind
  | @cons x a xs as hx _ ih =>
    cases n with
    | zero => exact fun o a c => refuses_failHere _ _ _ _
    | succ n =>
      obtain ⟨⟨hlead, htrail, y, t, hy, hspace, hclose⟩, htakes⟩ := hx
      have hnext : decide (j + 1 = 0) = false := by simp
      have htext : sp ++ (Item.text (j = 0) (x :: xs ++ i :: is') ++ rest)
          = (sp ++ (if (decide (j = 0) : Bool) then x.lead else ',' :: x.lead))
            ++ (x.value ++ (x.trail ++ (Item.text false (xs ++ i :: is') ++ rest))) := by
        cases j <;> simp [Item.text, Item.joined, Item.more]
      have hbehind : Delimited (x.trail ++ (Item.text false (xs ++ i :: is') ++ rest)) := by
        cases xs <;> exact .spaced htrail rfl
      have hrest := @ih (j + 1) _ htrail n
      rw [hnext] at hrest
      rw [htext]
      exact (takes_moreItems_true hsp hlead d).then_fails ⟨y, _, by rw [hy]; rfl, hspace, hclose⟩
        (htakes.then_fails hbehind hrest.bind)

/-! ## Holes -/

/-- What `x` reads of a text between `p` and `q` is part of what `r` reads of the whole, which `g` makes of
it; if nothing is read there nothing is read at all. The text between has to be as `F` says. -/
structure Hole (r : Reader α) (d : Nat) (p q : List Char) (x : Reader β) (d' : Nat) (F : List Char → Prop)
    (g : β → α) : Prop where
  takes : ∀ {s b}, F s → Takes Delimited x d' s b → Takes (fun _ => True) r d (p ++ (s ++ q)) (g b)
  fails : ∀ {s rest}, F s → Fails x d' (s ++ (q ++ rest)) → Fails r d (p ++ (s ++ (q ++ rest)))
  delimited : ∀ rest, Delimited (q ++ rest)

/-! ## Values of keys -/

theorem Member.exists_text (first : Bool) (ms ms' : List Member) (m : Member) :
    ∃ p, ∀ value, Member.text first (ms ++ { m with value := value } :: ms')
      = p ++ (value ++ (m.trail ++ Member.more ms')) := by
  induction ms generalizing first with
  | nil =>
    refine ⟨(if first then m.lead else ',' :: m.lead) ++ '"' :: (m.key ++ (m.gap ++ [':'])), fun value => ?_⟩
    cases first <;> simp [Member.text, Member.joined, Member.more, Member.front]
  | cons x ms ih =>
    obtain ⟨p, hp⟩ := ih false
    refine ⟨(if first then x.front else ',' :: x.front) ++ (x.trail ++ p), fun value => ?_⟩
    have hrest : Member.more (ms ++ { m with value := value } :: ms') = _ := hp value
    cases first <;> simp [Member.text, Member.joined, Member.more, hrest]

theorem forall₂_split {R : α → β → Prop} {as : List α} {l r : List β} {b : β}
    (h : List.Forall₂ R as (l ++ b :: r)) :
    ∃ l' a r', as = l' ++ a :: r' ∧ List.Forall₂ R l' l ∧ R a b ∧ List.Forall₂ R r' r := by
  induction l generalizing as with
  | nil =>
    cases h with
    | cons hab h => exact ⟨[], _, _, rfl, .nil, hab, h⟩
  | cons c l ih =>
    cases h with
    | cons hac h =>
      obtain ⟨l', a, r', rfl, hl, hab, hr⟩ := ih h
      exact ⟨_ :: l', a, r', rfl, .cons hac hl, hab, hr⟩

theorem delimited_members {sp t : List Char} (hsp : Spaces sp) (ms : List Member) :
    Delimited (sp ++ (Member.more ms ++ '}' :: t)) := by
  cases ms with
  | nil => exact .spaced hsp rfl
  | cons m ms => exact .spaced hsp rfl

/-- **The value of a key stands in a hole.** -/
theorem exists_hole_dictionary {item : Reader α} (hitem : ReadsValue item) {d : Nat} {source : List Char}
    {entries : List (String × α)} (h : Takes Delimited (dictionary item) d source entries) {k : String}
    (hk : k ∈ entries.map (·.1)) : ∃ p s q a, source = p ++ (s ++ q) ∧ p ≠ [] ∧
      Takes Delimited item (d - 1) s a ∧ Json.lookup k entries = some a ∧
      Hole (dictionary item) d p q item (d - 1) (fun _ => True) fun b => insertMember k b entries := by
  obtain ⟨o', h'⟩ := h 0 [','] exists_delimited
  obtain ⟨hd, lead, inner, ms, es, hlead, hinner, hsource, hes, rfl⟩ := dictionary_eq_ok hitem h'
  have hsource : source ++ [','] = lead ++ '{' :: (inner ++ (Member.joined ms ++ '}' :: [','])) := hsource
  -- Its last member gives the value.
  obtain ⟨l, a, r, rfl, hr⟩ := exists_last hk
  obtain ⟨l', m, r', rfl, hl, hm, hr'⟩ := forall₂_split hes
  obtain ⟨p, hp⟩ := Member.exists_text true l' r' m
  have hp (value : List Char) : Member.joined (l' ++ { m with value := value } :: r')
      = p ++ (value ++ (m.trail ++ Member.more r')) := hp value
  refine ⟨lead ++ '{' :: (inner ++ p), m.value, m.trail ++ (Member.more r' ++ ['}']), a, ?_, by simp,
    hm.takes, ?_, fun {s b} _ hb => ?_, fun {s rest} _ hfails => ?_, fun rest => ?_⟩
  · refine (List.append_left_inj [',']).1 (hsource.trans ?_)
    rw [show m = { m with value := m.value } from rfl, hp]
    simp
  · rw [members_last hr a a, lookup_insertMember, if_pos rfl]
  · have hentry : EntryOf item (d - 1) { m with value := s } (k, b) :=
      ⟨hm.wellFormed.with_value s, hm.name, hb⟩
    have hentries := List.rel_append hl (.cons hentry hr')
    have htakes := takes_entries hd hlead hinner hentries
    rw [hp, members_last hr _ a] at htakes
    simpa using htakes
  · have hall := @fails_dictionary _ _ _ _ _ rest hlead hinner _ r' _ _ hl (hm.wellFormed.with_value s)
      (by simpa using hfails)
    rw [hp] at hall
    simpa using hall
  · rw [List.append_assoc, List.append_assoc]
    exact delimited_members hm.wellFormed.trail r'

/-! ## Items -/

theorem Item.exists_text (first : Bool) (is is' : List Item) (i : Item) :
    ∃ p, ∀ value, Item.text first (is ++ { i with value := value } :: is')
      = p ++ (value ++ (i.trail ++ Item.more is')) := by
  induction is generalizing first with
  | nil =>
    refine ⟨if first then i.lead else ',' :: i.lead, fun value => ?_⟩
    cases first <;> simp [Item.text, Item.joined, Item.more]
  | cons x is ih =>
    obtain ⟨p, hp⟩ := ih false
    refine ⟨(if first then x.lead else ',' :: x.lead) ++ (x.value ++ (x.trail ++ p)), fun value => ?_⟩
    have hrest : Item.more (is ++ { i with value := value } :: is') = _ := hp value
    cases first <;> simp [Item.text, Item.joined, Item.more, hrest]

theorem fails_list {item : Reader α} {d : Nat} {lead inner rest : List Char} (hlead : Spaces lead)
    (hinner : Spaces inner) {is is' : List Item} {xs : List α} {i : Item}
    (h : List.Forall₂ (ItemOf item (d - 1)) is xs) (hi : i.WellFormed)
    (hfails : Fails item (d - 1) (i.value ++ (i.trail ++ (Item.more is' ++ ']' :: rest)))) :
    Fails (list item) d (lead ++ '[' :: (inner ++ (Item.joined (is ++ i :: is') ++ ']' :: rest))) := by
  have hitems (n : Nat) := @fails_itemsFrom _ _ _ _ _ _ _ _ h hi hfails 0 _ hinner n
  exact Fails.located (.spaced hlead rfl (.bracketed '[' (.enough hitems)))

/-- **An item stands in a hole**, if what stands there is not taken for the end of the list. -/
theorem exists_hole_list {item : Reader α} (hitem : ReadsValue item) {d : Nat} {source : List Char}
    {xs : List α} (h : Takes Delimited (list item) d source xs) {j : Nat} {x : α} (hx : xs[j]? = some x) :
    ∃ p s q, source = p ++ (s ++ q) ∧ p ≠ [] ∧ Begun s ∧ Takes Delimited item (d - 1) s x ∧
      Hole (list item) d p q item (d - 1) Begun fun y => xs.set j y := by
  obtain ⟨o', h'⟩ := h 0 [','] exists_delimited
  obtain ⟨hd, lead, inner, is, hlead, hinner, hsource, his⟩ := list_eq_ok hitem h'
  have hsource : source ++ [','] = lead ++ '[' :: (inner ++ (Item.joined is ++ ']' :: [','])) := hsource
  obtain ⟨l, r, rfl, hj⟩ : ∃ l r, xs = l ++ x :: r ∧ l.length = j := by
    obtain ⟨hj, rfl⟩ := List.getElem?_eq_some_iff.1 hx
    exact ⟨xs.take j, xs.drop (j + 1), by simp, by simp; omega⟩
  obtain ⟨l', i, r', rfl, hl, hi, hr⟩ := forall₂_split his
  obtain ⟨p, hp⟩ := Item.exists_text true l' r' i
  have hp (value : List Char) : Item.joined (l' ++ { i with value := value } :: r')
      = p ++ (value ++ (i.trail ++ Item.more r')) := hp value
  refine ⟨lead ++ '[' :: (inner ++ p), i.value, i.trail ++ (Item.more r' ++ [']']), ?_, by simp,
    hi.wellFormed.value, hi.takes, fun {s b} hs hb => ?_, fun {s rest} hs hfails => ?_, fun rest => ?_⟩
  · refine (List.append_left_inj [',']).1 (hsource.trans ?_)
    rw [show i = { i with value := i.value } from rfl, hp]
    simp
  · have hitem : ItemOf item (d - 1) { i with value := s } b :=
      ⟨⟨hi.wellFormed.lead, hi.wellFormed.trail, hs⟩, hb⟩
    have htakes := takes_list hd hlead hinner (List.rel_append hl (.cons hitem hr))
    rw [hp] at htakes
    rw [← hj, List.set_append_right _ _ (Nat.le_refl _), Nat.sub_self, List.set_cons_zero]
    simpa using htakes
  · have hwell : ({ i with value := s } : Item).WellFormed := ⟨hi.wellFormed.lead, hi.wellFormed.trail, hs⟩
    have hall := @fails_list _ _ _ _ _ rest hlead hinner _ r' _ _ hl hwell (by simpa using hfails)
    rw [hp] at hall
    simpa using hall
  · rw [List.append_assoc, List.append_assoc]
    exact delimited_items hi.wellFormed.trail r'

/-! ## Records -/

section Records

variable {fields : List (FieldReader σ)} {name : String} {empty : σ} {finish : σ → Except String α}

/-- A record that is written as an object is not read if nothing is read for one of its fields. -/
theorem fails_record_member {f : FieldReader σ} (hfound : fields.find? (·.name == f.name) = some f) {d : Nat}
    {lead inner rest : List Char} (hlead : Spaces lead) (hinner : Spaces inner) {ms ms' : List Member}
    {m : Member} {s : σ} (h : Steps (fieldByName fields) (d - 1) empty ms s) (hm : m.WellFormed)
    (hname : m.name = f.name) (hset : f.isSet s = false)
    (hfails : Fails (f.read s) (d - 1) (m.value ++ (m.trail ++ (Member.more ms' ++ '}' :: rest)))) :
    Fails (record name fields empty finish) d
      (lead ++ '{' :: (inner ++ (Member.joined (ms ++ m :: ms') ++ '}' :: rest))) := by
  have hfield : fieldByName fields m.name s = colon >>= fun _ => f.read s := by
    rw [fieldByName, hname, hfound]
    exact if_neg (by rw [hset]; exact Bool.false_ne_true)
  have hcolon : Fails (fieldByName fields m.name s) (d - 1)
      (m.gap ++ [':'] ++ (m.value ++ (m.trail ++ (Member.more ms' ++ '}' :: rest)))) :=
    hfield ▸ (takes_colon hm.gap (d - 1)).then_fails trivial hfails
  rw [List.append_assoc] at hcolon
  have hmembers (n : Nat) := h.fails hm hcolon true hinner n
  exact Fails.located (.spaced hlead rfl (.bracketed '{' (.enough fun n => (hmembers n).bind)))

/-- A record that is written as a list is not read if nothing is read for its first field. -/
theorem fails_record_first {f : FieldReader σ} {fs : List (FieldReader σ)} {d : Nat}
    {lead inner rest : List Char} (hlead : Spaces lead) (hinner : Spaces inner) {i : Item} {is : List Item}
    (hi : i.WellFormed)
    (hfails : Fails (f.read empty) (d - 1) (i.value ++ (i.trail ++ (Item.more is ++ ']' :: rest)))) :
    Fails (record name (f :: fs) empty finish) d
      (lead ++ '[' :: (inner ++ (Item.joined (i :: is) ++ ']' :: rest))) := by
  obtain ⟨x, t, hx, hspace, hclose⟩ := hi.value
  have hitems := (@takes_moreItems_true true _ _ hinner hi.lead (d - 1)).then_fails
    (f := fun more => if more then f.read empty >>= fieldsInOrder
        ("struct " ++ name ++ " with " ++ toString (f :: fs).length ++ " elements") fs 1
      else fieldsInOrder.rest ("struct " ++ name ++ " with " ++ toString (f :: fs).length ++ " elements")
        empty (f :: fs) 0)
    ⟨x, _, by rw [hx]; rfl, hspace, hclose⟩ hfails.bind
  have htext : inner ++ (Item.joined (i :: is) ++ ']' :: rest)
      = inner ++ i.lead ++ (i.value ++ (i.trail ++ (Item.more is ++ ']' :: rest))) := by
    simp [Item.joined]
  rw [htext]
  exact Fails.located (.spaced hlead rfl (.bracketed '[' (Fails.bind hitems)))

end Records

/-! ## Whole texts -/

/-- What `x` reads of a text between `p` and `q` is part of what is read of the whole text, which `g`
makes of it; if nothing is read there the text is not read. The text between has to be as `F` says. -/
structure TextHole (r : Reader α) (p q : List Char) (x : Reader β) (d : Nat) (F : List Char → Prop)
    (g : β → α) : Prop where
  reads : ∀ {s b}, F s → Takes Delimited x d s b → read r (String.ofList (p ++ (s ++ q))) = .ok (g b)
  fails : ∀ {s}, F s → Fails x d (s ++ q) → ∀ a, read r (String.ofList (p ++ (s ++ q))) ≠ .ok a
  delimited : Delimited q

theorem TextHole.comp {r : Reader α} {x : Reader β} {y : Reader γ} {d d' : Nat} {p q p' q' : List Char}
    {F F' : List Char → Prop} {g : β → α} {g' : γ → β} (h : TextHole r p q x d F g)
    (h' : Hole x d p' q' y d' F' g') (hF : ∀ s, F' s → F (p' ++ (s ++ q'))) :
    TextHole r (p ++ p') (q' ++ q) y d' F' (g ∘ g') where
  reads {s b} hs hb := by
    have hread := h.reads (hF s hs) ((h'.takes hs hb).mono fun _ _ => trivial)
    simpa only [List.append_assoc, Function.comp_apply] using hread
  fails {s} hs hfails a := by
    have hread := h.fails (hF s hs) (by simpa only [List.append_assoc] using h'.fails hs hfails) a
    simpa only [List.append_assoc] using hread
  delimited := h'.delimited q

theorem not_read_of_fails {r : Reader α} {text : List Char} (h : Fails r depthLimit text) (a : α) :
    read r (String.ofList text) ≠ .ok a := by
  intro ha
  obtain ⟨c, hread, -⟩ := read_eq_ok.1 ha
  rw [String.toList_ofList] at hread
  exact h 0 a c hread

end Reader

end DataClient.Json
