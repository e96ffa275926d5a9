import DataClient.Proofs.Json.ReadBack

/-!
# The items of a list

The text of a list is a list of items with commas between them (`Item.joined`), and everything that is
read as a list is such a text, each item of which is read by itself (`list_eq_ok`, `takes_list`). So
items can be exchanged one by one.
-/

set_option autoImplicit false

namespace DataClient.Json

/-- An item of a list as it is written: spaces, a value, and spaces. -/
structure Item where
  lead : List Char
  value : List Char
  trail : List Char

namespace Item

/-- Items behind others, with a comma before each. -/
def more : List Item → List Char
  | [] => []
  | i :: is => ',' :: (i.lead ++ (i.value ++ (i.trail ++ more is)))

/-- Items with commas between them. -/
def joined : List Item → List Char
  | [] => []
  | i :: is => i.lead ++ (i.value ++ (i.trail ++ more is))

/-- Items, the first of a list or not. -/
def text (first : Bool) (is : List Item) : List Char := if first then joined is else more is

/-- There are spaces where they are meant to be, and the value is not taken for the end of the list. -/
structure WellFormed (i : Item) : Prop where
  lead : Reader.Spaces i.lead
  trail : Reader.Spaces i.trail
  value : ∃ x t, i.value = x :: t ∧ Reader.isSpace x = false ∧ x ≠ ']'

end Item

namespace Reader

variable {α : Type}

theorem moreItems_eq_ok {first b : Bool} {c c' : Cursor} (h : moreItems first c = .ok b c') :
    c'.depth = c.depth ∧ ∃ sp, Spaces sp ∧
      if b then (∃ x t, c'.rest = x :: t ∧ isSpace x = false ∧ x ≠ ']') ∧ ∃ lead, Spaces lead ∧
        c.rest = sp ++ ((if first then lead else ',' :: lead) ++ c'.rest) ∧ (first → sp = [])
      else AtBracket c'.rest ∧ c.rest = sp ++ c'.rest := by
  unfold moreItems at h
  obtain ⟨x, c₁, hx, h⟩ := bind_eq_ok.1 h
  obtain ⟨hd, hspace, sp, t, hsp, hrest, hrest₁⟩ := skipSpacesTo_eq_ok hx
  split at h
  · cases h
    exact ⟨hd, sp, hsp, ⟨t, hrest₁⟩, by rw [hrest, hrest₁]⟩
  · rename_i hclose
    cases first with
    | true =>
      cases h
      exact ⟨hd, [], .nil, ⟨x, t, hrest₁, hspace, hclose⟩, sp, hsp, by rw [hrest, hrest₁]; rfl,
        fun _ => rfl⟩
    | false =>
      rw [if_neg Bool.false_ne_true] at h
      split_ifs at h with hcomma
      · subst hcomma
        obtain ⟨y, c₂, hy, h⟩ := bind_eq_ok.1 ((skip_bind_eq_ok hrest₁).1 h)
        obtain ⟨hd₂, hspace₂, lead, t', hlead, hbehind, hrest₂⟩ := skipSpacesTo_eq_ok hy
        split at h
        · exact absurd h (refuses_failNext _ _ _ _)
        · rename_i hclose₂
          cases h
          refine ⟨hd₂.trans hd, sp, hsp, ⟨y, t', hrest₂, hspace₂, hclose₂⟩, lead, hlead, ?_,
            fun h => by cases h⟩
          rw [hrest, hrest₂]
          exact congrArg (fun t => sp ++ ',' :: t) hbehind
      · exact absurd h (refuses_failNext _ _ _ _)

theorem closeList_eq_ok {c c' : Cursor} {u : Unit} (h : closeList c = .ok u c') :
    ∃ sp, Spaces sp ∧ c.rest = sp ++ ']' :: c'.rest := by
  obtain ⟨x, c₁, hx, h⟩ := bind_eq_ok.1 h
  obtain ⟨-, hhead, -, sp, hsp, hrest⟩ := skipSpaces_eq_ok hx
  refine ⟨sp, hsp, ?_⟩
  rw [hrest]
  split at h
  · obtain ⟨t, ht⟩ := List.head?_eq_some_iff.1 hhead.symm
    unfold skip at h
    rw [ht] at h
    cases h
    rw [ht]
  · refine absurd h (Refuses.bind (fun _ => Refuses.bind fun z => ?_) _ _ _)
    split <;> exact refuses_failNext _
  · exact absurd h (refuses_failNext _ _ _ _)
  · exact absurd h (refuses_failNext _ _ _ _)

/-- What stands behind an item is a delimiter, perhaps behind spaces. -/
theorem delimited_items {sp t : List Char} (hsp : Spaces sp) (is : List Item) :
    Delimited (sp ++ (Item.text false is ++ ']' :: t)) := by
  cases is with
  | nil => exact .spaced hsp rfl
  | cons i is => exact .spaced hsp rfl

/-- The item is written as it should be, and is read as `a`. -/
structure ItemOf (item : Reader α) (d : Nat) (i : Item) (a : α) : Prop where
  wellFormed : i.WellFormed
  takes : Takes Delimited item d i.value a

theorem AtBracket.delimited {sp rest : List Char} (hsp : Spaces sp) (is : List Item) (h : AtBracket rest) :
    Delimited (sp ++ (Item.text false is ++ rest)) := by
  obtain ⟨t, rfl⟩ := h
  exact delimited_items hsp is

/-- What is read begins as the text does that it is read from. -/
theorem exists_cons_of_append {x : Char} {text t value rest : List Char} (hx : text = x :: t)
    (hvalue : text = value ++ rest) (hlt : rest.length < text.length) : ∃ v, value = x :: v := by
  cases value with
  | nil =>
    rw [hvalue] at hlt
    exact absurd hlt (Nat.lt_irrefl _)
  | cons y v =>
    rw [hx] at hvalue
    cases hvalue
    exact ⟨v, rfl⟩

/-- **Whatever is read as the items of a list is a list of items.** -/
theorem itemsOf_itemsFrom {item : Reader α} (hitem : ReadsValue item) {n i : Nat} {xs : List α}
    {c c' : Cursor} (h : itemsFrom (fun _ => item) n i c = .ok xs c') :
    c'.depth = c.depth ∧ AtBracket c'.rest ∧ ∃ sp is, Spaces sp ∧
      c.rest = sp ++ (Item.text (i = 0) is ++ c'.rest) ∧ List.Forall₂ (ItemOf item c.depth) is xs := by
  induction n generalizing i xs c with
  | zero => exact absurd h (refuses_failHere _ _ _ _)
  | succ n ih =>
    unfold itemsFrom at h
    obtain ⟨more, c₁, hmore, h⟩ := bind_eq_ok.1 h
    obtain ⟨hd₁, sp, hsp, hmore⟩ := moreItems_eq_ok hmore
    cases more with
    | false =>
      cases h
      obtain ⟨hbracket, hrest⟩ := hmore
      refine ⟨hd₁, hbracket, sp, [], hsp, ?_, .nil⟩
      cases i <;> exact hrest
    | true =>
      obtain ⟨⟨x, t, hx, hspace, hclose⟩, lead, hlead, hrest, hfirst⟩ := hmore
      obtain ⟨a, c₂, hread, h⟩ := bind_eq_ok.1 h
      obtain ⟨as, c₃, hmore, h⟩ := bind_eq_ok.1 h
      cases h
      obtain ⟨hd₃, hbracket, trail, is, htrail, hrest₂, his⟩ := ih hmore
      have hnext : decide (i + 1 = 0) = false := by simp
      rw [hnext] at hrest₂
      -- What stands behind the item is known from the items behind it, and then where the item ends.
      obtain ⟨hd₂, value, hvalue, htakes⟩ :=
        hitem.closed.takes hread (hrest₂ ▸ hbracket.delimited htrail is)
      obtain ⟨v, rfl⟩ := exists_cons_of_append hx hvalue (hitem.length_lt hread)
      rw [hd₁] at htakes hd₂
      rw [hd₂] at his hd₃
      refine ⟨hd₃, hbracket, sp, ⟨lead, x :: v, trail⟩ :: is, hsp, ?_,
        .cons ⟨⟨hlead, htrail, x, v, rfl, hspace, hclose⟩, htakes⟩ his⟩
      rw [hrest, hvalue, hrest₂]
      cases i with
      | zero => simp [Item.text, Item.joined]
      | succ i => simp [Item.text, Item.more]

/-- **Items that can be read one by one are read one behind the other.** -/
theorem takes_itemsOf {item : Reader α} {d : Nat} {is : List Item} {xs : List α}
    (h : List.Forall₂ (ItemOf item d) is xs) {i : Nat} {sp sp' : List Char} (hsp : Spaces sp)
    (hsp' : Spaces sp') {n : Nat} (hn : (sp ++ (Item.text (i = 0) is ++ sp')).length < n) :
    Takes AtBracket (itemsFrom (fun _ => item) n i) d (sp ++ (Item.text (i = 0) is ++ sp')) xs := by
  induction h generalizing i sp n with
  | nil =>
    obtain ⟨n, rfl⟩ := Nat.exists_eq_succ_of_ne_zero (Nat.ne_zero_of_lt hn)
    have htext : sp ++ (Item.text (i = 0) [] ++ sp') = sp ++ sp' ++ [] := by
      cases i <;> simp [Item.text, Item.joined, Item.more]
    rw [htext]
    exact (takes_moreItems_false (hsp.append hsp') d).bind (.pure _ _ _) fun rest h => h
  | @cons x a is as hx _ ih =>
    obtain ⟨n, rfl⟩ := Nat.exists_eq_succ_of_ne_zero (Nat.ne_zero_of_lt hn)
    obtain ⟨⟨hlead, htrail, y, v, hy, hspace, hclose⟩, htakes⟩ := hx
    have hnext : decide (i + 1 = 0) = false := by simp
    have htext : sp ++ (Item.text (i = 0) (x :: is) ++ sp')
        = (sp ++ (if (decide (i = 0) : Bool) then x.lead else ',' :: x.lead))
          ++ (x.value ++ (x.trail ++ (Item.text false is ++ sp'))) := by
      cases i <;> simp [Item.text, Item.joined, Item.more]
    rw [htext] at hn ⊢
    have hrest : Takes AtBracket (itemsFrom (fun _ => item) n (i + 1)) d
        (x.trail ++ (Item.text false is ++ sp')) as := by
      -- An item has a character at least, so that the fuel suffices for the rest.
      have hlength : (x.trail ++ (Item.text false is ++ sp')).length < n := by
        rw [hy] at hn
        simp only [List.length_append, List.length_cons] at hn ⊢
        omega
      have hall := @ih (i + 1) _ htrail n (by rw [hnext]; exact hlength)
      rwa [hnext] at hall
    refine (takes_moreItems_true hsp hlead d).bind (htakes.bind hrest.then_pure fun rest' hend => ?_)
      fun rest' _ => ?_
    · obtain ⟨t, rfl⟩ := hend
      cases is with
      | nil =>
        have hbehind : x.trail ++ (Item.text false [] ++ sp') ++ ']' :: t = (x.trail ++ sp') ++ ']' :: t := by
          simp [Item.text, Item.more]
        rw [hbehind]
        exact .spaced (htrail.append hsp') rfl
      | cons z is =>
        rw [List.append_assoc]
        exact .spaced htrail rfl
    · rw [hy]
      exact ⟨y, _, rfl, hspace, hclose⟩

/-! ## Whole lists -/

theorem takes_list {item : Reader α} {d : Nat} (hd : 1 < d) {lead inner : List Char} (hlead : Spaces lead)
    (hinner : Spaces inner) {is : List Item} {xs : List α} (h : List.Forall₂ (ItemOf item (d - 1)) is xs) :
    Takes (fun _ => True) (list item) d (lead ++ '[' :: (inner ++ Item.joined is ++ [']'])) xs := by
  have hitems (n : Nat) (hn : (inner ++ Item.joined is).length < n) :
      Takes AtBracket (itemsFrom (fun _ => item) n 0) (d - 1) (inner ++ Item.joined is) xs := by
    have hall := @takes_itemsOf _ _ _ _ _ h 0 _ [] hinner .nil n (by simpa [Item.text] using hn)
    rwa [List.append_nil] at hall
  have hbracket (rest : List Char) (_ : True) : AtBracket ([']'] ++ rest) := ⟨rest, rfl⟩
  refine Takes.located (.spaced hlead rfl ?_)
  exact Takes.bracketed hd '[' (.enough hitems) (takes_closeList .nil d) hbracket

/-- **Whatever is read as a list is a list of items.** -/
theorem list_eq_ok {item : Reader α} (hitem : ReadsValue item) {xs : List α} {c c' : Cursor}
    (h : list item c = .ok xs c') : 1 < c.depth ∧ ∃ lead inner is, Spaces lead ∧ Spaces inner ∧
      c.rest = lead ++ '[' :: (inner ++ (Item.joined is ++ ']' :: c'.rest)) ∧
      List.Forall₂ (ItemOf item (c.depth - 1)) is xs := by
  obtain ⟨x, c₁, hx, h⟩ := bind_eq_ok.1 (located_eq_ok.1 h)
  obtain ⟨hd, -, lead, t, hlead, hrest, hrest₁⟩ := skipSpacesTo_eq_ok hx
  split at h
  · obtain ⟨hdepth, n, c₂, hcontents, hclose⟩ := bracketed_enough_eq_ok hrest₁ h
    obtain ⟨-, ⟨t', ht'⟩, inner, is, hinner, his, hall⟩ := itemsOf_itemsFrom hitem hcontents
    obtain ⟨sp, hsp, hend⟩ := closeList_eq_ok hclose
    have hend : c₂.rest = sp ++ ']' :: c'.rest := hend
    cases sp with
    | nil =>
      have htext : t = inner ++ (Item.joined is ++ c₂.rest) := his
      refine ⟨hd ▸ hdepth, lead, inner, is, hlead, hinner, ?_, hd ▸ hall⟩
      rw [hrest, htext, hend]
      rfl
    | cons y sp =>
      rw [ht'] at hend
      cases hend
      cases hsp ']' List.mem_cons_self
  · exact absurd h (refuses_unexpected _ _ _ _)

end Reader

end DataClient.Json
