import DataClient.Proofs.Json.Loose

/-!
# The entries of a dictionary

The text of a dictionary is an object, each member of which is read by itself (`EntryOf`); the
dictionary holds the last value of each key (`dictionary_eq_ok`, `takes_entries`). So the value of a key
is that of its last member, and another value in its place is the value of the key in what is read then
(`members_last`).
-/

set_option autoImplicit false

namespace DataClient.Json

section Members

variable {α : Type} {k k' : String} {a b : α} {ms es l r : List (String × α)}

/-! ## Adding members -/

theorem insertMember_self : insertMember k a (insertMember k b ms) = insertMember k a ms := by
  induction ms with
  | nil => simp [insertMember]
  | cons m ms ih =>
    rw [insertMember, insertMember]
    split_ifs with heq hlt
    · simp [insertMember]
    · simp [insertMember]
    · simp [insertMember, heq, hlt, ih]

theorem insertMember_comm (h : k ≠ k') :
    insertMember k a (insertMember k' b ms) = insertMember k' b (insertMember k a ms) := by
  induction ms with
  | nil => grind [insertMember]
  | cons m ms ih => grind [insertMember]

theorem lookup_insertMember :
    lookup k' (insertMember k a ms) = if k = k' then some a else lookup k' ms := by
  induction ms with
  | nil => by_cases h : k = k' <;> simp [insertMember, lookup, h]
  | cons m ms ih =>
    unfold lookup at ih ⊢
    grind [insertMember]

theorem mem_keys_insertMember_self : k ∈ (insertMember k a ms).map (·.1) := by
  have hlookup : lookup k (insertMember k a ms) = some a := by rw [lookup_insertMember, if_pos rfl]
  obtain ⟨m, hm, -⟩ := Option.map_eq_some_iff.1 hlookup
  have hkey : m.1 = k := by simpa using List.find?_some hm
  exact List.mem_map.2 ⟨m, List.mem_of_find?_eq_some hm, hkey⟩

/-- A key that there is already keeps its place. -/
theorem keys_insertMember (h : Ordered ms) (hk : k ∈ ms.map (·.1)) :
    (insertMember k a ms).map (·.1) = ms.map (·.1) := by
  induction ms with
  | nil => cases hk
  | cons m ms ih =>
    obtain ⟨hm, hms⟩ := List.pairwise_cons.1 h
    unfold insertMember
    split_ifs with heq hlt
    · rw [heq]
      rfl
    · rcases List.mem_cons.1 hk with hk | hk
      · exact absurd hk heq
      · exact absurd (lt_trans hlt (hm k hk)) (lt_irrefl k)
    · rw [List.map_cons, List.map_cons, ih hms ((List.mem_cons.1 hk).resolve_left heq)]

/-! ## Members one behind the other -/

/-- Members added to those that there are. -/
def addMembers (ms es : List (String × α)) : List (String × α) :=
  es.foldl (fun acc e => insertMember e.1 e.2 acc) ms

theorem addMembers_insertMember (h : ∀ e ∈ es, e.1 ≠ k) :
    addMembers (insertMember k a ms) es = insertMember k a (addMembers ms es) := by
  induction es generalizing ms with
  | nil => rfl
  | cons e es ih =>
    obtain ⟨he, hes⟩ := List.forall_mem_cons.1 h
    show addMembers (insertMember e.1 e.2 (insertMember k a ms)) es = _
    rw [insertMember_comm he, ih hes]
    rfl

/-- **The last member of a key gives its value.** -/
theorem members_last (h : ∀ e ∈ r, e.1 ≠ k) (a b : α) :
    members (l ++ (k, a) :: r) = insertMember k a (members (l ++ (k, b) :: r)) := by
  have hsplit (a : α) : members (l ++ (k, a) :: r) = insertMember k a (addMembers (members l) r) := by
    rw [← addMembers_insertMember h, members, List.foldl_append]
    rfl
  rw [hsplit a, hsplit b, insertMember_self]

theorem mem_keys_addMembers (h : k ∈ (addMembers ms es).map (·.1)) :
    k ∈ ms.map (·.1) ∨ k ∈ es.map (·.1) := by
  induction es generalizing ms with
  | nil => exact .inl h
  | cons e es ih =>
    rcases ih h with h | h
    · rcases mem_keys_insertMember h with rfl | h
      · exact .inr List.mem_cons_self
      · exact .inl h
    · exact .inr (List.mem_cons_of_mem _ h)

theorem exists_last (h : k ∈ (members es).map (·.1)) :
    ∃ l b r, es = l ++ (k, b) :: r ∧ ∀ e ∈ r, e.1 ≠ k := by
  have hmem : k ∈ es.map (·.1) := (mem_keys_addMembers h).resolve_left fun h => by cases h
  clear h
  induction es with
  | nil => cases hmem
  | cons e es ih =>
    by_cases hes : k ∈ es.map (·.1)
    · obtain ⟨l, b, r, rfl, hr⟩ := ih hes
      exact ⟨e :: l, b, r, rfl, hr⟩
    · obtain rfl : k = e.1 := (List.mem_cons.1 hmem).resolve_right hes
      exact ⟨[], e.2, es, rfl, fun e' he' heq => hes (heq ▸ List.mem_map_of_mem he')⟩

end Members

namespace Reader

variable {α : Type} {item : Reader α} {d : Nat}

/-! ## Dictionaries -/

/-- The member is written as it should be, and is read as the entry. -/
structure EntryOf (item : Reader α) (d : Nat) (m : Member) (e : String × α) : Prop where
  wellFormed : m.WellFormed
  name : m.name = e.1
  takes : Takes Delimited item d m.value e.2

/-- What a dictionary does with a member. -/
def entryStep (item : Reader α) (k : String) (ms : List (String × α)) : Reader (List (String × α)) := do
  colon
  return insertMember k (← item) ms

theorem EntryOf.takes_step {m : Member} {e : String × α} (h : EntryOf item d m e)
    (ms : List (String × α)) : Takes Delimited (entryStep item m.name ms) d (m.gap ++ ':' :: m.value)
      (insertMember e.1 e.2 ms) := by
  have htakes := (takes_colon h.wellFormed.gap d).bind
    (f := fun _ => item >>= fun a => pure (insertMember m.name a ms)) h.takes.then_pure fun _ _ => trivial
  rw [List.append_assoc] at htakes
  rw [← h.name]
  exact htakes

theorem steps_of_entries {ms : List Member} {es : List (String × α)}
    (h : List.Forall₂ (EntryOf item d) ms es) (acc : List (String × α)) :
    Steps (entryStep item) d acc ms (addMembers acc es) := by
  induction h generalizing acc with
  | nil => exact .nil _
  | cons hm _ ih => exact .cons hm.wellFormed (hm.takes_step acc) (ih _)

theorem exists_takes_of_pure {β : Type} {x : Reader β} (hx : Closed x) {g : β → α} {source : List Char} {a : α}
    (h : Takes Delimited (x >>= fun b => pure (g b)) d source a) :
    ∃ b, g b = a ∧ Takes Delimited x d source b := by
  obtain ⟨o', h'⟩ := h 0 [','] exists_delimited
  obtain ⟨b, c, hb, ha⟩ := bind_eq_ok.1 h'
  cases ha
  obtain ⟨-, source', hsource, htakes⟩ := hx.takes hb exists_delimited
  cases List.append_cancel_right hsource
  exact ⟨b, rfl, htakes⟩

theorem takes_behind_colon {x : Reader α} (hx : Closed x) {gap value : List Char} (hgap : Spaces gap) {a : α}
    (h : Takes Delimited (colon >>= fun _ => x) d (gap ++ ':' :: value) a) : Takes Delimited x d value a := by
  obtain ⟨o', h'⟩ := h 0 [','] exists_delimited
  obtain ⟨u, c, hcolon, ha⟩ := bind_eq_ok.1 h'
  obtain ⟨o₁, hcolon'⟩ := takes_colon hgap d 0 (value ++ [',']) trivial
  rw [List.append_assoc, List.cons_append] at hcolon
  rw [List.append_assoc, List.singleton_append, hcolon] at hcolon'
  cases hcolon'
  obtain ⟨-, source, hsource, htakes⟩ := hx.takes ha exists_delimited
  cases List.append_cancel_right hsource
  exact htakes

theorem entries_of_steps (hitem : ReadsValue item) {ms : List Member} {s s' : List (String × α)}
    (h : Steps (entryStep item) d s ms s') :
    ∃ es, List.Forall₂ (EntryOf item d) ms es ∧ s' = addMembers s es := by
  induction h with
  | nil s => exact ⟨[], .nil, rfl⟩
  | @cons s s₁ s' m ms hm hvalue hms ih =>
    obtain ⟨es, hes, rfl⟩ := ih
    have hread := takes_behind_colon (hitem.closed.bind fun _ => .pure) hm.gap hvalue
    obtain ⟨a, rfl, htakes⟩ := exists_takes_of_pure hitem.closed hread
    exact ⟨(m.name, a) :: es, .cons ⟨hm, rfl, htakes⟩ hes, rfl⟩

theorem takes_entries (hd : 1 < d) {lead inner : List Char} (hlead : Spaces lead) (hinner : Spaces inner)
    {ms : List Member} {es : List (String × α)} (h : List.Forall₂ (EntryOf item (d - 1)) ms es) :
    Takes (fun _ => True) (dictionary item) d (lead ++ '{' :: (inner ++ Member.joined ms ++ ['}']))
      (members es) := by
  have htakes := takes_dictionary hd hlead hinner .nil (steps_of_entries h [])
  rwa [List.append_nil] at htakes

/-- **Whatever is read as a dictionary has entries.** -/
theorem dictionary_eq_ok (hitem : ReadsValue item) {entries : List (String × α)} {c c' : Cursor}
    (h : dictionary item c = .ok entries c') : 1 < c.depth ∧ ∃ lead inner ms es, Spaces lead ∧ Spaces inner ∧
      c.rest = lead ++ '{' :: (inner ++ (Member.joined ms ++ '}' :: c'.rest)) ∧
      List.Forall₂ (EntryOf item (c.depth - 1)) ms es ∧ entries = members es := by
  obtain ⟨x, c₁, hx, h⟩ := bind_eq_ok.1 (located_eq_ok.1 h)
  obtain ⟨hd, -, lead, t, hlead, hrest, hrest₁⟩ := skipSpacesTo_eq_ok hx
  split at h
  · obtain ⟨hdepth, n, c₂, hcontents, hclose⟩ := bracketed_enough_eq_ok hrest₁ h
    have hvalue (k : String) (ms : List (String × α)) : ReadsValue (entryStep item k ms) :=
      readsValue_colon.bind fun _ => hitem.closed.bind fun _ => .pure
    have hcolon (k : String) (ms : List (String × α)) : HasColon (entryStep item k ms) :=
      hasColon_bind fun _ => hitem.closed.fixed.bind fun _ => .pure
    obtain ⟨-, hbrace, inner, ms, hinner, hms, hsteps⟩ := steps_of_membersFrom hvalue hcolon hcontents
    obtain ⟨-, hend⟩ := closeObject_eq_ok hclose hbrace
    obtain ⟨es, hes, rfl⟩ := entries_of_steps hitem hsteps
    have ht : t = inner ++ (Member.joined ms ++ c₂.rest) := hms
    have hend : c₂.rest = '}' :: c'.rest := hend
    exact ⟨hd ▸ hdepth, lead, inner, ms, es, hlead, hinner, by rw [hrest, ht, hend], hd ▸ hes, rfl⟩
  · exact absurd h (refuses_unexpected _ _ _ _)

end Reader

end DataClient.Json
