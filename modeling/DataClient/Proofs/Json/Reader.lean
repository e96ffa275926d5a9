import DataClient.Json.Shape
import Mathlib.Data.String.Basic

/-!
# What readers read

A reader ensures a property if everything it reads has it (`Ensures`). The property of a list comes
from that of its items, that of an object from an invariant over its members, and that of a record
from an invariant over its fields. What a reader refuses plays no part, so most steps of a reader
can be passed over (`Ensures.after`).

Dictionaries are kept in the order of their keys by the one function that adds to them, so the keys
of a dictionary that has been read increase strictly (`ensures_dictionary`).
-/

set_option autoImplicit false

namespace DataClient.Json

/-- The keys increase strictly. -/
def Ordered {α : Type} (ms : List (String × α)) : Prop := (ms.map (·.1)).Pairwise (· < ·)

theorem mem_keys_insertMember {α : Type} {key k : String} {value : α} {ms : List (String × α)}
    (h : k ∈ (insertMember key value ms).map (·.1)) : k = key ∨ k ∈ ms.map (·.1) := by
  induction ms with
  | nil => simpa [insertMember] using h
  | cons m rest ih =>
    unfold insertMember at h
    split at h
    · rename_i heq
      simpa [heq] using h
    · split at h
      · simpa using h
      · rw [List.map_cons, List.mem_cons] at h ⊢
        rcases h with h | h
        · exact .inr (.inl h)
        · rcases ih h with h | h
          · exact .inl h
          · exact .inr (.inr h)

theorem Ordered.insertMember {α : Type} {key : String} {value : α} {ms : List (String × α)}
    (h : Ordered ms) : Ordered (insertMember key value ms) := by
  unfold Ordered at h ⊢
  induction ms with
  | nil => simp [Json.insertMember]
  | cons m rest ih =>
    obtain ⟨hm, hrest⟩ := List.pairwise_cons.1 h
    unfold Json.insertMember
    split
    · rename_i heq
      rw [List.map_cons, heq]
      exact h
    · rename_i hne
      split
      · rename_i hlt
        rw [List.map_cons, List.pairwise_cons]
        refine ⟨fun k hk => ?_, h⟩
        rcases List.mem_cons.1 hk with rfl | hk
        · exact hlt
        · exact lt_trans hlt (hm k hk)
      · rename_i hle
        rw [List.map_cons, List.pairwise_cons]
        refine ⟨fun k hk => ?_, ih hrest⟩
        rcases mem_keys_insertMember hk with rfl | hk
        · exact lt_of_le_of_ne (not_lt.1 hle) (Ne.symm hne)
        · exact hm k hk

theorem Ordered.nodup {α : Type} {ms : List (String × α)} (h : Ordered ms) :
    (ms.map (·.1)).Nodup :=
  h.imp fun hlt => ne_of_lt hlt

theorem Ordered.lookup_iff {α : Type} {key : String} {value : α} {ms : List (String × α)}
    (h : Ordered ms) : lookup key ms = some value ↔ (key, value) ∈ ms := by
  induction ms with
  | nil => simp [lookup]
  | cons m rest ih =>
    obtain ⟨hm, hrest⟩ := List.pairwise_cons.1 h
    by_cases hkey : m.1 = key
    · have hnot : (key, value) ∉ rest := fun hmem =>
        lt_irrefl _ (hkey ▸ hm key (List.mem_map_of_mem hmem))
      simp [lookup, hkey, hnot, Prod.ext_iff, eq_comm]
    · have hne : (key, value) ≠ m := fun heq => hkey (heq ▸ rfl)
      rw [List.mem_cons, or_iff_right hne, ← ih hrest]
      simp [lookup, hkey]

namespace Reader

variable {α β σ : Type}

/-- Everything that is read has the property. -/
def Ensures (r : Reader α) (P : α → Prop) : Prop := ∀ c a c', r c = .ok a c' → P a

theorem Ensures.pure {P : α → Prop} {a : α} (h : P a) : Ensures (Pure.pure a) P := by
  intro c b c' hb
  cases hb
  exact h

theorem Ensures.bind {x : Reader α} {f : α → Reader β} {Q : α → Prop} {P : β → Prop}
    (hx : Ensures x Q) (hf : ∀ a, Q a → Ensures (f a) P) : Ensures (x >>= f) P := by
  intro c b c' h
  change EStateM.bind x f c = .ok b c' at h
  unfold EStateM.bind at h
  split at h
  · rename_i a d ha
    exact hf a (hx c a d ha) d b c' h
  · cases h

theorem Ensures.after {x : Reader α} {f : α → Reader β} {P : β → Prop}
    (hf : ∀ a, Ensures (f a) P) : Ensures (x >>= f) P :=
  Ensures.bind (fun _ _ _ _ => trivial) fun a (_ : True) => hf a

section Refusals

variable {P : α → Prop} {cause : Cause}

theorem ensures_failHere : Ensures (failHere cause) P := fun _ _ _ h => by cases h

theorem ensures_failNext : Ensures (failNext cause) P := fun _ _ _ h => by cases h

theorem ensures_failShape : Ensures (failShape cause) P := fun _ _ _ h => by cases h

end Refusals

theorem Ensures.located {r : Reader α} {P : α → Prop} (h : Ensures r P) :
    Ensures (Reader.located r) P := by
  intro c a c' ha
  unfold Reader.located at ha
  split at ha
  · cases ha
  · exact h c a c' ha

theorem Ensures.bracketed {r : Reader α} {close : Reader Unit} {P : α → Prop} (h : Ensures r P) :
    Ensures (Reader.bracketed r close) P := by
  intro c a c' ha
  unfold Reader.bracketed at ha
  split at ha
  · cases ha
  · split at ha
    · rename_i b d hb
      dsimp only at ha
      split at ha
      · cases ha
        exact Ensures.after (fun _ => h) _ _ _ hb
      · cases ha
    · split at ha <;> cases ha

theorem ensures_unexpected {expected : String} {P : α → Prop} :
    Ensures (unexpected expected) P := by
  refine Ensures.located (Ensures.after fun x => ?_)
  split
  · exact .after fun _ => .after fun _ => ensures_failShape
  · exact .after fun _ => .after fun _ => ensures_failShape
  · exact .after fun _ => .after fun _ => ensures_failShape
  · exact .after fun _ => .after fun _ => ensures_failShape
  · exact .after fun _ => .after fun _ => ensures_failShape
  · exact ensures_failShape
  · exact ensures_failShape
  · split
    · exact .after fun _ => ensures_failShape
    · exact ensures_failNext
  · exact ensures_failNext

/-! ## Lists and dictionaries -/

theorem ensures_itemsFrom {item : Nat → Reader α} {P : α → Prop} (h : ∀ i, Ensures (item i) P)
    (fuel i : Nat) : Ensures (itemsFrom item fuel i) fun xs => ∀ x ∈ xs, P x := by
  induction fuel generalizing i with
  | zero => exact ensures_failHere
  | succ fuel ih =>
    refine Ensures.after fun more => ?_
    split
    · refine (h i).bind fun x hx => (ih (i + 1)).bind fun xs hxs => .pure ?_
      exact List.forall_mem_cons.2 ⟨hx, hxs⟩
    · exact .pure (by simp)

/-- An invariant that each member keeps. -/
theorem ensures_membersFrom {member : String → σ → Reader σ} {P : σ → Prop}
    (h : ∀ k s, P s → Ensures (member k s) P) (fuel : Nat) (first : Bool) {s : σ} (hs : P s) :
    Ensures (membersFrom member fuel first s) P := by
  induction fuel generalizing first s with
  | zero => exact ensures_failHere
  | succ fuel ih =>
    refine Ensures.after fun more => ?_
    split
    · exact .after fun k => (h k s hs).bind fun s' hs' => ih false hs'
    · exact .pure hs

theorem ensures_list {item : Reader α} {P : α → Prop} (h : Ensures item P) :
    Ensures (list item) fun xs => ∀ x ∈ xs, P x := by
  refine Ensures.located (Ensures.after fun x => ?_)
  split
  · exact Ensures.bracketed (.after fun fuel => ensures_itemsFrom (fun _ => h) fuel 0)
  · exact ensures_unexpected

/-- **The keys of a dictionary increase strictly.** -/
theorem ensures_dictionary {item : Reader α} : Ensures (dictionary item) Ordered := by
  have hmember : ∀ k (ms : List (String × α)), Ordered ms →
      Ensures (do colon; return insertMember k (← item) ms) Ordered :=
    fun k ms hms => .after fun _ => .after fun a => .pure hms.insertMember
  refine Ensures.located (Ensures.after fun x => ?_)
  split
  · exact Ensures.bracketed (.after fun fuel => ensures_membersFrom hmember fuel true .nil)
  · exact ensures_unexpected

/-! ## Records -/

section Records

variable {fields : List (FieldReader σ)} {P : σ → Prop}
  (h : ∀ f ∈ fields, ∀ s, P s → Ensures (f.read s) P)

include h

theorem ensures_fieldByName (k : String) {s : σ} (hs : P s) :
    Ensures (fieldByName fields k s) P := by
  unfold fieldByName
  split
  · rename_i f hf
    split
    · exact ensures_failShape
    · exact .after fun _ => h f (List.mem_of_find?_eq_some hf) s hs
  · exact .after fun _ => .after fun _ => .pure hs

theorem ensures_fieldsInOrder (expected : String) (i : Nat) {s : σ} (hs : P s) :
    Ensures (fieldsInOrder expected fields i s) P := by
  -- Where the list ends early the state stays as it is.
  have hrest : ∀ s, P s → ∀ gs j, Ensures (fieldsInOrder.rest expected s gs j) P := by
    intro s hs gs
    induction gs with
    | nil => exact fun j => .pure hs
    | cons g gs ih =>
      intro j
      unfold fieldsInOrder.rest
      split
      · exact ih (j + 1)
      · exact ensures_failShape
  induction fields generalizing i s with
  | nil => exact .pure hs
  | cons f fs ih =>
    refine Ensures.after fun more => ?_
    split
    · exact (h f (by simp) s hs).bind fun s' hs' =>
        ih (fun g hg => h g (by simp [hg])) (i + 1) hs'
    · exact hrest s hs _ _

/-- **What a record is built from has every property that each field keeps.** -/
theorem ensures_record {name : String} {empty : σ} {finish : σ → Except String α} {Q : α → Prop}
    (hempty : P empty) (hfinish : ∀ s a, P s → finish s = .ok a → Q a) :
    Ensures (record name fields empty finish) Q := by
  unfold record
  extract_lets done
  have hdone : ∀ s, P s → Ensures (done s) Q := by
    intro s hs
    dsimp only [done]
    split
    · rename_i a ha
      exact .pure (hfinish s a hs ha)
    · exact ensures_failShape
  refine Ensures.located (Ensures.after fun x => ?_)
  split
  · exact .bracketed ((ensures_fieldsInOrder h _ 0 hempty).bind hdone)
  · exact .bracketed (.after fun fuel =>
      (ensures_membersFrom (fun k s hs => ensures_fieldByName h k hs) fuel true hempty).bind hdone)
  · exact ensures_unexpected

end Records

end Reader

/-- What has been read of a whole text has every property that the reader ensures. -/
theorem Reader.Ensures.read {α : Type} {r : Reader α} {P : α → Prop} (h : r.Ensures P)
    {text : String} {a : α} (ha : Json.read r text = .ok a) : P a := by
  unfold Json.read at ha
  extract_lets cs whole at ha
  split at ha
  · rename_i b c hb
    cases ha
    refine (h.bind fun b hb => .after fun x => ?_ : Reader.Ensures whole P) _ _ _ hb
    split
    · exact .pure hb
    · exact ensures_failNext
  · cases ha

end DataClient.Json
