import DataClient.Proofs.Json.Loose
import DataClient.Proofs.Json.ReadBack
import DataClient.Resource.Service

/-!
# Fields of resources

Every field of a resource reads a value and puts it into one component of a state. What a field of
one component does is not noticed by those of the others, so a field whose null stands for what the
resource has without it is loose (`loose_of_optional`), and a member that is written for a field is
read back into its component (`takes_fieldByName`), in whatever order the members stand
(`sorted_object`).
-/

set_option autoImplicit false

namespace DataClient

namespace Json

/-! ## Documents in the order of their keys -/

variable {α : Type}

theorem insertMember_perm {k : String} {a : α} {ms : List (String × α)} (h : k ∉ ms.map (·.1)) :
    (insertMember k a ms).Perm ((k, a) :: ms) := by
  induction ms with
  | nil => exact .refl _
  | cons m ms ih =>
    rw [List.map_cons, List.mem_cons, not_or] at h
    obtain ⟨hne, hnot⟩ := h
    unfold insertMember
    rw [if_neg hne]
    split
    · exact .refl _
    · exact ((ih hnot).cons m).trans (.swap _ _ _)

/-- Members with different keys stay the same members when they are put in order. -/
theorem members_perm {ms : List (String × α)} (h : (ms.map (·.1)).Nodup) : (members ms).Perm ms := by
  suffices hall : ∀ ms acc : List (String × α), ((acc ++ ms).map (·.1)).Nodup →
      (ms.foldl (fun acc m => insertMember m.1 m.2 acc) acc).Perm (acc ++ ms) from hall ms [] h
  intro ms
  induction ms with
  | nil => exact fun acc _ => by rw [List.append_nil]; exact .refl _
  | cons m ms ih =>
    intro acc hnodup
    have hperm : (insertMember m.1 m.2 acc ++ ms).Perm (acc ++ m :: ms) := by
      have hnot : m.1 ∉ acc.map (·.1) := by
        rw [List.map_append, List.map_cons] at hnodup
        exact fun hmem => (List.nodup_append.1 hnodup).2.2 _ hmem _ List.mem_cons_self rfl
      exact ((insertMember_perm hnot).append_right ms).trans List.perm_middle.symm
    exact (ih _ ((hperm.map _).nodup_iff.2 hnodup)).trans hperm

theorem members_of_ordered {ms : List (String × α)} (h : Ordered ms) : members ms = ms := by
  suffices hall : ∀ ms acc : List (String × α), Ordered (acc ++ ms) →
      ms.foldl (fun acc m => insertMember m.1 m.2 acc) acc = acc ++ ms from hall ms [] h
  intro ms
  induction ms with
  | nil => exact fun acc _ => (List.append_nil acc).symm
  | cons m ms ih =>
    intro acc hordered
    have hlt : ∀ e ∈ acc, e.1 < m.1 := by
      intro e he
      rw [Ordered, List.map_append, List.pairwise_append] at hordered
      exact hordered.2.2 e.1 (List.mem_map_of_mem he) m.1 (by simp)
    have happend : acc ++ m :: ms = acc ++ [m] ++ ms := by rw [List.append_assoc]; rfl
    rw [List.foldl_cons, Reader.insertMember_append hlt, happend]
    exact ih _ (happend ▸ hordered)

theorem sortedMembers_eq {ms : List (String × Json)} (h : ∀ m ∈ ms, m.2.sorted = m.2) :
    sortedMembers ms = ms := by
  induction ms with
  | nil => rfl
  | cons m ms ih =>
    obtain ⟨hm, hms⟩ := List.forall_mem_cons.1 h
    rw [sortedMembers, hm, ih hms]

/-- An object with different keys, and values in order, has the same members in order. -/
theorem sorted_object {ms : List (String × Json)} (hkeys : (ms.map (·.1)).Nodup)
    (h : ∀ m ∈ ms, m.2.sorted = m.2) : ∃ ms', (Json.object ms).sorted = .object ms' ∧ ms'.Perm ms := by
  refine ⟨members ms, ?_, members_perm hkeys⟩
  rw [sorted, sortedMembers_eq h, ofMembers]

theorem sorted_object_of_ordered {ms : List (String × Json)} (hordered : Ordered ms)
    (h : ∀ m ∈ ms, m.2.sorted = m.2) : (Json.object ms).sorted = .object ms := by
  rw [sorted, sortedMembers_eq h, ofMembers, members_of_ordered hordered]

theorem sorted_string (s : String) : (Json.string s).sorted = .string s := rfl

theorem sorted_array {items : List Json} (h : ∀ j ∈ items, j.sorted = j) :
    (Json.array items).sorted = .array items := by
  have hitems : sortedItems items = items := by
    induction items with
    | nil => rfl
    | cons j items ih =>
      obtain ⟨hj, hitems⟩ := List.forall_mem_cons.1 h
      rw [sortedItems, hj, ih hitems]
  rw [sorted, hitems]

end Json

namespace Json.Reader

variable {α β γ σ : Type}

/-! ## Fields of one component -/

theorem Blind.of_put {φ : σ → σ} {g : FieldReader σ} {q : Reader γ} {put : σ → γ → σ}
    (hread : ∀ s, g.read s = do return put s (← q)) (hput : ∀ s v, φ (put s v) = put (φ s) v)
    (hset : ∀ s, g.isSet (φ s) = g.isSet s) : Blind φ g := by
  refine ⟨fun s c s' c' h => ?_, hset⟩
  rw [hread] at h ⊢
  obtain ⟨v, c₁, hv, h⟩ := bind_eq_ok.1 h
  cases h
  exact bind_eq_ok.2 ⟨v, _, hv, congrArg (EStateM.Result.ok · _) (hput s v).symm⟩

/-- Fields of different components are apart; on records all of this holds by computation. -/
theorem Apart.of_put {isSet : σ → Bool} {null blank : σ → σ} {g : FieldReader σ} {q : Reader γ}
    {put : σ → γ → σ} (hread : ∀ s, g.read s = do return put s (← q))
    (hnull : ∀ s v, null (put s v) = put (null s) v := by intros; rfl)
    (hnullSet : ∀ s, g.isSet (null s) = g.isSet s := by intros; rfl)
    (hblank : ∀ s v, blank (put s v) = put (blank s) v := by intros; rfl)
    (hblankSet : ∀ s, g.isSet (blank s) = g.isSet s := by intros; rfl)
    (hkeeps : ∀ s v, isSet (put s v) = isSet s := by intros; rfl) :
    Apart isSet null blank g := by
  refine ⟨.of_put hread hnull hnullSet, .of_put hread hblank hblankSet, fun s c s' c' h => ?_⟩
  rw [hread] at h
  obtain ⟨v, c₁, -, h⟩ := bind_eq_ok.1 h
  cases h
  exact hkeeps s v

section Loose

variable {fields : List (FieldReader σ)}

/-- The field of the name is loose. -/
def IsLoose (fields : List (FieldReader σ)) (finish : σ → Except String α) (name : String) : Prop :=
  ∃ f null blank, f.name = name ∧ Loose fields finish f null blank

/-- A field that puts a value or null into its component is loose if null does as much as nothing. -/
theorem isLoose_of_optional (finish : σ → Except String α) {name : String} {f : FieldReader σ}
    {r : Reader β} (put : σ → Option β → σ) (blank : σ → σ)
    (hfound : fields.find? (·.name == name) = some f)
    (hread : ∀ s, f.read s = do return put s (← optional r))
    (hunset : ∀ s, f.isSet s = false → blank s = s)
    (hothers : ∀ g ∈ fields, g.name ≠ name → Apart f.isSet (put · none) blank g)
    (hok : ∀ s a, finish s = .ok a → ∃ a', finish (blank s) = .ok a')
    (hset : ∀ s v, f.isSet (put s v) = true := by intros; rfl)
    (hnull : ∀ s v, put (put s v) none = put s none := by intros; rfl)
    (hblank : ∀ s v, blank (put s v) = blank s := by intros; rfl)
    (hfinish : ∀ s, finish (put s none) = finish (blank s) := by intros; rfl) : IsLoose fields finish name := by
  have hname : f.name = name := by simpa using List.find?_some hfound
  subst hname
  refine ⟨f, (put · none), blank, rfl, hfound, hunset, fun s c s' c' h => ?_, fun s d => ?_, hothers, hfinish,
    hok⟩
  · rw [hread] at h
    obtain ⟨v, c₁, -, h⟩ := bind_eq_ok.1 h
    cases h
    exact ⟨hset s v, hnull s v, hblank s v⟩
  · rw [hread]
    exact (takes_null r d).then_pure (g := put s)

end Loose

theorem takes_fieldByName {fields : List (FieldReader σ)} {k : String} {s : σ} {f : FieldReader σ}
    {r : Reader β} {p : σ → β → σ} {d : Nat} {j : Json} {v : β}
    (hfound : fields.find? (·.name == k) = some f) (hunset : f.isSet s = false)
    (hread : ∀ s, f.read s = do return p s (← r)) (hv : Reads r d j v) (l : Layout) (level : Nat) :
    Takes Ends (fieldByName fields k s) d (':' :: (l.gap ++ written l level j)) (p s v) := by
  intro o rest hrest
  obtain ⟨o', h'⟩ := takes_colon_value l ((hv l level).then_pure (g := p s)) o rest hrest
  refine ⟨o', fieldByName_eq_ok.2 (.inl ⟨f, hfound, hunset, ?_⟩)⟩
  rw [hread]
  exact h'

end Json.Reader

namespace Resource

open Json Json.Reader

/-! ## The kinds of fields -/

section Kinds

variable {α σ : Type} {fields : List (FieldReader σ)} {k : String} {s s' : σ} {d : Nat} {j : Json}

theorem takes_required {r : Reader α} {get : σ → Option α} {set : σ → α → σ} {a : α}
    (hfound : fields.find? (·.name == k) = some (required k r get set)) (hunset : get s = none)
    (ha : Reads r d j a) (hs : set s a = s') (l : Layout) (level : Nat) :
    Takes Ends (fieldByName fields k s) d (':' :: (l.gap ++ written l level j)) s' :=
  hs ▸ takes_fieldByName hfound (congrArg Option.isSome hunset) (fun _ => rfl) ha l level

theorem takes_optionalField {r : Reader α} {get : σ → Option (Option α)} {set : σ → Option α → σ} {a : α}
    (hfound : fields.find? (·.name == k) = some (optionalField k r get set)) (hunset : get s = none)
    (ha : Reads r d j a) (hj : NotNull j) (hs : set s (some a) = s') (l : Layout) (level : Nat) :
    Takes Ends (fieldByName fields k s) d (':' :: (l.gap ++ written l level j)) s' :=
  hs ▸ takes_fieldByName hfound (congrArg Option.isSome hunset) (fun _ => rfl) (ha.optional hj) l level

theorem takes_emptiable {r : Reader (List α)} {get : σ → Option (List α)} {set : σ → List α → σ}
    {as : List α} (hfound : fields.find? (·.name == k) = some (emptiable k r get set))
    (hunset : get s = none) (ha : Reads r d j as) (hj : NotNull j) (hs : set s as = s') (l : Layout)
    (level : Nat) :
    Takes Ends (fieldByName fields k s) d (':' :: (l.gap ++ written l level j)) s' :=
  hs ▸ takes_fieldByName (p := fun s v => set s (v.getD [])) hfound (congrArg Option.isSome hunset)
    (fun _ => rfl) (ha.optional hj) l level

theorem readsValue_required {name : String} {r : Reader α} (hr : ReadsValue r) {get : σ → Option α}
    {set : σ → α → σ} (s : σ) : ReadsValue ((required name r get set).read s) :=
  hr.bind fun _ => .pure

theorem readsValue_optionalField {name : String} {r : Reader α} (hr : ReadsValue r)
    {get : σ → Option (Option α)} {set : σ → Option α → σ} (s : σ) :
    ReadsValue ((optionalField name r get set).read s) :=
  (readsValue_optional hr).bind fun _ => .pure

theorem readsValue_emptiable {name : String} {r : Reader (List α)} (hr : ReadsValue r)
    {get : σ → Option (List α)} {set : σ → List α → σ} (s : σ) :
    ReadsValue ((emptiable name r get set).read s) :=
  (readsValue_optional hr).bind fun _ => .pure

theorem mem_optionalMember {name : String} {toJson : α → Json} {o : Option α} {m : String × Json} :
    m ∈ optionalMember name toJson o ↔ ∃ a, o = some a ∧ m = (name, toJson a) := by
  cases o <;> simp [optionalMember]

theorem keys_optionalMember (name : String) (toJson : α → Json) (o : Option α) :
    ((optionalMember name toJson o).map (·.1)).Sublist [name] := by
  cases o <;> simp [optionalMember]

theorem mem_keys_optionalMember {key name : String} {toJson : α → Json} {o : Option α} :
    key ∈ (optionalMember name toJson o).map (·.1) ↔ key = name ∧ o.isSome = true := by
  cases o <;> simp [optionalMember]

/-- A component whose member is written only if it has a value. -/
theorem getD_known {p : Prop} [Decidable p] {o : Option α} (h : p ↔ o.isSome = true) :
    (if p then some o else none).getD none = o := by
  cases o <;> simp_all

/-! ## Values of fields -/

theorem reads_dictionaryJson {r : Reader α} {f : α → Json} (hd : 1 < d) {ms : List (String × α)}
    (hordered : Ordered ms) (h : ∀ a, Reads r (d - 1) (f a) a) :
    Reads (dictionary r) d (dictionaryJson f ms) ms := by
  have hall := Reads.dictionary (g := id) hd hordered fun e _ => h e.2
  have hsame : ms.map (fun e => (e.1, id e.2)) = ms := List.map_id'' (fun _ => rfl) ms
  rwa [hsame] at hall

theorem sorted_dictionaryJson {f : α → Json} {ms : List (String × α)} (hordered : Ordered ms)
    (h : ∀ a, (f a).sorted = f a) : (dictionaryJson f ms).sorted = dictionaryJson f ms := by
  refine sorted_object_of_ordered ?_ fun m hm => ?_
  · rw [Ordered, List.map_map]
    exact hordered
  · obtain ⟨e, -, rfl⟩ := List.mem_map.1 hm
    exact h e.2

theorem reads_strings (hd : 1 < d) (xs : List String) :
    Reads (list string) d (.array (xs.map .string)) xs := by
  have hall := Reads.list (g := id) hd fun s (_ : s ∈ xs) => reads_string s (d - 1)
  rwa [List.map_id] at hall

theorem sorted_strings (xs : List String) :
    (Json.array (xs.map .string)).sorted = .array (xs.map .string) := by
  refine sorted_array fun j hj => ?_
  obtain ⟨s, -, rfl⟩ := List.mem_map.1 hj
  rfl

theorem reads_dataSource (s : DataSource) (d : Nat) : Reads readDataSource d (.string s.name) s := by
  cases s <;> exact reads_variant rfl d

theorem reads_fieldType (t : FieldType) (d : Nat) : Reads readFieldType d (.string t.name) t := by
  cases t <;> exact reads_variant rfl d

theorem reads_granularity (g : Granularity) (d : Nat) : Reads readGranularity d (.string g.name) g := by
  cases g <;> exact reads_variant rfl d

/-- The dictionary of a field that is empty when it is left out or null is in order. -/
theorem ensures_emptiable {name : String} {r : Reader α} {get : σ → Option (List (String × α))}
    {set : σ → List (String × α) → σ} {P : σ → Prop} {s : σ} (h : ∀ ms, Ordered ms → P (set s ms)) :
    Ensures ((emptiable name (dictionary r) get set).read s) P := by
  have hoptional : Ensures (optional (dictionary r)) fun o => Ordered (o.getD []) := by
    refine .after fun x => ?_
    split
    · exact .after fun _ => .after fun _ => .pure .nil
    · exact ensures_dictionary.bind fun ms hms => .pure hms
  exact hoptional.bind fun o ho => .pure (h _ ho)

theorem ordered_getD {o : Option (List (String × α))} (h : ∀ ms ∈ o, Ordered ms) : Ordered (o.getD []) := by
  cases o with
  | none => exact .nil
  | some ms => exact h ms rfl

/-- The names of the fields that may be left out. -/
def optionalNames (fields : List (FieldReader σ)) : List String :=
  (fields.filter (·.mayEnd)).map (·.name)

end Kinds

end Resource

end DataClient
