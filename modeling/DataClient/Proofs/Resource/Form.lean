import DataClient.Proofs.Resource.Fields

/-!
# Kinds of documents that survive being sent

A form says how resources of a kind are written and read: which members they are written as, what is
known of one when some of its members have been read, and that every field that may be left out is
loose. Whatever has a form survives: what is sent is read back, so is every listing, and null in a
field that may be left out says the same as its absence (`Form.survives`).
-/

set_option autoImplicit false

namespace DataClient.Resource

open Json Json.Reader

variable {α σ : Type}

/-- How resources of a kind are written and read. -/
structure Form (α σ : Type) where
  name : String
  fields : List (FieldReader σ)
  empty : σ
  finish : σ → Except String α
  /-- The members that a resource is written as. -/
  members : α → List (String × Json)
  /-- What is known of a resource when the members of some names have been read. -/
  known : α → List String → σ
  /-- The dictionaries of a resource stand in the order of their keys. -/
  ordered : α → Prop
  readsValue : ∀ f ∈ fields, ∀ s, ReadsValue (f.read s)
  loose : ∀ key ∈ optionalNames fields, IsLoose fields finish key
  ensures_ordered : (record name fields empty finish).Ensures ordered
  known_nil : ∀ a, known a [] = empty
  keys_nodup : ∀ a, ((members a).map (·.1)).Nodup
  sorted_values : ∀ a, ordered a → ∀ m ∈ members a, m.2.sorted = m.2
  takes_member : ∀ a, ordered a → ∀ m ∈ members a, ∀ names, m.1 ∉ names → ∀ d, 1 < d →
    ∀ (l : Layout) (level : Nat), Takes Ends (fieldByName fields m.1 (known a names)) d
      (':' :: (l.gap ++ written l level m.2)) (known a (names ++ [m.1]))
  finish_known : ∀ a names, (∀ key, key ∈ names ↔ key ∈ (members a).map (·.1)) →
    finish (known a names) = .ok a

namespace Form

variable (f : Form α σ)

/-- Reads a resource. -/
def reader : Reader α := record f.name f.fields f.empty f.finish

def toJson (a : α) : Json := .object (f.members a)

variable {f} {a : α}

/-- **A resource is read back from its members, in whatever order they stand.** -/
theorem reads (ha : f.ordered a) {ms : List (String × Json)} (hms : ms.Perm (f.members a)) {d : Nat}
    (hd : 2 < d) : Reads f.reader d (.object ms) a := by
  have hkeys : (ms.map (·.1)).Nodup := ((hms.map _).nodup_iff).2 (f.keys_nodup a)
  unfold reader
  rw [← f.known_nil a]
  refine Reads.record (fun pre => f.known a (pre.map (·.1))) (by omega) (fun pre m post hpre l level => ?_)
    (f.finish_known a _ fun key => (hms.map _).mem_iff)
  have hmem : m ∈ f.members a := hms.subset (by simp [hpre])
  have hnew : m.1 ∉ pre.map (·.1) := by
    rw [hpre, List.map_append, List.map_cons] at hkeys
    exact fun h => (List.nodup_append.1 hkeys).2.2 _ h _ List.mem_cons_self rfl
  rw [List.map_append]
  exact f.takes_member a ha m hmem _ hnew _ (by omega) l level

theorem reads_toJson (ha : f.ordered a) {d : Nat} (hd : 2 < d) : Reads f.reader d (f.toJson a) a :=
  reads ha (.refl _) hd

theorem reads_sorted (ha : f.ordered a) {d : Nat} (hd : 2 < d) :
    Reads f.reader d (f.toJson a).sorted a := by
  obtain ⟨ms, hsorted, hperm⟩ := sorted_object (f.keys_nodup a) (f.sorted_values a ha)
  rw [toJson, hsorted]
  exact reads ha hperm hd

end Form

/-- The members of an object, as they are read one by one, say what `a` is. -/
def Says (f : Form α σ) (ms : List Member) (a : α) : Prop :=
  ∃ s, Steps (fieldByName f.fields) (depthLimit - 1) f.empty ms s ∧ f.finish s = .ok a

/-- Documents of a kind survive; `optional` are the fields that may be left out. -/
structure Survives (k : Kind α) (f : Form α σ) (optional : List String) : Prop where
  /-- The body of a request that carries a resource is read as that resource. -/
  sent : ∀ (request : Request) (item : α), f.ordered item → ∃ text,
    (k.carrying request item).body.bytes = text.toUTF8 ∧ Json.read k.reader text = .ok item
  /-- The listing of resources is read as the same resources. -/
  listed : ∀ items : List α, (∀ item ∈ items, f.ordered item) →
    Json.read (list k.reader) (k.render items .json) = .ok items
  /-- In an accepted object null in a field that may be left out says the same as its absence. -/
  edited : ∀ text item, IsObject text → Json.read k.reader text = .ok item →
    ∃ lead inner ms trail, text = objectText lead inner ms trail ∧ Says f ms item ∧
      ∀ pre m post, ms = pre ++ m :: post → m.name ∈ optional → ∃ item',
        Json.read k.reader
          (objectText lead inner (pre ++ { m with value := ['n', 'u', 'l', 'l'] } :: post) trail)
          = .ok item' ∧
        Json.read k.reader (objectText lead inner (pre ++ post) trail) = .ok item'
  /-- What has been read, from any document, is sent as a body that is read as the same. -/
  again : ∀ text item, Json.read k.reader text = .ok item → ∀ request : Request, ∃ text',
    (k.carrying request item).body.bytes = text'.toUTF8 ∧ Json.read k.reader text' = .ok item

theorem Form.read_body {f : Form α σ} {k : Kind α} (hreader : k.reader = f.reader)
    (hjson : ∀ a, k.toJson a = f.toJson a) {item : α} (hitem : f.ordered item) :
    Json.read k.reader (k.toJson item).sorted.compact = .ok item := by
  rw [hreader, hjson]
  exact (f.reads_sorted hitem (by decide)).read_compact

/-- **Whatever has a form survives.** -/
theorem Form.survives {f : Form α σ} {k : Kind α} (hreader : k.reader = f.reader)
    (hjson : ∀ a, k.toJson a = f.toJson a)
    (hrender : ∀ items, k.render items .json = renderJson (.array (items.map k.toJson))) :
    Survives k f (optionalNames f.fields) where
  sent request item hitem := ⟨_, rfl, read_body hreader hjson hitem⟩
  listed items hitems := by
    have hlist : Reads (list f.reader) depthLimit (.array (items.map f.toJson)) (items.map id) :=
      Reads.list (by decide) fun item hitem => reads_toJson (hitems item hitem) (by decide)
    rw [List.map_id] at hlist
    rw [hrender, hreader, funext hjson]
    exact hlist.read_pretty
  edited text item hobject hread := by
    rw [hreader] at hread ⊢
    obtain ⟨lead, inner, ms, trail, s, htext, hsteps, hs, hedit⟩ :=
      read_edited f.readsValue hobject hread
    refine ⟨lead, inner, ms, trail, htext, ⟨s, hsteps, hs⟩, fun pre m post hms hm => ?_⟩
    obtain ⟨g, null, blank, hname, hloose⟩ := f.loose m.name hm
    exact hedit pre m post g null blank hms hname.symm hloose
  again text item hread request :=
    ⟨_, rfl, read_body hreader hjson (f.ensures_ordered.read (hreader ▸ hread))⟩

end DataClient.Resource
