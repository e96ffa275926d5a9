import DataClient.Proofs.Arrow.Reader

/-!
# What the readers yield

Both readers load a batch column by column along the schema and compare the length of each column
with that of the batch. So every batch of a payload that has been read has one column for each
field, each as long as the batch (`readPayload_batches`), whatever the payload declares.
-/

set_option autoImplicit false

namespace DataClient.Arrow

open Outcome

/-- A batch with a column for each field of a schema, all as long as the batch. -/
structure Batch.Of (schema : Schema) (batch : Batch) : Prop where
  columns : batch.columns.length = schema.length
  slots : ∀ v ∈ batch.columns, v.length = batch.rowCount

theorem length_loadColumns {s : Source} {schema : Schema} {p : Pending} {r : List Vector × Pending}
    (h : (loadColumns s schema).run p = .ok r) : r.1.length = schema.length := by
  induction schema generalizing p r with
  | nil =>
    cases h
    rfl
  | cons f fs ih =>
    obtain ⟨⟨v, p₁⟩, _, h⟩ := bind_eq_ok.1 h
    obtain ⟨⟨vs, p₂⟩, hvs, h⟩ := bind_eq_ok.1 h
    cases h
    simpa using ih hvs

/-- A batch that is read was loaded along the schema from the dictionaries and the body of its site,
has the declared number of rows, and every column has as many. -/
theorem readBatch_eq_ok {schema : Schema} {site : Site} {header : BatchHeader} {batch : Batch}
    (h : readBatch schema site header = .ok batch) :
    ∃ source pending rest, source.dictionaries = site.dictionaries ∧ source.body = site.body ∧
      (loadColumns source schema).run pending = .ok (batch.columns, rest) ∧
      batch.rowCount = Load.countOf header.length ∧
      ∀ v ∈ batch.columns, v.length = batch.rowCount := by
  unfold readBatch at h
  split at h
  case h_2 => cases h
  split at h
  case h_2 => cases h
  extract_lets source rowCount load at h
  have loaded (h : load () = .ok batch) : ∃ pending rest,
      source.dictionaries = site.dictionaries ∧ source.body = site.body ∧
        (loadColumns source schema).run pending = .ok (batch.columns, rest) ∧
        batch.rowCount = rowCount ∧ ∀ v ∈ batch.columns, v.length = batch.rowCount := by
    obtain ⟨⟨columns, rest⟩, hload, h⟩ := bind_eq_ok.1 h
    dsimp only at h
    split at h
    · cases h
    · split at h
      · cases h
      · split at h
        · cases h
        · rename_i heven
          cases h
          refine ⟨_, rest, rfl, rfl, hload, rfl, fun v hv => ?_⟩
          simp only [List.any_eq_true, not_exists, not_and] at heven
          simpa using heven v hv
  split at h
  · split at h
    · cases h
    · exact ⟨source, loaded h⟩
  · exact ⟨source, loaded h⟩

theorem readBatch_of {schema : Schema} {site : Site} {header : BatchHeader} {batch : Batch}
    (h : readBatch schema site header = .ok batch) : batch.Of schema := by
  obtain ⟨_, _, _, _, _, hload, _, hslots⟩ := readBatch_eq_ok h
  exact ⟨length_loadColumns hload, hslots⟩

/-! ## What reading keeps -/

theorem Reading.map_eq_ok {α β : Type} {f : α → β} {r : Reading α} {y : β}
    (h : (r.map f).result = .ok y) : ∃ x, r.result = .ok x ∧ y = f x := by
  unfold Reading.map at h
  cases hr : r.result with
  | error why => rw [hr] at h; cases h
  | ok x => rw [hr] at h; cases h; exact ⟨x, rfl, rfl⟩

/-- `P` holds of the dictionaries at hand whatever is read, and with such dictionaries every batch that
is read satisfies `Q`. Bodies have at most `limit` bytes. -/
structure Kept (limit : Nat) (schema : Schema) (P : List (Int × Vector) → Prop) (Q : Batch → Prop) :
    Prop where
  dictionary : ∀ {site : Site} {id : Int} {isDelta : Bool} {data : Option BatchHeader}
    {ds : List (Int × Vector)}, site.body.size ≤ limit → P site.dictionaries →
      readDictionary schema site id isDelta data = .ok ds → P ds
  batch : ∀ {site : Site} {header : BatchHeader} {batch : Batch}, site.body.size ≤ limit →
      P site.dictionaries → readBatch schema site header = .ok batch → Q batch

/-- What is cut out of bytes is no longer than they are. -/
theorem size_le_of_slice? {b part : ByteArray} {start length : Nat}
    (h : Bytes.slice? b start length = some part) : part.size ≤ b.size := by
  unfold Bytes.slice? at h
  split at h
  · cases h
    rw [ByteArray.size_extract]
    omega
  · cases h

theorem size_le_of_take {b part : ByteArray} {pos length : Nat} (h : take b pos length = .ok part) :
    part.size ≤ b.size := by
  unfold take at h
  split at h
  · rename_i hslice
    cases h
    exact size_le_of_slice? hslice
  · cases h

theorem size_body_blockSite_le (b : ByteArray) (p : PlacedBlock) (dictionaries : List (Int × Vector)) :
    (blockSite b p dictionaries).body.size ≤ b.size := by
  rw [blockSite, ByteArray.size_extract]
  omega

namespace Kept

variable {schema : Schema} {P : List (Int × Vector) → Prop} {Q : Batch → Prop}

/-- The batches of a message and of those behind it. -/
theorem readContents {limit : Nat} (hk : Kept limit schema P Q) {m : Message}
    {site : Except String Site} {dictionaries : List (Int × Vector)}
    {next : List (Int × Vector) → Reading (List Batch)}
    (hsite : ∀ s, site = .ok s → s.dictionaries = dictionaries ∧ s.body.size ≤ limit)
    (hds : P dictionaries)
    (hnext : ∀ ds batches, P ds → (next ds).result = .ok batches → ∀ batch ∈ batches, Q batch)
    {batches : List Batch}
    (h : (Arrow.readContents schema m site dictionaries next).result = .ok batches) :
    ∀ batch ∈ batches, Q batch := by
  unfold Arrow.readContents at h
  cases hheader : m.header with
  | none =>
    rw [hheader] at h
    cases h
    simp
  | schema _ | other _ =>
    rw [hheader] at h
    cases h
  | batch header =>
    rw [hheader] at h
    dsimp only at h
    cases hbatch : site.bind fun site => readBatch schema site header with
    | error why => rw [hbatch] at h; cases h
    | ok batch =>
      rw [hbatch] at h
      obtain ⟨s, hs, hread⟩ := bind_eq_ok.1 hbatch
      obtain ⟨rest, hrest, rfl⟩ := Reading.map_eq_ok h
      obtain ⟨hdictionaries, hsize⟩ := hsite s hs
      exact List.forall_mem_cons.2 ⟨hk.batch hsize (hdictionaries ▸ hds) hread, hnext _ _ hds hrest⟩
  | dictionary id isDelta data =>
    rw [hheader] at h
    dsimp only at h
    cases hread : site.bind fun site => readDictionary schema site id isDelta data with
    | error why => rw [hread] at h; cases h
    | ok ds =>
      rw [hread] at h
      obtain ⟨s, hs, hdictionary⟩ := bind_eq_ok.1 hread
      obtain ⟨hdictionaries, hsize⟩ := hsite s hs
      exact hnext _ _ (hk.dictionary hsize (hdictionaries ▸ hds) hdictionary) h

variable {b : ByteArray} (hk : Kept b.size schema P Q)

include hk

theorem readMessages (pos : Nat) {dictionaries : List (Int × Vector)}
    (hds : P dictionaries) {batches : List Batch}
    (h : (Arrow.readMessages b schema pos dictionaries).result = .ok batches) :
    ∀ batch ∈ batches, Q batch := by
  fun_induction Arrow.readMessages b schema pos dictionaries generalizing batches with
  | case1 _ _ why => cases h
  | case2 =>
    cases h
    simp
  | case3 pos dictionaries start length _ message =>
    rename_i ih
    cases hm : message with
    | error why => rw [hm] at h; cases h
    | ok m =>
      rw [hm] at h
      refine hk.readContents (fun s hs => ?_) hds (fun ds _ hds hd => ih m ds hds hd) h
      obtain ⟨body, hbody, hs⟩ := bind_eq_ok.1 hs
      cases hs
      exact ⟨rfl, size_le_of_take hbody⟩

theorem readFileDictionaries {version : Int} {blocks : List PlacedBlock}
    {dictionaries ds : List (Int × Vector)} (hds : P dictionaries)
    (h : Arrow.readFileDictionaries b schema version blocks dictionaries = .ok ds) : P ds := by
  induction blocks generalizing dictionaries with
  | nil =>
    cases h
    exact hds
  | cons p ps ih =>
    unfold Arrow.readFileDictionaries at h
    split at h
    · cases h
    · split at h
      · obtain ⟨ds', hread, h⟩ := bind_eq_ok.1 h
        exact ih (hk.dictionary (size_body_blockSite_le b p _) hds hread) h
      · cases h

theorem readFileBatches {version : Int} {dictionaries : List (Int × Vector)}
    (hds : P dictionaries) {blocks : List PlacedBlock} {batches : List Batch}
    (h : Arrow.readFileBatches b schema version dictionaries blocks = .ok batches) :
    ∀ batch ∈ batches, Q batch := by
  induction blocks generalizing batches with
  | nil =>
    cases h
    simp
  | cons p ps ih =>
    unfold Arrow.readFileBatches at h
    split at h
    · cases h
    · split at h
      · cases h
        simp
      · obtain ⟨batch, hread, h⟩ := bind_eq_ok.1 h
        obtain ⟨rest, hrest, h⟩ := bind_eq_ok.1 h
        cases h
        exact List.forall_mem_cons.2 ⟨hk.batch (size_body_blockSite_le b p _) hds hread, ih hrest⟩
      · cases h

end Kept

/-! ## Payloads -/

section Payload

variable {P : List (Int × Vector) → Prop} {Q : Schema → Batch → Prop}
  {b : ByteArray} (hk : ∀ schema, Kept b.size schema P (Q schema)) (hnil : P [])

include hk hnil

theorem readStream_kept {p : Payload} (h : (readStream b).result = .ok p) :
    ∀ batch ∈ p.batches, Q p.schema batch := by
  unfold readStream at h
  split at h
  · cases h
  · cases h
  · rename_i start length _
    dsimp only [Reading.turn] at h
    cases hs : (messageAt b start length).bind Message.schema with
    | error why => rw [hs] at h; cases h
    | ok schema =>
      rw [hs] at h
      obtain ⟨batches, hread, rfl⟩ := Reading.map_eq_ok h
      exact (hk schema).readMessages _ hnil hread

theorem readFile_kept {f : CheckedFile} {p : Payload} (h : readFile b f = .ok p) :
    ∀ batch ∈ p.batches, Q p.schema batch := by
  unfold readFile at h
  split at h
  · split at h
    · cases h
    · split at h
      · cases h
      · obtain ⟨ds, hds, h⟩ := bind_eq_ok.1 h
        obtain ⟨batches, hread, h⟩ := bind_eq_ok.1 h
        cases h
        exact (hk _).readFileBatches ((hk _).readFileDictionaries hnil hds) hread
  · cases h

/-- **What reading keeps holds of every batch of a payload.** -/
theorem readPayload_kept {p : Payload} (h : readPayload b = pure p) :
    ∀ batch ∈ p.batches, Q p.schema batch := by
  cases hb : isFile b with
  | true =>
    obtain ⟨f, _, hread⟩ := (readPayload_file_eq_pure hb).1 h
    exact readFile_kept hk hnil hread
  | false => exact readStream_kept hk hnil ((readPayload_eq_pure hb).1 h).2

end Payload

/-- **Every batch of a payload has one column for each field, all as long as the batch.** -/
theorem readPayload_batches {b : ByteArray} {p : Payload} (h : readPayload b = pure p) :
    ∀ batch ∈ p.batches, batch.Of p.schema :=
  readPayload_kept (P := fun _ => True)
    (fun _ => ⟨fun _ _ _ => trivial, fun _ _ => readBatch_of⟩) trivial h

theorem size_pos_of_readPayload {b : ByteArray} {p : Payload} (h : readPayload b = pure p) :
    0 < b.size := by
  refine Nat.pos_of_ne_zero fun hs => ?_
  obtain rfl : b = .empty := ByteArray.size_eq_zero_iff.1 hs
  obtain ⟨_, hr⟩ := (readPayload_eq_pure rfl).1 h
  rw [readStream, announcedAt_of_size_le (Nat.le_refl 0)] at hr
  cases hr

/-! ## A payload with a column -/

/-- What a schema without a body and one batch hold. -/
def held? (b : ByteArray) : List Frame → Option Payload
  | [f, g] =>
    match f.bodyLength, f.message.schema, g.message.header with
    | 0, .ok schema, .batch header =>
      match readBatch schema (g.site b []) header with
      | .ok batch => some ⟨schema, [batch]⟩
      | .error _ => none
    | _, _, _ => none
  | _ => none

theorem readPayload_of_held? {b : ByteArray} {fs : List Frame} {p : Payload}
    (hb : isFile b = false) (h : frames b = pure fs) (hp : held? b fs = some p) :
    readPayload b = pure p := by
  unfold held? at hp
  split at hp
  · rename_i f g
    split at hp
    · rename_i schema header hbody hschema hheader
      split at hp
      · rename_i batch hbatch
        cases hp
        obtain ⟨hpos, hf, hrest⟩ := (framesFrom_eq_pure.1 h).cons_inv
        obtain ⟨hgstart, hg, hend⟩ := hrest.cons_inv
        have hnext : f.bodyStart = g.start := by rw [hgstart, Frame.stop, hbody, Nat.add_zero]
        have hread : (readMessages b schema f.bodyStart []).result = .ok [batch] := by
          rw [hnext, readMessages_frame hg, readContents, hheader]
          simp only [Except.bind, hbatch, Reading.goOn]
          rw [readMessages_end hend.announcedAt_nil]
          rfl
        rw [readPayload_of_frames hb h, readStream_frame hf hpos, hschema]
        simp only [Reading.turn, Reading.goOn, Reading.map, hread, Except.map]
      · cases hp
    · cases hp
  · cases hp

/-- A payload in stream form is read by looking at its frames alone. -/
theorem exists_readPayload {b : ByteArray} {P : Payload → Prop} (hb : isFile b = false)
    (h : Yields (frames b) fun fs => ∃ p ∈ held? b fs, P p) : ∃ p, readPayload b = pure p ∧ P p := by
  obtain ⟨fs, hfs, p, hp, hP⟩ := h
  exact ⟨p, readPayload_of_held? hb hfs hp, hP⟩

/-- A schema with a union of nulls. -/
def unionSchemaFrame : List UInt8 :=
  [255, 255, 255, 255, 144, 0, 0, 0, 16, 0, 0, 0, 12, 0, 20, 0, 16, 0, 18, 0,
   4, 0, 8, 0, 12, 0, 0, 0, 24, 0, 0, 0, 0, 0, 0, 0, 0, 0, 0, 0,
   4, 0, 1, 0, 8, 0, 8, 0, 0, 0, 4, 0, 8, 0, 0, 0, 4, 0, 0, 0,
   1, 0, 0, 0, 20, 0, 0, 0, 16, 0, 20, 0, 4, 0, 17, 0, 16, 0, 8, 0,
   0, 0, 12, 0, 16, 0, 0, 0, 52, 0, 0, 0, 44, 0, 0, 0, 8, 0, 0, 0,
   14, 1, 0, 0, 1, 0, 0, 0, 4, 0, 0, 0, 44, 0, 0, 0, 24, 0, 0, 0,
   16, 0, 0, 0, 24, 0, 0, 0, 1, 1, 0, 0, 4, 0, 4, 0, 4, 0, 0, 0,
   1, 0, 0, 0, 117, 0, 0, 0, 0, 0, 0, 0]

/-- A batch of one slot of that union. -/
def unionBatchFrame : List UInt8 :=
  [255, 255, 255, 255, 136, 0, 0, 0, 16, 0, 0, 0, 12, 0, 20, 0, 16, 0, 18, 0,
   4, 0, 8, 0, 12, 0, 0, 0, 28, 0, 0, 0, 8, 0, 0, 0, 0, 0, 0, 0,
   4, 0, 3, 0, 10, 0, 24, 0, 8, 0, 4, 0, 16, 0, 0, 0, 12, 0, 0, 0,
   24, 0, 0, 0, 1, 0, 0, 0, 0, 0, 0, 0, 52, 0, 0, 0, 0, 0, 0, 0,
   0, 0, 0, 0, 2, 0, 0, 0, 1, 0, 0, 0, 0, 0, 0, 0, 0, 0, 0, 0,
   0, 0, 0, 0, 1, 0, 0, 0, 0, 0, 0, 0, 1, 0, 0, 0, 0, 0, 0, 0,
   0, 0, 0, 0, 1, 0, 0, 0, 0, 0, 0, 0, 0, 0, 0, 0, 1, 0, 0, 0,
   0, 0, 0, 0, 0, 0, 0, 0, 0, 0, 0, 0]

def unionPayload : ByteArray := payloadOf [unionSchemaFrame, unionBatchFrame]

end DataClient.Arrow
