import Mathlib.Algebra.Ring.Int.Defs
import DataClient.Proofs.Arrow.Framing
import DataClient.Proofs.Arrow.Batches
import DataClient.Proofs.Arrow.Reader
import DataClient.Proofs.Table.Columnar

/-!
# The rows of a stream

A table is made of what the reader has read, and what should be in it is what the walk has found:
the rows of every batch among the frames, one batch behind the other (`Transcribes`). No batch is
dropped and none is added as long as the reader reads on until the end of the walk. Two things keep
it from doing so without an error: a message without contents ends the batches, whatever follows it,
and behind a schema message with a body the reader goes on inside the body. `ReadsOn` excludes
both, and nothing else has to be excluded.
-/

set_option autoImplicit false

namespace DataClient.Arrow

open Outcome Bytes Columnar

/-! ## The rows of one batch -/

theorem readBatch_rowCount {schema : Schema} {site : Site} {header : BatchHeader} {batch : Batch}
    (h : readBatch schema site header = .ok batch) :
    batch.rowCount = Load.countOf header.length := by
  obtain ⟨_, _, _, _, _, _, hcount, _⟩ := readBatch_eq_ok h
  exact hcount

/-- A batch that was turned into rows has as many as its message declares: a negative number of rows
would be taken for more than can be held. -/
theorem Frame.In.length_rows [Allocator] {b : ByteArray} {f : Frame} (hf : f.In b) {schema : Schema}
    {columns : List Column} {site : Site} {header : BatchHeader} {batch : Batch} {rows : List Row}
    (hheader : f.message.header = .batch header) (hbatch : readBatch schema site header = .ok batch)
    (hrows : batchRows columns batch = pure rows) : (rows.length : Int) = header.length := by
  obtain ⟨hlength, hlimit⟩ := length_of_batchRows hrows
  have hword := Message.isWord_length hf.message hheader
  rw [readBatch_rowCount hbatch] at hlength hlimit
  rw [hlength]
  by_cases hneg : header.length < 0
  · have := Load.countOf_of_neg hword hneg
    have hle := hlimit.le
    unfold rowBytes capacityLimit at hle
    omega
  · exact Load.countOf_of_nonneg hword (by omega)

/-! ## What the reader does with the frames -/

/-- The message of a frame carries nothing. -/
def Frame.Empty (f : Frame) : Prop := f.message.header = .none

/-- The reader reads batches from frames and turns to the messages `visits` on the way. -/
inductive Reads (b : ByteArray) (schema : Schema) :
    List (Int × Vector) → List Frame → (visits : List Visit) → List Batch → Prop
  | done {ds : List (Int × Vector)} : Reads b schema ds [] [] []
  /-- An empty message ends the batches. -/
  | empty {ds : List (Int × Vector)} {f : Frame} {fs : List Frame} (h : f.Empty) :
    Reads b schema ds (f :: fs) [f.visit] []
  | batch {ds : List (Int × Vector)} {f : Frame} {fs : List Frame} {vs : List Visit}
    {header : BatchHeader} {batch : Batch} {batches : List Batch}
    (hheader : f.message.header = .batch header)
    (hbatch : readBatch schema (f.site b ds) header = .ok batch)
    (rest : Reads b schema ds fs vs batches) :
    Reads b schema ds (f :: fs) (f.visit :: vs) (batch :: batches)
  | dictionary {ds ds' : List (Int × Vector)} {f : Frame} {fs : List Frame} {vs : List Visit}
    {batches : List Batch} {id : Int} {isDelta : Bool} {data : Option BatchHeader}
    (hheader : f.message.header = .dictionary id isDelta data)
    (hdictionary : readDictionary schema (f.site b ds) id isDelta data = .ok ds')
    (rest : Reads b schema ds' fs vs batches) :
    Reads b schema ds (f :: fs) (f.visit :: vs) batches

theorem reads_of_end {b : ByteArray} {pos : Nat} (h : announcedAt b pos = .ok none)
    {schema : Schema} {ds : List (Int × Vector)} {batches : List Batch}
    (hr : (readMessages b schema pos ds).result = .ok batches) :
    Reads b schema ds [] (readMessages b schema pos ds).visits batches := by
  rw [readMessages_end h] at hr ⊢
  cases hr
  exact .done

/-- In step with the walk, a reader that ends without an error has read the frames. -/
theorem Walk.reads {b : ByteArray} {pos : Nat} {fs : List Frame} (h : Walk b pos fs)
    {schema : Schema} {ds : List (Int × Vector)} {batches : List Batch}
    (hr : (readMessages b schema pos ds).result = .ok batches) :
    Reads b schema ds fs (readMessages b schema pos ds).visits batches := by
  induction h generalizing ds batches with
  | done h => exact reads_of_end (announcedAt_of_size_le h) hr
  | stop h => exact reads_of_end h.announcedAt_eq hr
  | @frame f fs hf _ ih =>
    rw [readMessages_frame hf] at hr ⊢
    unfold readContents at hr ⊢
    cases hheader : f.message.header with
    | none =>
      rw [hheader] at hr
      cases hr
      exact .empty hheader
    | schema _ | other _ =>
      rw [hheader] at hr
      cases hr
    | batch header =>
      rw [hheader] at hr
      dsimp only [Except.bind] at hr ⊢
      cases hbatch : readBatch schema (f.site b ds) header with
      | error why => rw [hbatch] at hr; cases hr
      | ok batch =>
        rw [hbatch] at hr
        obtain ⟨rest, hnext, rfl⟩ := Reading.map_eq_ok hr
        exact .batch hheader hbatch (ih hnext)
    | dictionary id isDelta data =>
      rw [hheader] at hr
      dsimp only [Except.bind] at hr ⊢
      cases hds : readDictionary schema (f.site b ds) id isDelta data with
      | error why => rw [hds] at hr; cases hr
      | ok ds' =>
        rw [hds] at hr
        exact .dictionary hheader hds (ih hr)

/-- The reader has turned to all frames exactly if none but the last is empty. -/
theorem Reads.visits_eq_iff {b : ByteArray} {schema : Schema} {ds : List (Int × Vector)}
    {fs : List Frame} {vs : List Visit} {batches : List Batch}
    (h : Reads b schema ds fs vs batches) :
    vs = fs.map Frame.visit ↔ ∀ f ∈ fs.dropLast, ¬ f.Empty := by
  -- The same step for both kinds of messages that the reader goes on behind.
  have goOn {f : Frame} {fs : List Frame} {vs : List Visit} (hf : ¬ f.Empty)
      (ih : vs = fs.map Frame.visit ↔ ∀ f ∈ fs.dropLast, ¬ f.Empty) :
      f.visit :: vs = (f :: fs).map Frame.visit ↔ ∀ g ∈ (f :: fs).dropLast, ¬ g.Empty := by
    rw [List.map_cons, List.cons.injEq, and_iff_right rfl, ih]
    cases fs with
    | nil => exact Iff.rfl
    | cons g fs => rw [List.dropLast_cons_cons, List.forall_mem_cons, and_iff_right hf]
  induction h with
  | done => exact ⟨fun _ f hf => absurd hf List.not_mem_nil, fun _ => rfl⟩
  | @empty ds f fs h =>
    cases fs with
    | nil => exact ⟨fun _ g hg => absurd hg List.not_mem_nil, fun _ => rfl⟩
    | cons g fs =>
      constructor
      · intro hvs
        injection hvs with _ hvs
        cases hvs
      · intro hno
        exact absurd h (hno f List.mem_cons_self)
  | batch hheader _ _ ih => exact goOn (fun h => by cases hheader.symm.trans h) ih
  | dictionary hheader _ _ ih => exact goOn (fun h => by cases hheader.symm.trans h) ih

/-! ## Transcriptions -/

/-- `parts` are the rows of the batches among the frames, those of each batch for themselves. Every
frame has its place: it holds a batch, or a dictionary for the batches behind it, or nothing and
nothing is behind it. -/
inductive Transcribed [Allocator] (b : ByteArray) (schema : Schema) :
    List (Int × Vector) → List Frame → (parts : List (List Row)) → Prop
  | done {ds : List (Int × Vector)} : Transcribed b schema ds [] []
  | empty {ds : List (Int × Vector)} {f : Frame} (h : f.Empty) : Transcribed b schema ds [f] []
  | batch {ds : List (Int × Vector)} {f : Frame} {fs : List Frame} {header : BatchHeader}
    {batch : Batch} {rows : List Row} {parts : List (List Row)}
    (hheader : f.message.header = .batch header)
    (hbatch : readBatch schema (f.site b ds) header = .ok batch)
    (hrows : batchRows (schema.map column) batch = pure rows)
    (rest : Transcribed b schema ds fs parts) :
    Transcribed b schema ds (f :: fs) (rows :: parts)
  | dictionary {ds ds' : List (Int × Vector)} {f : Frame} {fs : List Frame} {id : Int}
    {isDelta : Bool} {data : Option BatchHeader} {parts : List (List Row)}
    (hheader : f.message.header = .dictionary id isDelta data)
    (hdictionary : readDictionary schema (f.site b ds) id isDelta data = .ok ds')
    (rest : Transcribed b schema ds' fs parts) :
    Transcribed b schema ds (f :: fs) parts

/-- The same of a whole stream, whose first frame holds the schema. -/
def TranscribedStream [Allocator] (b : ByteArray) (schema : Schema) :
    List Frame → (parts : List (List Row)) → Prop
  | [], _ => False
  | first :: rest, parts =>
    first.message.schema = .ok schema ∧ Transcribed b schema [] rest parts

/-- The number of rows that a frame declares, if it holds a batch. -/
def Frame.declaredRows? (f : Frame) : Option Int :=
  match f.message.header with
  | .batch header => some header.length
  | _ => none

/-- The table holds the rows of all batches among the frames, and the reader has turned to each of
these frames and to nothing else. -/
structure Transcribes [Allocator] (b : ByteArray) (fs : List Frame) (t : Table) : Prop where
  visits : visits b = fs.map Frame.visit
  rows : ∃ schema parts, TranscribedStream b schema fs parts ∧ t.rows = parts.flatten
  rowCount : (t.rowCount : Int) = (fs.filterMap Frame.declaredRows?).sum

/-- If the reader has turned to all frames, the rows of its batches are those of the frames. -/
theorem Reads.transcribed [Allocator] {b : ByteArray} {schema : Schema} {ds : List (Int × Vector)}
    {fs : List Frame} {vs : List Visit} {batches : List Batch}
    (h : Reads b schema ds fs vs batches) (hvs : vs = fs.map Frame.visit) {rows : List Row}
    (hrows : allRows (schema.map column) batches = pure rows) :
    ∃ parts, Transcribed b schema ds fs parts ∧ rows = parts.flatten := by
  induction h generalizing rows with
  | done => exact ⟨[], .done, (pure_inj.1 hrows).symm⟩
  | @empty ds f fs h =>
    injection hvs with _ hvs
    obtain rfl : fs = [] := List.map_eq_nil_iff.1 hvs.symm
    exact ⟨[], .empty h, (pure_inj.1 hrows).symm⟩
  | batch hheader hbatch _ ih =>
    injection hvs with _ hvs
    obtain ⟨first, rest, hfirst, hrest, rfl⟩ := allRows_cons_eq_pure.1 hrows
    obtain ⟨parts, hparts, rfl⟩ := ih hvs hrest
    exact ⟨first :: parts, .batch hheader hbatch hfirst hparts, rfl⟩
  | dictionary hheader hdictionary _ ih =>
    injection hvs with _ hvs
    obtain ⟨parts, hparts, hrows⟩ := ih hvs hrows
    exact ⟨parts, .dictionary hheader hdictionary hparts, hrows⟩

/-- If every frame has its place, a reader that is in step with the walk reads the batches. The
induction is on the frames; the walk over them says where the reader is. -/
theorem Transcribed.readMessages_eq [Allocator] {b : ByteArray} {schema : Schema}
    {ds : List (Int × Vector)}
    {fs : List Frame} {parts : List (List Row)} (h : Transcribed b schema ds fs parts) {pos : Nat}
    (hwalk : Walk b pos fs) :
    ∃ batches, (readMessages b schema pos ds).result = .ok batches ∧
      allRows (schema.map column) batches = pure parts.flatten := by
  induction h generalizing pos with
  | done =>
    rw [readMessages_end hwalk.announcedAt_nil]
    exact ⟨[], rfl, rfl⟩
  | empty h =>
    obtain ⟨rfl, hf, _⟩ := hwalk.cons_inv
    rw [readMessages_frame hf, readContents, h]
    exact ⟨[], rfl, rfl⟩
  | @batch ds f fs header batch rows parts hheader hbatch hrows _ ih =>
    obtain ⟨rfl, hf, hrest⟩ := hwalk.cons_inv
    obtain ⟨batches, hbatches, hall⟩ := ih hrest
    rw [readMessages_frame hf, readContents, hheader]
    refine ⟨batch :: batches, ?_, allRows_cons_eq_pure.2 ⟨rows, _, hrows, hall, rfl⟩⟩
    dsimp only [Except.bind]
    rw [hbatch]
    show (readMessages b schema f.stop ds).result.map (batch :: ·) = _
    rw [hbatches]
    rfl
  | @dictionary ds ds' f fs id isDelta data parts hheader hdictionary _ ih =>
    obtain ⟨rfl, hf, hrest⟩ := hwalk.cons_inv
    rw [readMessages_frame hf, readContents, hheader]
    dsimp only [Except.bind]
    rw [hdictionary]
    exact ih hrest

theorem Frame.declaredRows?_eq_none {f : Frame} (h : ∀ header, f.message.header ≠ .batch header) :
    f.declaredRows? = none := by
  unfold Frame.declaredRows?
  split
  · exact absurd ‹_› (h _)
  · rfl

/-- **There are as many rows as the batches declare.** -/
theorem Transcribed.length_eq [Allocator] {b : ByteArray} {schema : Schema} {ds : List (Int × Vector)}
    {fs : List Frame} {parts : List (List Row)} (h : Transcribed b schema ds fs parts)
    (hin : ∀ f ∈ fs, f.In b) :
    (parts.flatten.length : Int) = (fs.filterMap Frame.declaredRows?).sum := by
  induction h with
  | done => rfl
  | empty h =>
    rw [List.filterMap_cons_none (Frame.declaredRows?_eq_none fun _ hb => by cases h.symm.trans hb)]
    rfl
  | @batch ds f fs header batch rows parts hheader hbatch hrows _ ih =>
    have hlength := (hin f List.mem_cons_self).length_rows hheader hbatch hrows
    have hdeclared : f.declaredRows? = some header.length := by rw [Frame.declaredRows?, hheader]
    rw [List.filterMap_cons_some hdeclared, List.sum_cons,
      ← ih fun f hf => hin f (List.mem_cons_of_mem _ hf), ← hlength, List.flatten_cons,
      List.length_append, Int.natCast_add]
  | dictionary hheader _ _ ih =>
    rw [List.filterMap_cons_none
      (Frame.declaredRows?_eq_none fun _ hb => by cases hheader.symm.trans hb)]
    exact ih fun f hf => hin f (List.mem_cons_of_mem _ hf)

/-! ## Streams -/

/-- A stream that was read begins with a schema message, and reading went on behind its metadata. -/
theorem readStream_eq_ok {b : ByteArray} {fs : List Frame} (h : frames b = pure fs) {p : Payload}
    (hr : (readStream b).result = .ok p) :
    ∃ first rest, fs = first :: rest ∧ first.In b ∧ Walk b first.stop rest ∧
      first.message.schema = .ok p.schema ∧
      (readMessages b p.schema first.bodyStart []).result = .ok p.batches ∧
      visits b = first.visit :: (readMessages b p.schema first.bodyStart []).visits := by
  have hwalk := framesFrom_eq_pure.1 h
  cases fs with
  | nil =>
    rw [readStream, hwalk.announcedAt_nil] at hr
    cases hr
  | cons first rest =>
    obtain ⟨hpos, hfirst, hrest⟩ := hwalk.cons_inv
    have hread := readStream_frame hfirst hpos
    rw [hread] at hr
    cases hschema : first.message.schema with
    | error why =>
      rw [hschema] at hr
      cases hr
    | ok schema =>
      rw [hschema] at hr hread
      obtain ⟨batches, hbatches, rfl⟩ := Reading.map_eq_ok hr
      refine ⟨first, rest, rfl, hfirst, hrest, hschema, hbatches, ?_⟩
      rw [visits, hread]
      rfl

/-- The reader goes through to the end of the walk: the schema message has no body and no message
but the last is empty, or nothing at all follows the schema message. -/
def ReadsOn (b : ByteArray) : List Frame → Prop
  | [] => False
  | first :: rest =>
    first.bodyLength = 0 ∧ (∀ f ∈ rest.dropLast, ¬ f.Empty) ∨
      rest = [] ∧ announcedAt b first.bodyStart = .ok none

/-- Behind a schema message without a body the reader and the walk are together, and where nothing
is announced there is nothing to read. -/
theorem reads_of_first {b : ByteArray} {first : Frame} {rest : List Frame}
    (hrest : Walk b first.stop rest)
    (h : first.bodyLength = 0 ∨ rest = [] ∧ announcedAt b first.bodyStart = .ok none)
    {schema : Schema} {batches : List Batch}
    (hr : (readMessages b schema first.bodyStart []).result = .ok batches) :
    Reads b schema [] rest (readMessages b schema first.bodyStart []).visits batches := by
  rcases h with hbody | ⟨rfl, hend⟩
  · have hstop : first.stop = first.bodyStart := by rw [Frame.stop, hbody, Nat.add_zero]
    exact (hstop ▸ hrest).reads hr
  · exact reads_of_end hend hr

theorem ReadsOn.not_isEmpty {b : ByteArray} {fs : List Frame} (hon : ReadsOn b fs)
    (h : frames b = pure fs) : ¬ b.isEmpty = true := by
  intro hempty
  rw [frames_empty hempty] at h
  obtain rfl := pure_inj.1 h
  exact hon

/-- If reading ends without an error, the reader has turned to the frames of the walk, and to
nothing else, exactly if it reads on. -/
theorem visits_eq_iff_readsOn {b : ByteArray} {fs : List Frame} (h : frames b = pure fs)
    {p : Payload} (hr : (readStream b).result = .ok p) :
    visits b = fs.map Frame.visit ↔ ReadsOn b fs := by
  obtain ⟨first, rest, rfl, hfirst, hrest, hschema, hbatches, hvisits⟩ := readStream_eq_ok h hr
  -- The first visit is the schema message, so all depends on the visits behind it.
  have hbehind : visits b = (first :: rest).map Frame.visit ↔
      (readMessages b p.schema first.bodyStart []).visits = rest.map Frame.visit := by
    rw [hvisits, List.map_cons, List.cons.injEq, and_iff_right rfl]
  have hzero (hbody : first.bodyLength = 0) :
      visits b = (first :: rest).map Frame.visit ↔ ∀ f ∈ rest.dropLast, ¬ f.Empty :=
    hbehind.trans (reads_of_first hrest (.inl hbody) hbatches).visits_eq_iff
  constructor
  · intro hall
    obtain ⟨hpos, _, _⟩ := (framesFrom_eq_pure.1 h).cons_inv
    have hstep := hfirst.inStep_of_visits hpos hrest (hall ▸ List.prefix_rfl)
    rcases hstep first rfl with hbody | hno | hend
    · exact .inl ⟨hbody, (hzero hbody).1 hall⟩
    · exact absurd hschema (hno p.schema)
    · -- In step with a body in between: the reader finds the end where the body begins.
      cases ha : announcedAt b first.bodyStart with
      | error why =>
        rw [readMessages_error ha] at hbatches
        cases hbatches
      | ok place =>
        cases place with
        | some place => exact absurd ha (hend place)
        | none =>
          have hrest := hbehind.1 hall
          rw [readMessages_end ha] at hrest
          exact .inr ⟨List.map_eq_nil_iff.1 hrest.symm, ha⟩
  · rintro (⟨hbody, hempty⟩ | ⟨rfl, hend⟩)
    · exact (hzero hbody).2 hempty
    · rw [hbehind, readMessages_end hend]
      rfl

/-- The rows of what has been read of a stream to its end are those of the frames. -/
theorem transcribedStream_of_visits [Allocator] {b : ByteArray} {fs : List Frame}
    (h : frames b = pure fs)
    {p : Payload} (hr : (readStream b).result = .ok p) {rows : List Row}
    (hrows : allRows (p.schema.map column) p.batches = pure rows)
    (hvisits : visits b = fs.map Frame.visit) :
    ∃ parts, TranscribedStream b p.schema fs parts ∧ rows = parts.flatten := by
  have hon := (visits_eq_iff_readsOn h hr).1 hvisits
  obtain ⟨first, rest, rfl, _, hrest, hschema, hbatches, hread⟩ := readStream_eq_ok h hr
  have hfirst : first.bodyLength = 0 ∨ rest = [] ∧ announcedAt b first.bodyStart = .ok none :=
    hon.imp And.left id
  have hbehind : (readMessages b p.schema first.bodyStart []).visits = rest.map Frame.visit := by
    rw [hread] at hvisits
    injection hvisits
  obtain ⟨parts, hparts, hflat⟩ :=
    (reads_of_first hrest hfirst hbatches).transcribed hbehind hrows
  exact ⟨parts, ⟨hschema, hparts⟩, hflat⟩

/-- The batches of a stream are read if every frame has its place and the reader reads on. -/
theorem TranscribedStream.readStream_eq [Allocator] {b : ByteArray} {fs : List Frame}
    (h : frames b = pure fs)
    (hon : ReadsOn b fs) {schema : Schema} {parts : List (List Row)}
    (ht : TranscribedStream b schema fs parts) :
    ∃ batches, (readStream b).result = .ok ⟨schema, batches⟩ ∧
      allRows (schema.map column) batches = pure parts.flatten := by
  cases fs with
  | nil => exact absurd ht id
  | cons first rest =>
    obtain ⟨hschema, hparts⟩ := ht
    obtain ⟨hpos, hfirst, hrest⟩ := (framesFrom_eq_pure.1 h).cons_inv
    obtain ⟨batches, hbatches, hall⟩ : ∃ batches,
        (readMessages b schema first.bodyStart []).result = .ok batches ∧
          allRows (schema.map column) batches = pure parts.flatten := by
      rcases hon with ⟨hbody, _⟩ | ⟨rfl, hend⟩
      · have hstop : first.stop = first.bodyStart := by rw [Frame.stop, hbody, Nat.add_zero]
        exact hparts.readMessages_eq (hstop ▸ hrest)
      · cases hparts
        rw [readMessages_end hend]
        exact ⟨[], rfl, rfl⟩
    refine ⟨batches, ?_, hall⟩
    rw [readStream_frame hfirst hpos, hschema]
    show (readMessages b schema first.bodyStart []).result.map _ = _
    rw [hbatches]
    rfl

theorem TranscribedStream.length_eq [Allocator] {b : ByteArray} {fs : List Frame} (h : frames b = pure fs)
    {schema : Schema} {parts : List (List Row)} (ht : TranscribedStream b schema fs parts) :
    (parts.flatten.length : Int) = (fs.filterMap Frame.declaredRows?).sum := by
  cases fs with
  | nil => exact absurd ht id
  | cons first rest =>
    obtain ⟨hschema, hparts⟩ := ht
    have hdeclared : first.declaredRows? = none := Frame.declaredRows?_eq_none fun header hb => by
      rw [Message.schema, hb] at hschema
      cases hschema
    rw [List.filterMap_cons_none hdeclared]
    exact hparts.length_eq fun f hf => (framesFrom_eq_pure.1 h).in f (List.mem_cons_of_mem _ hf)

/-- A stream that is read on has a table exactly if every frame has its place, and the rows are
those of the frames. -/
theorem decode_eq_pure_iff_transcribed [Allocator] {b : ByteArray} {fs : List Frame}
    (hb : isFile b = false)
    (h : frames b = pure fs) (hon : ReadsOn b fs) {t : Table} :
    Columnar.decode b = pure t ↔ ∃ schema parts, TranscribedStream b schema fs parts ∧
      Table.ofParts (schema.map column) parts.flatten = .ok t := by
  rw [decode_eq_pure]
  constructor
  · rintro ⟨_, p, hp, ht⟩
    obtain ⟨_, hr⟩ := (readPayload_eq_pure hb).1 hp
    obtain ⟨rows, hrows, ht⟩ := tableOf_eq_pure.1 ht
    obtain ⟨parts, hparts, rfl⟩ :=
      transcribedStream_of_visits h hr hrows ((visits_eq_iff_readsOn h hr).2 hon)
    exact ⟨p.schema, parts, hparts, ht⟩
  · rintro ⟨schema, parts, hparts, ht⟩
    obtain ⟨batches, hr, hrows⟩ := hparts.readStream_eq h hon
    exact ⟨hon.not_isEmpty h, ⟨schema, batches⟩, (readPayload_eq_pure hb).2 ⟨⟨fs, h⟩, hr⟩,
      tableOf_eq_pure.2 ⟨_, hrows, ht⟩⟩

/-- **No batch is dropped from a stream and none is added exactly if the reader reads on**: then the
rows of the table are those of all batches that the walk has found, one batch behind the other, as
many as the batches declare. A stream that is read on has a table exactly if every frame has its
place, and a message at which its reader stops early is an error of the payload. -/
theorem transcribes_iff_readsOn [Allocator] {b : ByteArray} (hb : isFile b = false) :
    (∀ t, Columnar.decode b = pure t →
      ∃ fs, frames b = pure fs ∧ (Transcribes b fs t ↔ ReadsOn b fs)) ∧
    ∀ fs, frames b = pure fs → ReadsOn b fs →
      (∀ t, Columnar.decode b = pure t ↔ ∃ schema parts, TranscribedStream b schema fs parts ∧
        Table.ofParts (schema.map column) parts.flatten = .ok t) ∧
      (visits b ≠ fs.map Frame.visit →
        ∃ fault, Columnar.decode b = Columnar.fail (.arrow fault)) := by
  constructor
  · intro t ht
    obtain ⟨_, p, hp, ht⟩ := decode_eq_pure.1 ht
    obtain ⟨⟨fs, hfs⟩, hr⟩ := (readPayload_eq_pure hb).1 hp
    obtain ⟨rows, hrows, ht⟩ := tableOf_eq_pure.1 ht
    refine ⟨fs, hfs, ?_⟩
    rw [← visits_eq_iff_readsOn hfs hr]
    refine ⟨Transcribes.visits, fun hvisits => ?_⟩
    obtain ⟨parts, hparts, rfl⟩ := transcribedStream_of_visits hfs hr hrows hvisits
    have hflat := rows_ofParts ht
    exact ⟨hvisits, ⟨p.schema, parts, hparts, hflat⟩,
      by rw [Table.rowCount, hflat, hparts.length_eq hfs]⟩
  · intro fs hfs hon
    refine ⟨fun t => decode_eq_pure_iff_transcribed hb hfs hon, fun hne => ?_⟩
    cases hr : (readStream b).result with
    | ok p => exact absurd ((visits_eq_iff_readsOn hfs hr).2 hon) hne
    | error why =>
      refine ⟨.unreadable why, decode_of_unread (hon.not_isEmpty hfs) ?_⟩
      rw [readPayload_of_frames hb hfs, hr]

section

open scoped Allocator.Sized

/-- The rows of a batch are those of the table. -/
theorem transcribes_sample : ∃ t fs, isFile sample = false ∧ Columnar.decode sample = pure t ∧
    frames sample = pure fs ∧ Transcribes sample fs t ∧ t.rowCount = 3 := by
  have hdecode : Yields (Columnar.decode sample) fun t => t.rowCount = 3 := by decide +kernel
  have hb : isFile sample = false := by decide +kernel
  obtain ⟨t, ht, hcount⟩ := hdecode
  obtain ⟨fs, h, hiff⟩ := (transcribes_iff_readsOn hb).1 t ht
  obtain ⟨f, g, hfg, hbody, -, -⟩ := sample_frames
  obtain rfl := pure_inj.1 (h.symm.trans hfg)
  have hon : ReadsOn sample [f, g] :=
    .inl ⟨hbody, fun _ hmem => absurd hmem List.not_mem_nil⟩
  exact ⟨t, [f, g], hb, ht, h, hiff.2 hon, hcount⟩

/-- A schema, a message without contents, and a batch. -/
def interrupted : ByteArray := payloadOf [schemaFrame 0, emptyFrame, batchFrame 3]

/-- The batch is dropped, and the table is none the wiser. -/
theorem rows_interrupted : ∃ t fs, isFile interrupted = false ∧
    Columnar.decode interrupted = pure t ∧ frames interrupted = pure fs ∧
    t.rowCount = 0 ∧ fs.filterMap Frame.declaredRows? = [3] ∧ ¬ Transcribes interrupted fs t := by
  have hdecode : Yields (Columnar.decode interrupted) fun t => t.rowCount = 0 := by
    decide +kernel
  have hframes : Yields (frames interrupted) fun fs =>
      fs.filterMap Frame.declaredRows? = [3] := by decide +kernel
  obtain ⟨t, ht, hrows⟩ := hdecode
  obtain ⟨fs, h, hdeclared⟩ := hframes
  refine ⟨t, fs, by decide +kernel, ht, h, hrows, hdeclared, fun htrans => ?_⟩
  have hcount := htrans.rowCount
  rw [hrows, hdeclared] at hcount
  cases hcount

end

end DataClient.Arrow
