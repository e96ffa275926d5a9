import DataClient.Arrow.Reader

/-!
# Where a body lies

A reader knows where the body of a batch lies relative to an aligned address. Loading looks at that
only where it takes the offsets of a dense union, which have to lie at a multiple of four bytes. So a
batch is loaded alike from two places if these are alike relative to words of four bytes, or if
there are no dense unions (`readBatch_congr`).
-/

set_option autoImplicit false

namespace DataClient.Arrow

/-! ## Types with dense unions -/

mutual

/-- Whether a dense union is loaded for a type. The values of a dictionary are loaded elsewhere. -/
def DataType.hasDense : DataType → Bool
  | .list _ t => t.hasDense
  | .largeList _ t => t.hasDense
  | .fixedSizeList _ t _ => t.hasDense
  | .map _ t _ => t.hasDense
  | .struct fs => fieldsDense fs
  | .union vs dense => dense || variantsDense vs
  | .runEndEncoded _ e _ t => e.hasDense || t.hasDense
  | _ => false

/-- The same for the fields of a struct. -/
def fieldsDense : List (FieldInfo × DataType) → Bool
  | [] => false
  | (_, t) :: rest => t.hasDense || fieldsDense rest

/-- The same for the variants of a union. -/
def variantsDense : List (Int × FieldInfo × DataType) → Bool
  | [] => false
  | (_, _, t) :: rest => t.hasDense || variantsDense rest

end

/-! ## Sources in two places -/

/-- The same body at another address. -/
def Source.at (s : Source) (address : Nat) : Source := { s with address := address }

/-- Two addresses are alike relative to words of four bytes. -/
def Alike (a a' : Nat) : Prop := a % 4 = a' % 4

/-- Chunks of the same bytes, which lie alike if `p` holds. -/
structure Chunk.Alike (p : Prop) (c c' : Chunk) : Prop where
  bytes : c.bytes = c'.bytes
  address : p → Arrow.Alike c.address c'.address

namespace Load

variable {α : Type} {s : Source} {a : Nat}

theorem bind_congr {β : Type} (x : Load α) {k k' : α → Load β} (h : ∀ r, k r = k' r) :
    x >>= k = x >>= k' := by
  rw [funext h]

theorem unpack_bind_congr {p : Prop} {c c' : Chunk} (hc : c.Alike p c') {k k' : Chunk → Load α}
    (hk : ∀ c c', Chunk.Alike p c c' → k c = k' c') : unpack c >>= k = unpack c' >>= k' := by
  unfold unpack
  rw [← hc.bytes]
  split
  · exact hk _ _ hc
  · split
    · exact hk _ _ ⟨rfl, fun _ => rfl⟩
    · refine hk _ _ ⟨rfl, fun hp => ?_⟩
      have := hc.address hp
      unfold Arrow.Alike at this ⊢
      dsimp only
      omega
    · rfl

/-- The chunk that a listed buffer stands for. -/
def chunk (s : Source) (offset length : Int) : Load Chunk :=
  match Bytes.slice? s.body (countOf offset) (countOf length) with
  | some bytes =>
    let c : Chunk := ⟨bytes, s.address + countOf offset⟩
    if s.compressed then unpack c else return c
  | none => refuse "a buffer lies outside the body"

theorem chunk_bind_congr {offset length : Int} {k k' : Chunk → Load α}
    (hk : ∀ c c', Chunk.Alike (Alike a s.address) c c' → k c = k' c') :
    chunk (s.at a) offset length >>= k = chunk s offset length >>= k' := by
  unfold chunk
  show (match Bytes.slice? s.body (countOf offset) (countOf length) with
    | some bytes => _
    | none => _) >>= k = _
  split
  · rename_i bytes _
    have hc : Chunk.Alike (Alike a s.address) ⟨bytes, a + countOf offset⟩
        ⟨bytes, s.address + countOf offset⟩ := by
      refine ⟨rfl, fun h => ?_⟩
      unfold Arrow.Alike at h ⊢
      dsimp only
      omega
    by_cases hcompressed : s.compressed = true
    · have hcompressed' : (s.at a).compressed = true := hcompressed
      rw [if_pos hcompressed, if_pos hcompressed']
      exact unpack_bind_congr hc hk
    · have hcompressed' : ¬ (s.at a).compressed = true := hcompressed
      rw [if_neg hcompressed, if_neg hcompressed']
      exact hk _ _ hc
  · rfl

/-- **Taking a buffer from two places**: what follows has to be alike for chunks that lie as the places
do. -/
theorem buffer_bind_congr {k k' : Chunk → Load α}
    (hk : ∀ c c', Chunk.Alike (Alike a s.address) c c' → k c = k' c') :
    buffer (s.at a) >>= k = buffer s >>= k' := by
  funext p
  obtain ⟨nodes, listed, counts⟩ := p
  cases listed with
  | nil => rfl
  | cons head rest => exact congrFun (chunk_bind_congr hk) ⟨nodes, rest, counts⟩

/-- Taking buffers whose places do not matter. -/
theorem buffers_at (n : Nat) : buffers (s.at a) n = buffers s n := by
  induction n with
  | zero => rfl
  | succ n ih =>
    rw [buffers, buffers, ih]
    exact buffer_bind_congr fun c c' hc => by rw [hc.bytes]

theorem fixed_at (type : DataType) : fixed (s.at a) type = fixed s type := by
  unfold fixed
  refine bind_congr _ fun _ => ?_
  refine buffer_bind_congr fun _ _ hbitmap => ?_
  refine buffer_bind_congr fun _ _ hdata => ?_
  rw [hbitmap.bytes, hdata.bytes]

theorem bytes_at (type : DataType) (width : Nat) (text : Bool) :
    bytes (s.at a) type width text = bytes s type width text := by
  unfold bytes
  refine bind_congr _ fun _ => ?_
  refine buffer_bind_congr fun _ _ hbitmap => ?_
  refine buffer_bind_congr fun _ _ hoffsets => ?_
  refine buffer_bind_congr fun _ _ hdata => ?_
  rw [hbitmap.bytes, hoffsets.bytes, hdata.bytes]

theorem views_at (type : DataType) (text : Bool) : views (s.at a) type text = views s type text := by
  unfold views
  refine bind_congr _ fun p => ?_
  split
  · rfl
  · refine bind_congr _ fun _ => ?_
    rw [buffers_at]

theorem booleans_at : booleans (s.at a) = booleans s := by
  unfold booleans
  refine bind_congr _ fun _ => ?_
  refine buffer_bind_congr fun _ _ hbitmap => ?_
  refine buffer_bind_congr fun _ _ hbits => ?_
  rw [hbitmap.bytes, hbits.bytes]

theorem keys_at (type : DataType) (info : FieldInfo) (signed : Bool) (width : IntWidth)
    (valueType : DataType) :
    keys (s.at a) type info signed width valueType = keys s type info signed width valueType := by
  unfold keys
  refine bind_congr _ fun _ => ?_
  refine buffer_bind_congr fun _ _ hbitmap => ?_
  refine buffer_bind_congr fun _ _ hdata => ?_
  rw [hbitmap.bytes, hdata.bytes]
  rfl

theorem listOf_at (type : DataType) (width : Nat) (item : FieldInfo) (items : Load Vector) :
    listOf (s.at a) type width item items = listOf s type width item items := by
  unfold listOf
  refine bind_congr _ fun _ => ?_
  refine buffer_bind_congr fun _ _ hbitmap => ?_
  refine buffer_bind_congr fun _ _ hoffsets => ?_
  rw [hbitmap.bytes, hoffsets.bytes]

mutual

/-- **A vector is loaded alike from two places** that lie alike, or whatever they are if it has no dense
unions: only there the place is looked at. -/
theorem vector_at (info : FieldInfo) : ∀ type : DataType,
    (type.hasDense = true → Alike a s.address) → vector (s.at a) info type = vector s info type
  | .null, _ => rfl
  | .boolean, _ => booleans_at
  | .utf8, _ => bytes_at ..
  | .largeUtf8, _ => bytes_at ..
  | .binary, _ => bytes_at ..
  | .largeBinary, _ => bytes_at ..
  | .utf8View, _ => views_at ..
  | .binaryView, _ => views_at ..
  | .list item type, h => by
    rw [vector, vector, vector_at item type h, listOf_at]
  | .largeList item type, h => by
    rw [vector, vector, vector_at item type h, listOf_at]
  | .fixedSizeList item type size, h => by
    rw [vector, vector, vector_at item type h]
    refine bind_congr _ fun _ => ?_
    exact buffer_bind_congr fun _ _ hbitmap => by rw [hbitmap.bytes]
  | .struct fields, h => by
    rw [vector, vector, fieldVectors_at fields h]
    refine bind_congr _ fun _ => ?_
    exact buffer_bind_congr fun _ _ hbitmap => by rw [hbitmap.bytes]
  | .map entries type sorted, h => by
    rw [vector, vector, vector_at entries type h, listOf_at]
  | .union variants dense, h => by
    have hvariants := variantVectors_at variants fun hv => h (by simp [DataType.hasDense, hv])
    rw [vector, vector, hvariants]
    refine bind_congr _ fun (length, _) => ?_
    dsimp -zeta only
    extract_lets goOn goOn'
    have hgoOn : goOn () = goOn' () := by
      refine buffer_bind_congr fun _ _ hnumbers => ?_
      rw [hnumbers.bytes]
      refine bind_congr _ fun _ => ?_
      by_cases hdense : dense = true
      · rw [if_pos hdense, if_pos hdense]
        refine buffer_bind_congr fun _ _ hoffsets => ?_
        have haddress := hoffsets.address (h (by simp [DataType.hasDense, hdense]))
        unfold Arrow.Alike at haddress
        rw [hoffsets.bytes, haddress]
      · rw [if_neg hdense, if_neg hdense]
    by_cases hvalidity : s.unionValidity = true
    · have hvalidity' : (s.at a).unionValidity = true := hvalidity
      rw [if_pos hvalidity, if_pos hvalidity']
      exact buffer_bind_congr fun _ _ _ => hgoOn
    · have hvalidity' : ¬ (s.at a).unionValidity = true := hvalidity
      rw [if_neg hvalidity, if_neg hvalidity']
      exact hgoOn
  | .runEndEncoded ends endsType values valuesType, h => by
    have hends := vector_at ends endsType fun he => h (by simp [DataType.hasDense, he])
    have hvalues := vector_at values valuesType fun hv => h (by simp [DataType.hasDense, hv])
    rw [vector, vector, hends, hvalues]
  | .dictionary .., _ => keys_at ..
  | .int .., _ => fixed_at _
  | .float16, _ => fixed_at _
  | .float32, _ => fixed_at _
  | .float64, _ => fixed_at _
  | .timestamp .., _ => fixed_at _
  | .date32, _ => fixed_at _
  | .date64, _ => fixed_at _
  | .time32 .., _ => fixed_at _
  | .time64 .., _ => fixed_at _
  | .duration .., _ => fixed_at _
  | .interval .., _ => fixed_at _
  | .fixedSizeBinary .., _ => fixed_at _
  | .decimal128 .., _ => fixed_at _
  | .decimal256 .., _ => fixed_at _

theorem fieldVectors_at : ∀ fields : List (FieldInfo × DataType),
    (fieldsDense fields = true → Alike a s.address) →
    fieldVectors (s.at a) fields = fieldVectors s fields
  | [], _ => rfl
  | (f, t) :: rest, h => by
    have hfirst := vector_at f t fun ht => h (by simp [fieldsDense, ht])
    have hrest := fieldVectors_at rest fun hr => h (by simp [fieldsDense, hr])
    rw [fieldVectors, fieldVectors, hfirst, hrest]

theorem variantVectors_at : ∀ variants : List (Int × FieldInfo × DataType),
    (variantsDense variants = true → Alike a s.address) →
    variantVectors (s.at a) variants = variantVectors s variants
  | [], _ => rfl
  | (n, f, t) :: rest, h => by
    have hfirst := vector_at f t fun ht => h (by simp [variantsDense, ht])
    have hrest := variantVectors_at rest fun hr => h (by simp [variantsDense, hr])
    rw [variantVectors, variantVectors, hfirst, hrest]

end

end Load

/-! ## Batches -/

/-- Whether a dense union is loaded for a schema. -/
def Schema.hasDense (schema : Schema) : Bool := List.any schema fun f => f.type.hasDense

theorem loadColumns_at {s : Source} {a : Nat} (schema : Schema)
    (h : Schema.hasDense schema = true → Alike a s.address) :
    loadColumns (s.at a) schema = loadColumns s schema := by
  induction schema with
  | nil => rfl
  | cons f fs ih =>
    have hfirst := Load.vector_at f.info f.type fun hf => h (by simp [Schema.hasDense, hf])
    have hrest := ih fun hr => h (by
      unfold Schema.hasDense at hr ⊢
      rw [List.any_cons, hr, Bool.or_true])
    rw [loadColumns, loadColumns, hfirst, hrest]

/-- **A batch is loaded alike from two places** that lie alike, or whatever they are if the schema has no
dense unions. -/
theorem readBatch_congr {schema : Schema} {site : Site} {a : Nat}
    (h : Schema.hasDense schema = true → Alike a site.address) (header : BatchHeader) :
    readBatch schema { site with address := a } header = readBatch schema site header := by
  have hload (compressed : Bool) : loadColumns
      ⟨site.dictionaries, compressed, site.version < unionsWithoutValidity, site.body, a⟩ schema =
      loadColumns ⟨site.dictionaries, compressed, site.version < unionsWithoutValidity, site.body,
        site.address⟩ schema :=
    loadColumns_at (s := ⟨site.dictionaries, compressed, site.version < unionsWithoutValidity,
      site.body, site.address⟩) schema h
  unfold readBatch
  cases header.nodes with
  | none => rfl
  | some nodes =>
    cases header.buffers with
    | none => rfl
    | some buffers =>
      dsimp only
      rw [hload]

end DataClient.Arrow
