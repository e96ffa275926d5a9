import DataClient.Proofs.Json.Literals
import DataClient.Proofs.Table.Order
import DataClient.Proofs.Table.Places
import DataClient.Proofs.Table.Typing

/-!
# Integers in results

An integer in the place of a cell is kept exactly if it fits a signed word, and refused if it only fits
an unsigned one. One below the signed words is taken for a double, off by less than one part in `2 ^ 50`
(`decode_integers`).
-/

set_option autoImplicit false

namespace DataClient.Records

open Json Json.Reader Outcome

/-! ## Another value in a cell -/

section Put

variable {r : Result} {i : Nat} {name : String} {members : List (String × Json)}

theorem put_put (a b : Json) : (r.put i name a).put i name b = r.put i name b := by
  rw [Result.put, Result.put, Result.put, List.modify_modify_eq]
  congr 2
  exact funext fun ms => insertMember_self

/-- The rows are those there were, but for one. -/
theorem mem_put {v : Json} (hrow : r.data[i]? = some members) {ms : List (String × Json)}
    (h : ms ∈ (r.put i name v).data) : ms ∈ r.data ∨ ms = insertMember name v members := by
  rw [put_eq hrow] at h
  exact List.mem_or_eq_of_mem_set h

theorem getElem?_put (hrow : r.data[i]? = some members) (name : String) (v : Json) :
    (r.put i name v).data[i]? = some (insertMember name v members) := by
  rw [put_eq hrow, List.getElem?_set_self (List.getElem?_eq_some_iff.1 hrow).1]

theorem getElem?_put_ne {j : Nat} (hj : j ≠ i) (v : Json) : (r.put i name v).data[j]? = r.data[j]? :=
  List.getElem?_modify_ne _ _ (Ne.symm hj)

variable (hordered : ∀ ms ∈ r.data, Ordered ms) (hrow : r.data[i]? = some members)
  (hname : name ∈ members.map (·.1))

include hordered hrow hname

theorem names_put (v : Json) : (r.put i name v).names = r.names := by
  have hmembers := hordered members (List.mem_of_getElem? hrow)
  rw [put_eq hrow, Result.names, Result.names]
  cases hdata : r.data with
  | nil => rfl
  | cons first rest =>
    cases i with
    | zero =>
      rw [hdata] at hrow
      cases hrow
      exact keys_insertMember hmembers hname
    | succ i => rfl

theorem keys_put {v : Json} {ms : List (String × Json)} (h : ms ∈ (r.put i name v).data) :
    ∃ ms' ∈ r.data, ms.map (·.1) = ms'.map (·.1) := by
  rcases mem_put hrow h with h | rfl
  · exact ⟨ms, h, rfl⟩
  · have hmem := List.mem_of_getElem? hrow
    exact ⟨members, hmem, keys_insertMember (hordered members hmem) hname⟩

/-- Rows stay regular if a value is exchanged for one that has a cell. -/
theorem Regular.put (hr : Regular r) {v : Json} (hv : ∃ c, cellOf name v = .ok c) :
    Regular (r.put i name v) where
  count n hn := by
    rw [Result.put, List.length_modify]
    exact hr.count n hn
  keys ms hms k := by
    obtain ⟨ms', hms', hkeys⟩ := keys_put hordered hrow hname hms
    rw [hkeys, names_put hordered hrow hname]
    exact hr.keys ms' hms' k
  integers ms hms k n hn := by
    rcases mem_put hrow hms with hms | rfl
    · exact hr.integers ms hms k n hn
    · have hmem := List.mem_of_getElem? hrow
      have hlookup := (hordered members hmem).insertMember.lookup_iff.2 hn
      rw [lookup_insertMember] at hlookup
      split_ifs at hlookup with hsame
      · cases hlookup
        exact exists_cellOf_iff.1 hv n rfl
      · exact hr.integers members hmem k n ((hordered members hmem).lookup_iff.1 hlookup)

/-- A natural number that does not fit a signed word is the only fault of rows that are else regular. -/
theorem RowFault.of_put (hr : Regular r) {m : UInt64} {j : Nat} {ms : List (String × Json)} {e : DecodeError}
    (hms : ms ∈ (r.put i name (.number (.natural m))).data) (h : RowFault r.names j ms e) :
    e = .value name (.unsigned m.toNat) := by
  have hfits := ((regular_iff hordered).1 hr).2
  obtain ⟨ms', hms', hkeys⟩ := keys_put hordered hrow hname hms
  cases h with
  | fieldCount hlength =>
    have hsame : ms.length = ms'.length := by simpa using congrArg List.length hkeys
    exact absurd (hsame.trans (hfits ms' hms').length) hlength
  | cell _ hfirst =>
    obtain ⟨_, k, hk, hcell⟩ := hfirst.exists_fault
    have hkey : k ∈ ms.map (·.1) := hkeys ▸ (hr.keys ms' hms' k).2 hk
    cases hcell with
    | missing hnone =>
      obtain ⟨⟨k, w⟩, hmem, rfl⟩ := List.mem_map.1 hkey
      simp only [Json.lookup, Option.map_eq_none_iff, List.find?_eq_none] at hnone
      exact absurd (beq_self_eq_true k) (hnone _ hmem)
    | @unsigned n hlookup hn =>
      -- No other value is too large.
      have hother : ∀ ms ∈ r.data, Json.lookup k ms ≠ some (.number (.natural n)) := fun ms hms hlookup =>
        Nat.not_lt.2 hn (hr.integers ms hms k n ((hordered ms hms).lookup_iff.1 hlookup))
      rcases mem_put hrow hms with hms | rfl
      · exact absurd hlookup (hother ms hms)
      · rw [lookup_insertMember] at hlookup
        split_ifs at hlookup with hsame
        · cases hlookup
          rw [hsame]
        · exact absurd hlookup (hother members (List.mem_of_getElem? hrow))

end Put

/-! ## Cells of tables -/

theorem Kept.eq_of_int64 {label : String} {d c : Cell} (h : Kept label d c) (hlabel : label = "Int64") :
    c = d := by
  cases h with
  | widened => simp at hlabel
  | shown => simp at hlabel
  | same => rfl

/-- The table has a column of that name and type, and in the row a cell in it. -/
def CellAt (t : Table) (i : Nat) (name label : String) (c : Cell) : Prop :=
  ∃ j, t.columns[j]? = some ⟨name, label, true⟩ ∧ t.get? i j = some c

theorem forall₂_getElem? {α β : Type} {R : α → β → Prop} {as : List α} {bs : List β}
    (h : List.Forall₂ R as bs) {i : Nat} {a : α} (ha : as[i]? = some a) : ∃ b, bs[i]? = some b ∧ R a b := by
  induction h generalizing i with
  | nil => cases ha
  | cons hab _ ih =>
    cases i with
    | zero =>
      cases ha
      exact ⟨_, rfl, hab⟩
    | succ i => exact ih ha

/-- A value of a result has a cell in the table, of the type of the column. -/
theorem Transcribes.exists_cell {r : Result} {t : Table} (h : Transcribes r t) {i : Nat} {name : String}
    {members : List (String × Json)} {v : Json} (hrow : r.data[i]? = some members) (hname : name ∈ r.names)
    (hv : Json.lookup name members = some v) :
    ∃ label c d, CellAt t i name label c ∧ cellOf name v = .ok d ∧ Kept label d c ∧
      (v ≠ .null → (∀ ms ∈ r.data, ∀ w, Json.lookup name ms = some w → w = .null ∨ IsInteger w) →
        label = "Int64") := by
  obtain ⟨j, hj⟩ := List.mem_iff_getElem?.1 hname
  have hcolumn : t.columns[j]? = some (column r name) := by
    rw [h.columns, List.getElem?_map, hj]
    rfl
  obtain ⟨values, cells, hvalues, hcells, htyped⟩ := h.typed hcolumn
  obtain ⟨w, hw, hlookup⟩ := forall₂_getElem? hvalues hrow
  rw [show (column r name).name = name from rfl, hv] at hlookup
  cases hlookup
  obtain ⟨c, hc, d, hd, hkept⟩ := forall₂_getElem? htyped.kept hw
  obtain ⟨row, hrow', hcell⟩ := forall₂_getElem? hcells.flip hc
  have hat : t.get? i j = some c := by
    rw [Table.get?, hrow']
    exact hcell
  refine ⟨_, c, d, ⟨j, hcolumn, hat⟩, cellOf_eq_ok.2 hd, hkept, fun hne hall => ?_⟩
  refine htyped.int64_iff.2 ⟨fun w hw => ?_, v, List.mem_of_getElem? hw, hne⟩
  obtain ⟨k, hk⟩ := List.mem_iff_getElem?.1 hw
  obtain ⟨ms, hms, hlookup⟩ := forall₂_getElem? hvalues.flip hk
  exact hall ms (List.mem_of_getElem? hms) w hlookup

/-! ## Values in a place -/

theorem takes_null_document (d : Nat) : Takes Delimited document d ['n', 'u', 'l', 'l'] .null := by
  obtain ⟨-, htakes⟩ := @reads_document_null depthLimit d .dense 0
  exact (htakes [] .nil).mono fun _ h => h.ends

section Place

variable {pre post : List Char} {i : Nat} {name : String} {r : Result}

theorem Place.read (h : Place pre post i name r) {s : List Char} {v : Json}
    (hs : Takes Delimited document (depthLimit - 3) s v) :
    Json.read reader (filled pre post s) = .ok (r.put i name v) :=
  h.hole.reads trivial hs

/-- A text with null in a place that is read says the same as any other but for the value there. -/
theorem Place.exists_base (h : Place pre post i name r)
    (hnull : ∃ t, decode (filled pre post ['n', 'u', 'l', 'l']) = .ok t) :
    ∃ r₀ members, (∀ v, r.put i name v = r₀.put i name v) ∧ (∀ j, j ≠ i → r₀.data[j]? = r.data[j]?) ∧
      Regular r₀ ∧ (∀ ms ∈ r₀.data, Ordered ms) ∧ r₀.data[i]? = some members ∧
      name ∈ members.map (·.1) := by
  obtain ⟨members, hrow, hname⟩ := h.member
  have hread := h.read (takes_null_document _)
  have hregular : Regular (r.put i name .null) := by
    obtain ⟨t, ht⟩ := hnull
    obtain ⟨-, r', hr', hregular, -⟩ := decode_eq_ok.1 ht
    rw [hread] at hr'
    cases hr'
    exact hregular
  refine ⟨r.put i name .null, _, fun v => (put_put _ v).symm, fun j hj => ?_, hregular, ordered_of_read hread,
    getElem?_put hrow name _, mem_keys_insertMember_self⟩
  exact getElem?_put_ne hj _

/-- **A value with a cell in the place of another**: the text has a table, and there the cell is. -/
theorem Place.exists_cell (h : Place pre post i name r)
    (hnull : ∃ t, decode (filled pre post ['n', 'u', 'l', 'l']) = .ok t) {s : List Char} {v : Json}
    (hs : Takes Delimited document (depthLimit - 3) s v) {d : Cell} (hd : cellOf name v = .ok d) :
    ∃ t label c, decode (filled pre post s) = .ok t ∧ CellAt t i name label c ∧ Kept label d c ∧
      (IsInteger v → (∀ j, j ≠ i → ∀ ms, r.data[j]? = some ms → ∀ w, Json.lookup name ms = some w →
        w = .null ∨ IsInteger w) → label = "Int64") := by
  obtain ⟨r₀, members, hput, hothers, hregular, hordered, hrow, hname⟩ := h.exists_base hnull
  have hread := h.read hs
  rw [hput] at hread
  have hregular' := hregular.put hordered hrow hname ⟨d, hd⟩
  obtain ⟨t, ht⟩ := exists_toTable (ordered_of_read hread) hregular'
  have hdecode : decode (filled pre post s) = .ok t := by
    rw [decode_of_not_blank (not_blank_of_read hread), hread]
    exact ht
  have htranscribes : Transcribes (r₀.put i name v) t := by
    obtain ⟨-, r', hr', -, ht'⟩ := decode_eq_ok.1 hdecode
    rw [hread] at hr'
    cases hr'
    exact ht'
  have hrow' := getElem?_put hrow name v
  have hnames : name ∈ (r₀.put i name v).names := by
    rw [names_put hordered hrow hname]
    exact (hregular.keys members (List.mem_of_getElem? hrow) name).1 hname
  obtain ⟨label, c, d', hcell, hd', hkept, hint⟩ := htranscribes.exists_cell hrow' hnames
    (v := v) (by rw [lookup_insertMember, if_pos rfl])
  rw [hd] at hd'
  cases hd'
  -- The column holds integers only if all other rows do; the row at hand does.
  refine ⟨t, label, c, hdecode, hcell, hkept, fun hv hall => hint ?_ fun ms hms w hw => ?_⟩
  · rintro rfl
    obtain ⟨n, hn⟩ | ⟨n, hn⟩ := hv
    · cases hn
    · cases hn
  · obtain ⟨j, hj⟩ := List.mem_iff_getElem?.1 hms
    by_cases hji : j = i
    · rw [hji, hrow'] at hj
      cases hj
      rw [lookup_insertMember, if_pos rfl] at hw
      cases hw
      exact .inr hv
    · rw [getElem?_put_ne hji, hothers j hji] at hj
      exact hall j hji ms hj w hw

/-- **A natural number too large for a cell** in the place of a value: the text is refused for it. -/
theorem Place.decode_large (h : Place pre post i name r)
    (hnull : ∃ t, decode (filled pre post ['n', 'u', 'l', 'l']) = .ok t) {s : List Char} {m : UInt64}
    (hs : Takes Delimited document (depthLimit - 3) s (.number (.natural m)))
    (hm : 0x8000000000000000 ≤ m.toNat) :
    decode (filled pre post s) = .error (.value name (.unsigned m.toNat)) := by
  obtain ⟨r₀, members, hput, -, hregular, hordered, hrow, hname⟩ := h.exists_base hnull
  have hread := h.read hs
  rw [hput] at hread
  cases hdecode : decode (filled pre post s) with
  | ok t =>
    obtain ⟨-, r', hr', hregular', -⟩ := decode_eq_ok.1 hdecode
    rw [hread] at hr'
    cases hr'
    have hmem := List.mem_of_getElem? (getElem?_put hrow name (.number (.natural m)))
    have hlookup : Json.lookup name (insertMember name (.number (.natural m)) members)
        = some (.number (.natural m)) := by rw [lookup_insertMember, if_pos rfl]
    have hentry := (ordered_of_read hread _ hmem).lookup_iff.1 hlookup
    exact absurd (hregular'.integers _ hmem name m hentry) (Nat.not_lt.2 hm)
  | error e =>
    have hblank := not_blank_of_read hread
    cases decode_eq_error.1 hdecode with
    | empty h => exact absurd h hblank
    | malformed _ he =>
      rw [hread] at he
      cases he
    | rowCount _ hr hn hne =>
      rw [hread] at hr
      cases hr
      rw [Result.put, List.length_modify] at hne
      exact absurd (hregular.count _ hn) hne
    | row _ hr _ hfirst =>
      rw [hread] at hr
      cases hr
      obtain ⟨_, ms, hms, hfault⟩ := hfirst.exists_fault
      rw [names_put hordered hrow hname] at hfault
      rw [hfault.of_put hordered hrow hname hregular hms]

end Place

/-! ## Integers -/

/-- An integer that fits a signed word is read as such, and the cell is exactly this integer. -/
theorem cellOf_integer {negative : Bool} {m : Nat} {n : Int64} (hn : n.toInt = literalValue negative m)
    (hzero : negative = true → m ≠ 0) (name : String) :
    FitsInteger negative m ∧ cellOf name (.number (integer negative m)) = .ok (.int n) := by
  have hle := n.le_toInt
  have hlt := n.toInt_lt
  cases negative with
  | true =>
    have hn : n.toInt = -m := hn
    have hpos := Nat.pos_of_ne_zero (hzero rfl)
    refine ⟨⟨hpos, by omega⟩, ?_⟩
    show Except.ok (Cell.int (Int64.ofInt (-m))) = _
    rw [← hn, Int64.ofInt_toInt]
  | false =>
    have hn : n.toInt = m := hn
    have hm : m < 0x8000000000000000 := by omega
    refine ⟨show m < 0x10000000000000000 by omega, ?_⟩
    have hnat : m.toUInt64.toNat = m := Nat.mod_eq_of_lt (by omega)
    have hsame : Int64.ofNat m = n := Int64.toInt_inj.1 (by rw [Int64.toInt_ofNat_of_lt hm, hn])
    show (if m.toUInt64.toNat < 0x8000000000000000 then Except.ok (Cell.int (Int64.ofNat m.toUInt64.toNat))
      else _) = _
    rw [hnat, if_pos hm, hsame]

theorem isInteger_integer (negative : Bool) (m : Nat) : IsInteger (.number (integer negative m)) := by
  cases negative with
  | true => exact .inr ⟨_, rfl⟩
  | false => exact .inl ⟨_, rfl⟩

/-- **Integers in the place of a cell.** -/
theorem decode_integers :
    (∀ text t, decode text = .ok t → ∃ r, Json.read reader text = .ok r ∧
      ∀ i members name, r.data[i]? = some members → name ∈ members.map (·.1) →
        ∃ pre post s v, text = filled pre post s ∧ Takes Delimited document (depthLimit - 3) s v ∧
          Json.lookup name members = some v ∧ Place pre post i name r) ∧
    ∀ pre post i name r, Place pre post i name r →
      (∃ t, decode (filled pre post ['n', 'u', 'l', 'l']) = .ok t) →
      ∀ sp, Spaces sp → ∀ (negative : Bool) (m : Nat),
        -- An integer that fits a signed word is kept.
        (∀ n : Int64, n.toInt = literalValue negative m → (negative = true → m ≠ 0) →
          ∃ t label c, decode (filled pre post (sp ++ literal negative m)) = .ok t ∧
            CellAt t i name label c ∧ Kept label (.int n) c ∧
            ((∀ j, j ≠ i → ∀ ms, r.data[j]? = some ms → ∀ w, Json.lookup name ms = some w →
              w = .null ∨ IsInteger w) → label = "Int64" ∧ c = .int n)) ∧
        -- One that only fits an unsigned word is refused.
        (negative = false → 0x8000000000000000 ≤ m → m < 0x10000000000000000 →
          decode (filled pre post (sp ++ literal negative m)) = .error (.value name (.unsigned m))) ∧
        -- One below the signed words is a double next to it, if there is one.
        (negative = true → 0x8000000000000000 < m →
          (∃ t label c x q, decode (filled pre post (sp ++ literal negative m)) = .ok t ∧
            CellAt t i name label c ∧ Kept label (.float x) c ∧
            Number.toRat? x = some q ∧ |q - literalValue negative m| ≤ m / 2 ^ 50) ∨
          10 ^ 308 ≤ m ∧ ∃ e,
            decode (filled pre post (sp ++ literal negative m)) = .error (.json (.malformed e))) := by
  refine ⟨fun text t ht => ?_, fun pre post i name r hplace hnull sp hsp negative m => ⟨fun n hn hzero => ?_,
    ?_, ?_⟩⟩
  · obtain ⟨-, r, hr, -, -⟩ := decode_eq_ok.1 ht
    exact ⟨r, hr, fun i members name hrow hname => exists_place hr hrow hname⟩
  · obtain ⟨hfits, hcell⟩ := cellOf_integer hn hzero name
    have hs := (takes_literal hfits hsp (depthLimit - 3)).mono fun _ (h : Delimited _) => h.ends
    obtain ⟨t, label, c, hdecode, hat, hkept, hint⟩ := hplace.exists_cell hnull hs hcell
    refine ⟨t, label, c, hdecode, hat, hkept, fun hall => ?_⟩
    obtain rfl := hint (isInteger_integer negative m) hall
    exact ⟨rfl, hkept.eq_of_int64 rfl⟩
  · rintro rfl hlarge hm
    have hnat : m.toUInt64.toNat = m := Nat.mod_eq_of_lt hm
    have hfits : FitsInteger false m := hm
    have hs := (takes_literal hfits hsp (depthLimit - 3)).mono fun _ (h : Delimited _) => h.ends
    have hrefused := hplace.decode_large hnull hs (by rw [hnat]; exact hlarge)
    rwa [hnat] at hrefused
  · rintro rfl hm
    rcases literal_below hm (depthLimit - 3) with ⟨x, q, hq, hnear, hx⟩ | ⟨hlong, hfails⟩
    · have hs := (hx sp hsp).mono fun _ (h : Delimited _) => h.ends
      obtain ⟨t, label, c, hdecode, hat, hkept, -⟩ := hplace.exists_cell hnull hs (d := .float x) rfl
      have hoff : q - literalValue true m = q + m := by
        rw [literalValue, if_pos rfl]
        push_cast
        ring
      exact .inl ⟨t, label, c, x, q, hdecode, hat, hkept, hq, hoff ▸ hnear⟩
    · have hend : Ends post := hplace.hole.delimited.ends
      have hunread := hplace.hole.fails (s := sp ++ literal true m) trivial
        (by rw [List.append_assoc]; exact hfails sp post hsp hend)
      -- A text with a sign in it is not blank, and so it is the reader that refuses it.
      have hmem : '-' ∈ (filled pre post (sp ++ literal true m)).toList := by
        simp [filled, literal]
      have hblank : ¬ Blank (filled pre post (sp ++ literal true m)) := fun hblank => by
        cases hblank '-' hmem
      refine .inr ⟨hlong, ?_⟩
      rw [decode_of_not_blank hblank]
      cases hread : Json.read reader (filled pre post (sp ++ literal true m)) with
      | ok a => exact absurd hread (hunread a)
      | error e => exact ⟨e, rfl⟩

/-- One row with one column, as a text. -/
def single (v : Json) : String := (Json.object [("data", .array ([[("v", v)]].map .object))]).compact

/-- The least signed word in the place of null is kept, and the first natural number beyond the signed
words is refused there. -/
theorem decode_extremes : ∃ pre post s, single .null = filled pre post s ∧
    (∃ t, decode (filled pre post (literal true 0x8000000000000000)) = .ok t ∧
      CellAt t 0 "v" "Int64" (.int Int64.minValue)) ∧
    decode (filled pre post (literal false 0x8000000000000000))
      = .error (.value "v" (.unsigned 0x8000000000000000)) := by
  have hread : Json.read reader (single .null) = .ok ⟨[[("v", .null)]], none⟩ := by
    apply read_rows
    · intro row hrow
      cases List.mem_singleton.1 hrow
      exact List.pairwise_singleton _ _
    · intro row hrow m hm
      cases List.mem_singleton.1 hrow
      cases List.mem_singleton.1 hm
      exact reads_document_null
  have hregular : Regular ⟨[[("v", .null)]], none⟩ :=
    ⟨fun n hn => (by cases hn), by simp [Result.names], by simp⟩
  have hdecodes {text : String} (h : Json.read reader text = .ok ⟨[[("v", .null)]], none⟩) :
      ∃ t, decode text = .ok t :=
    (decode_exact text).2.1.2 ⟨not_blank_of_read h, _, h, hregular⟩
  obtain ⟨t, ht⟩ := hdecodes hread
  obtain ⟨r, hr, hplaces⟩ := decode_integers.1 (single .null) t ht
  rw [hread] at hr
  cases hr
  obtain ⟨pre, post, s, v, htext, -, -, hplace⟩ := hplaces 0 _ "v" rfl List.mem_cons_self
  have hnull := hdecodes (hplace.read (takes_null_document _))
  obtain ⟨hkept, -, -⟩ := decode_integers.2 pre post 0 "v" _ hplace hnull [] .nil true 0x8000000000000000
  obtain ⟨-, hrefused, -⟩ := decode_integers.2 pre post 0 "v" _ hplace hnull [] .nil false 0x8000000000000000
  refine ⟨pre, post, s, htext, ?_, hrefused rfl (Nat.le_refl _) (by decide)⟩
  obtain ⟨t', label, c, ht', hat, -, hint⟩ := hkept Int64.minValue rfl fun _ => by decide
  obtain ⟨rfl, rfl⟩ := hint fun j hj ms hms => by
    cases j with
    | zero => exact absurd rfl hj
    | succ j => cases hms
  exact ⟨t', ht', hat⟩

/-- An integer just below the signed words. -/
def below : String := "\x7b\"data\":[\x7b\"v\":-9223372036854775809\x7d]\x7d"

/-- An integer that fits no signed word is taken for a double, and not refused. -/
theorem decode_below : (∃ t, decode below = .ok t ∧ t.columns = [⟨"v", "Float64", true⟩] ∧
      t.rows.map (·.map ColumnKind.ofCell) = [[.float64]]) ∧
    ∀ fault, decode below ≠ .error (.value "v" fault) := by
  have hdecode : ∃ t ∈ (decode below).toOption, t.columns = [⟨"v", "Float64", true⟩] ∧
      t.rows.map (·.map ColumnKind.ofCell) = [[.float64]] := by
    decide +kernel
  obtain ⟨t, ht, hcolumns, hrows⟩ := hdecode
  have hok := toOption_eq_some.1 ht
  refine ⟨⟨t, hok, hcolumns, hrows⟩, fun fault h => ?_⟩
  rw [hok] at h
  cases h

end DataClient.Records
