import DataClient.Bytes.Words

/-!
# Words and the bytes that write them

A word that is read at a position is written there: the bytes from the position on begin with its
digits to the base 256, least significant first. So reading a word says which bytes there are, and
bytes say which word is read. Cutting a byte array off behind a word leaves it as it was.
-/

set_option autoImplicit false

namespace DataClient.Bytes

/-- The `n` bytes that write a number, least significant first. -/
def ofWord : (n : Nat) → Nat → List UInt8
  | 0, _ => []
  | n + 1, v => UInt8.ofNat v :: ofWord n (v / 256)

@[simp] theorem length_ofWord (n v : Nat) : (ofWord n v).length = n := by
  induction n generalizing v with
  | zero => rfl
  | succ n ih => rw [ofWord, List.length_cons, ih]

/-- The bytes from a position on. -/
def suffix (b : ByteArray) (pos : Nat) : List UInt8 := b.data.toList.drop pos

@[simp] theorem length_suffix (b : ByteArray) (pos : Nat) :
    (suffix b pos).length = b.size - pos := by
  rw [suffix, List.length_drop, Array.length_toList, ByteArray.size_data]

theorem suffix_add (b : ByteArray) (pos n : Nat) : suffix b (pos + n) = (suffix b pos).drop n := by
  rw [suffix, suffix, List.drop_drop]

/-- The bytes from a position on are the next ones and those behind them. -/
theorem suffix_eq_append (b : ByteArray) (pos n : Nat) :
    suffix b pos = (suffix b pos).take n ++ suffix b (pos + n) := by
  rw [suffix_add, List.take_append_drop]

theorem suffix_eq_nil {b : ByteArray} {pos : Nat} (h : b.size ≤ pos) : suffix b pos = [] := by
  apply List.eq_nil_of_length_eq_zero
  rw [length_suffix]
  omega

theorem suffix_cons {b : ByteArray} {pos : Nat} {x : UInt8} (h : b[pos]? = some x) :
    suffix b pos = x :: suffix b (pos + 1) := by
  obtain ⟨hlt, hx⟩ := getElem?_eq_some_iff.1 h
  have hlt' : pos < b.data.toList.length := hlt
  rw [suffix, suffix, List.drop_eq_getElem_cons hlt']
  exact congrArg (· :: _) hx

theorem getElem?_of_suffix_cons {b : ByteArray} {pos : Nat} {x : UInt8} {rest : List UInt8}
    (h : suffix b pos = x :: rest) : b[pos]? = some x ∧ suffix b (pos + 1) = rest := by
  have hlt : pos < b.size := by
    have hl := congrArg List.length h
    rw [length_suffix, List.length_cons] at hl
    omega
  have hget : b[pos]? = some b[pos] := getElem?_pos b pos hlt
  rw [suffix_cons hget] at h
  injection h with hx hrest
  exact ⟨hx ▸ hget, hrest⟩

/-- The bytes between two positions, as a list. -/
theorem toList_extract (b : ByteArray) (pos n : Nat) :
    (b.extract pos (pos + n)).data.toList = (suffix b pos).take n := by
  rw [ByteArray.data_extract, Array.toList_extract, List.extract_eq_take_drop, suffix]
  congr 1
  omega

theorem eq_of_toList {b : ByteArray} {bytes : List UInt8} (h : b.data.toList = bytes) :
    b = ⟨bytes.toArray⟩ := by
  apply ByteArray.ext
  rw [← h]

theorem size_extract_of_le {b : ByteArray} {start stop : Nat} (h : stop ≤ b.size) :
    (b.extract start stop).size = stop - start := by
  rw [ByteArray.size_extract]
  omega

/-! ## Reading a word -/

theorem word?_succ_eq_some {b : ByteArray} {pos n v : Nat} :
    word? b pos (n + 1) = some v ↔
      ∃ x w, b[pos]? = some x ∧ word? b (pos + 1) n = some w ∧ v = x.toNat + 256 * w := by
  rw [word?]
  constructor
  · intro h
    split at h
    · rename_i x w hx hw
      injection h with h
      exact ⟨x, w, hx, hw, h.symm⟩
    · cases h
  · rintro ⟨x, w, hx, hw, rfl⟩
    rw [hx, hw]

/-- A word lies inside the bytes. -/
theorem le_size_of_word? {b : ByteArray} {pos n v : Nat} (hn : 0 < n) (h : word? b pos n = some v) :
    pos + n ≤ b.size := by
  induction n generalizing pos v with
  | zero => omega
  | succ n ih =>
    obtain ⟨x, w, hx, hw, rfl⟩ := word?_succ_eq_some.1 h
    have hlt : pos < b.size := (getElem?_eq_some_iff.1 hx).1
    cases n with
    | zero => omega
    | succ n =>
      have := ih (Nat.succ_pos n) hw
      omega

theorem word?_lt {b : ByteArray} {pos n v : Nat} (h : word? b pos n = some v) :
    v < Nat.pow 256 n := by
  induction n generalizing pos v with
  | zero =>
    injection h with h
    exact h ▸ Nat.one_pos
  | succ n ih =>
    obtain ⟨x, w, hx, hw, rfl⟩ := word?_succ_eq_some.1 h
    have hlt := x.toNat_lt
    have hw := ih hw
    show x.toNat + 256 * w < Nat.pow 256 n * 256
    omega

/-- A signed word of eight bytes. -/
theorem int?_bounds {b : ByteArray} {pos : Nat} {i : Int} (h : int? b pos 8 = some i) :
    -0x8000000000000000 ≤ i ∧ i < 0x8000000000000000 := by
  obtain ⟨v, hv, rfl⟩ := Option.map_eq_some_iff.1 h
  have hlt : v < 0x10000000000000000 := word?_lt hv
  have hhalf : Nat.pow 2 (8 * 8 - 1) = 0x8000000000000000 := by decide
  have hall : Nat.pow 2 (8 * 8) = 0x10000000000000000 := by decide
  unfold signed
  rw [hhalf, hall]
  split <;> omega

/-- A word is written where it is read. -/
theorem take_suffix_of_word? {b : ByteArray} {pos n v : Nat} (h : word? b pos n = some v) :
    (suffix b pos).take n = ofWord n v := by
  induction n generalizing pos v with
  | zero => rw [List.take_zero, ofWord]
  | succ n ih =>
    obtain ⟨x, w, hx, hw, rfl⟩ := word?_succ_eq_some.1 h
    have hlt := x.toNat_lt
    have hdiv : (x.toNat + 256 * w) / 256 = w := by omega
    have hmod : UInt8.ofNat (x.toNat + 256 * w) = x := by
      apply UInt8.toNat_inj.1
      rw [UInt8.toNat_ofNat']
      omega
    rw [suffix_cons hx, List.take_succ_cons, ih hw, ofWord, hdiv, hmod]

/-- A word that fits is read where it is written. -/
theorem word?_of_suffix {b : ByteArray} {pos n v : Nat} {rest : List UInt8}
    (hv : v < Nat.pow 256 n) (h : suffix b pos = ofWord n v ++ rest) : word? b pos n = some v := by
  induction n generalizing pos v with
  | zero =>
    have hv0 : v = 0 := Nat.lt_one_iff.1 hv
    rw [hv0, word?]
  | succ n ih =>
    rw [ofWord, List.cons_append] at h
    obtain ⟨hx, hrest⟩ := getElem?_of_suffix_cons h
    have hdiv : v / 256 < Nat.pow 256 n := Nat.div_lt_of_lt_mul (by rw [Nat.mul_comm]; exact hv)
    refine word?_succ_eq_some.2 ⟨_, v / 256, hx, ih hdiv hrest, ?_⟩
    rw [UInt8.toNat_ofNat']
    omega

/-! ## Cutting bytes off -/

theorem getElem?_extract {b : ByteArray} {start stop i : Nat} (h : start + i < stop) :
    (b.extract start stop)[i]? = b[start + i]? := by
  by_cases hb : start + i < b.size
  · have he : i < (b.extract start stop).size := by rw [ByteArray.size_extract]; omega
    rw [getElem?_pos _ i he, getElem?_pos b _ hb, ByteArray.getElem_extract]
  · have he : ¬ i < (b.extract start stop).size := by rw [ByteArray.size_extract]; omega
    rw [getElem?_neg _ i he, getElem?_neg b _ hb]

theorem word?_extract {b : ByteArray} {start stop pos n : Nat} (h : start + pos + n ≤ stop) :
    word? (b.extract start stop) pos n = word? b (start + pos) n := by
  induction n generalizing pos with
  | zero => rfl
  | succ n ih => rw [word?, word?, getElem?_extract (by omega), ih (by omega), Nat.add_assoc]

theorem word?_extract_zero {b : ByteArray} {k pos n : Nat} (h : pos + n ≤ k) :
    word? (b.extract 0 k) pos n = word? b pos n := by
  rw [word?_extract (by omega), Nat.zero_add]

end DataClient.Bytes
