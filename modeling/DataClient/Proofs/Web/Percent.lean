import DataClient.Web.Percent
import Mathlib.Tactic.SplitIfs

/-!
# Percent encoding is undone by decoding

Encoding writes every byte as itself or as `%` and two digits. Decoding finds the bytes again, as long
as a byte that stands for itself is a character of one byte and no `%` (`EncodeSet.IsFaithful`). The
set for segments of a path is of that kind; the set for paths that are read is not, since it lets
through what is encoded already.
-/

set_option autoImplicit false

namespace DataClient.Web

/-! ## Bytes of texts -/

theorem utf8_ofList (cs : List Char) :
    utf8 (String.ofList cs) = cs.flatMap String.utf8EncodeChar := by
  unfold utf8 String.toUTF8
  rw [String.toByteArray_ofList, List.utf8Encode, List.data_toByteArray]

theorem utf8_eq (s : String) : utf8 s = s.toList.flatMap String.utf8EncodeChar := by
  rw [← utf8_ofList, String.ofList_toList]

theorem mk_utf8 (s : String) : (⟨(utf8 s).toArray⟩ : ByteArray) = s.toUTF8 := rfl

/-- The bytes of a text are that text. -/
theorem ofBytes?_toUTF8 (s : String) : Text.ofBytes? s.toUTF8 = some s := by
  unfold Text.ofBytes? String.fromUTF8?
  exact dif_pos s.isValidUTF8

theorem ofBytesLossy_toUTF8 (s : String) : Text.ofBytesLossy s.toUTF8 = s := by
  have h : String.fromUTF8? s.toUTF8 = some s := ofBytes?_toUTF8 s
  rw [Text.ofBytesLossy, h]

theorem toNat_charOfNat {n : Nat} (h : n < 0xD800) : (Char.ofNat n).toNat = n := by
  have hv : n.isValidChar := .inl h
  unfold Char.ofNat
  rw [dif_pos hv]
  rfl

theorem utf8EncodeChar_of_lt {b : UInt8} (h : b < 0x80) :
    String.utf8EncodeChar (Char.ofNat b.toNat) = [b] := by
  have hb : b.toNat < 128 := UInt8.lt_iff_toNat_lt.1 h
  have hval : (Char.ofNat b.toNat).val.toNat = b.toNat := toNat_charOfNat (by omega)
  unfold String.utf8EncodeChar
  simp only [hval]
  rw [if_pos (by omega), UInt8.ofNat_toNat]

/-- A byte below 0x80 in a text is one of its characters. -/
theorem toNat_eq_of_mem_utf8EncodeChar {b : UInt8} {c : Char} (h : b < 0x80)
    (hb : b ∈ String.utf8EncodeChar c) : c.toNat = b.toNat := by
  have hlt : b.toNat < 128 := UInt8.lt_iff_toNat_lt.1 h
  have hshort {n : Nat} (hn : n < 128) (he : b = UInt8.ofNat n) : n = b.toNat := by
    rw [he, UInt8.toNat_ofNat']
    omega
  have hlong {n : Nat} (h1 : 128 ≤ n) (h2 : n < 256) : b ≠ UInt8.ofNat n := by
    intro he
    rw [he, UInt8.toNat_ofNat'] at hlt
    omega
  unfold String.utf8EncodeChar at hb
  dsimp only at hb
  split_ifs at hb with h1 h2 h3
  · exact hshort (Nat.lt_succ_of_le h1) (List.mem_singleton.1 hb)
  -- The bytes of a longer character are not below 0x80.
  all_goals
    exfalso
    simp only [List.mem_cons, List.not_mem_nil, or_false] at hb
  · rcases hb with hb | hb <;> exact hlong (by omega) (by omega) hb
  · rcases hb with hb | hb | hb <;> exact hlong (by omega) (by omega) hb
  · rcases hb with hb | hb | hb | hb <;> exact hlong (by omega) (by omega) hb

/-! ## One byte -/

theorem hexByte?_upperHexDigit {n : Nat} (h : n < 16) :
    hexByte? (UInt8.ofNat (upperHexDigit n).toNat) = some n := by
  revert n
  decide

theorem utf8EncodeChar_upperHexDigit {n : Nat} (h : n < 16) :
    String.utf8EncodeChar (upperHexDigit n) = [UInt8.ofNat (upperHexDigit n).toNat] := by
  revert n
  decide

theorem decodeBytes_escape {x y : Nat} {a b : UInt8} (ha : hexByte? a = some x)
    (hb : hexByte? b = some y) (rest : List UInt8) :
    decodeBytes (0x25 :: a :: b :: rest) = UInt8.ofNat (x * 16 + y) :: decodeBytes rest := by
  rw [decodeBytes, ha, hb]

theorem decodeBytes_cons {b : UInt8} (h : b ≠ 0x25) (rest : List UInt8) :
    decodeBytes (b :: rest) = b :: decodeBytes rest := by
  rw [decodeBytes]
  intro _ _ _ he
  exact absurd he h

/-- The bytes that an escape is written in. -/
theorem flatMap_escapeByte (b : UInt8) :
    (escapeByte b).flatMap String.utf8EncodeChar =
      [0x25, UInt8.ofNat (upperHexDigit (b.toNat / 16)).toNat,
        UInt8.ofNat (upperHexDigit (b.toNat % 16)).toNat] := by
  have hb : b.toNat < 256 := b.toNat_lt
  have hhigh : b.toNat / 16 < 16 := by omega
  have hlow : b.toNat % 16 < 16 := by omega
  simp only [escapeByte, List.flatMap_cons, List.flatMap_nil, utf8EncodeChar_upperHexDigit hhigh,
    utf8EncodeChar_upperHexDigit hlow]
  rfl

theorem decodeBytes_escapeByte (b : UInt8) (rest : List UInt8) :
    decodeBytes ((escapeByte b).flatMap String.utf8EncodeChar ++ rest) = b :: decodeBytes rest := by
  have hb : b.toNat < 256 := b.toNat_lt
  have hhigh : b.toNat / 16 < 16 := by omega
  have hlow : b.toNat % 16 < 16 := by omega
  have hsum : b.toNat / 16 * 16 + b.toNat % 16 = b.toNat := by omega
  rw [flatMap_escapeByte]
  simp only [List.cons_append, List.nil_append]
  rw [decodeBytes_escape (hexByte?_upperHexDigit hhigh) (hexByte?_upperHexDigit hlow), hsum,
    UInt8.ofNat_toNat]

/-! ## Texts -/

/-- What stands for itself is a character of one byte, and no `%`. -/
def EncodeSet.IsFaithful (set : EncodeSet) : Prop := ∀ b, set b = false → b < 0x80 ∧ b ≠ 0x25

theorem decodeBytes_encodeBytes {set : EncodeSet} (h : set.IsFaithful) (bytes : List UInt8) :
    decodeBytes ((encodeBytes set bytes).flatMap String.utf8EncodeChar) = bytes := by
  induction bytes with
  | nil => rfl
  | cons b bytes ih =>
    unfold encodeBytes at ih ⊢
    rw [List.flatMap_cons, List.flatMap_append, encodeByte]
    split_ifs with hb
    · rw [decodeBytes_escapeByte, ih]
    · obtain ⟨hlt, hne⟩ := h b (by simpa using hb)
      rw [List.flatMap_singleton, utf8EncodeChar_of_lt hlt, List.singleton_append,
        decodeBytes_cons hne, ih]

/-- **Decoding undoes encoding.** -/
theorem percentDecode_percentEncode {set : EncodeSet} (h : set.IsFaithful) (s : String) :
    percentDecode (percentEncode set s) = s.toUTF8 := by
  unfold percentDecode percentEncode
  rw [utf8_ofList, decodeBytes_encodeBytes h, mk_utf8]

theorem lt_of_controls {b : UInt8} (h : controls b = false) : b < 0x80 := by
  simp only [controls, Bool.or_eq_false_iff, decide_eq_false_iff_not, UInt8.le_iff_toNat_le] at h
  have hb : ¬ 127 ≤ b.toNat := h.2
  rw [UInt8.lt_iff_toNat_lt]
  have h80 : (0x80 : UInt8).toNat = 128 := rfl
  omega

theorem lt_of_pathSet {b : UInt8} (h : pathSet b = false) : b < 0x80 := by
  simp only [pathSet, fragmentSet, Bool.or_eq_false_iff] at h
  exact lt_of_controls h.1.1

theorem lt_of_segmentSet {b : UInt8} (h : segmentSet b = false) : b < 0x80 := by
  simp only [segmentSet, Bool.or_eq_false_iff] at h
  exact lt_of_pathSet h.1

theorem isFaithful_segmentSet : segmentSet.IsFaithful := by
  intro b hb
  refine ⟨lt_of_segmentSet hb, ?_⟩
  rintro rfl
  exact absurd hb (by decide)

/-- The characters of an encoded text are those of escapes, and those of the text that stand for
themselves. -/
theorem mem_percentEncode {set : EncodeSet} (h : ∀ b, set b = false → b < 0x80) {s : String}
    {c : Char} (hc : c ∈ (percentEncode set s).toList) :
    (∃ b, c ∈ escapeByte b) ∨ c ∈ s.toList ∧ set (UInt8.ofNat c.toNat) = false := by
  unfold percentEncode encodeBytes at hc
  rw [String.toList_ofList, List.mem_flatMap] at hc
  obtain ⟨b, hb, hc⟩ := hc
  unfold encodeByte at hc
  split_ifs at hc with hset
  · exact .inl ⟨b, hc⟩
  · have hset : set b = false := by simpa using hset
    have hlt := h b hset
    rw [utf8_eq, List.mem_flatMap] at hb
    obtain ⟨d, hd, hb⟩ := hb
    have hd' : Char.ofNat b.toNat = d := by
      rw [← toNat_eq_of_mem_utf8EncodeChar hlt hb, Char.ofNat_toNat]
    rw [List.mem_singleton.1 hc, hd']
    refine .inr ⟨hd, ?_⟩
    rw [toNat_eq_of_mem_utf8EncodeChar hlt hb, UInt8.ofNat_toNat]
    exact hset

theorem slash_not_mem_escapeByte (b : UInt8) : '/' ∉ escapeByte b := by
  have hdigit : ∀ n < 16, '/' ≠ upperHexDigit n := by decide
  have hb : b.toNat < 256 := b.toNat_lt
  simp only [escapeByte, List.mem_cons, List.not_mem_nil, or_false, not_or]
  exact ⟨by decide, hdigit _ (by omega), hdigit _ (by omega)⟩

/-- A text that is encoded for a path has a slash only if it had one before. -/
theorem slash_mem_of_percentEncode {set : EncodeSet} (h : ∀ b, set b = false → b < 0x80) {s : String}
    (hs : '/' ∈ (percentEncode set s).toList) : '/' ∈ s.toList ∧ set 0x2F = false := by
  rcases mem_percentEncode h hs with ⟨b, hb⟩ | hmem
  · exact absurd hb (slash_not_mem_escapeByte b)
  · exact hmem

end DataClient.Web
