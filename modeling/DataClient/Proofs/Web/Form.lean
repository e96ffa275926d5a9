import DataClient.Proofs.Text.Parts
import DataClient.Proofs.Web.Percent

/-!
# Parameters are read as they were written

A name and a value are written as bytes of which only letters, digits and a few marks stand for
themselves, so neither holds the `=` between them or the `&` behind them. Reading a query therefore
finds its parts again, and decoding a part undoes the encoding: a space is read off a `+`, and a `+`
was written as an escape. So parameters that are added to a query are read behind those that it had
before (`parsePairs_appendPairs`), whatever these are.
-/

set_option autoImplicit false

namespace DataClient.Web

/-! ## One byte -/

/-- A byte of a query, with the sign for a space read as one. -/
def spaced (b : UInt8) : UInt8 := if b = 0x2B then 0x20 else b

theorem spaced_upperHexDigit {n : Nat} (h : n < 16) :
    spaced (UInt8.ofNat (upperHexDigit n).toNat) = UInt8.ofNat (upperHexDigit n).toNat := by
  revert n
  decide

theorem isPlain_bounds {b : UInt8} (h : isPlain b = true) : b < 0x80 ∧ b ≠ 0x25 ∧ b ≠ 0x2B := by
  have hall : ∀ n < 256, isPlain (UInt8.ofNat n) = true →
      UInt8.ofNat n < 0x80 ∧ UInt8.ofNat n ≠ 0x25 ∧ UInt8.ofNat n ≠ 0x2B := by decide +kernel
  have hb := hall b.toNat b.toNat_lt
  rw [UInt8.ofNat_toNat] at hb
  exact hb h

theorem map_spaced_escapeByte (b : UInt8) :
    ((escapeByte b).flatMap String.utf8EncodeChar).map spaced =
      (escapeByte b).flatMap String.utf8EncodeChar := by
  have hb : b.toNat < 256 := b.toNat_lt
  have hpercent : spaced 0x25 = 0x25 := rfl
  rw [flatMap_escapeByte, List.map_cons, List.map_cons, List.map_singleton, hpercent,
    spaced_upperHexDigit (by omega), spaced_upperHexDigit (by omega)]

/-- A byte of a parameter is read as it was written. -/
theorem decodeBytes_formByte (b : UInt8) (rest : List UInt8) :
    decodeBytes (((formByte b).flatMap String.utf8EncodeChar).map spaced ++ rest) =
      b :: decodeBytes rest := by
  unfold formByte
  split_ifs with hspace hplain
  · have hplus : (['+'].flatMap String.utf8EncodeChar).map spaced = [0x20] := by decide
    rw [hplus, List.singleton_append, decodeBytes_cons (by decide), hspace]
  · obtain ⟨hlt, hpercent, hplus⟩ := isPlain_bounds hplain
    rw [List.flatMap_singleton, utf8EncodeChar_of_lt hlt, List.map_singleton,
      List.singleton_append, spaced, if_neg hplus, decodeBytes_cons hpercent]
  · rw [map_spaced_escapeByte, decodeBytes_escapeByte]

/-! ## Names and values -/

/-- **Decoding a name or a value undoes its encoding.** -/
theorem formDecode_formEncode (s : String) : formDecode (formEncode s) = s := by
  have hbytes (bytes : List UInt8) :
      decodeBytes (((bytes.flatMap formByte).flatMap String.utf8EncodeChar).map spaced) = bytes := by
    induction bytes with
    | nil => rfl
    | cons b bytes ih =>
      rw [List.flatMap_cons, List.flatMap_append, List.map_append, decodeBytes_formByte, ih]
  have hutf8 : utf8 (formEncode s) = ((utf8 s).flatMap formByte).flatMap String.utf8EncodeChar :=
    utf8_ofList _
  have hdecode : formDecode (formEncode s) =
      Text.ofBytesLossy ⟨(decodeBytes ((utf8 (formEncode s)).map spaced)).toArray⟩ := rfl
  rw [hdecode, hutf8, hbytes, mk_utf8, ofBytesLossy_toUTF8]

/-- The characters that keep the parts of a query apart. -/
def isMark (c : Char) : Bool := c = '&' || c = '='

theorem isMark_formByte {b : UInt8} {c : Char} (hc : c ∈ formByte b) : isMark c = false := by
  have hb : b.toNat < 256 := b.toNat_lt
  unfold formByte at hc
  split_ifs at hc with hspace hplain
  · rw [List.mem_singleton.1 hc]
    decide
  · have hall : ∀ n < 256, isPlain (UInt8.ofNat n) = true → isMark (Char.ofNat n) = false := by
      decide +kernel
    rw [List.mem_singleton.1 hc]
    exact hall b.toNat hb (by rwa [UInt8.ofNat_toNat])
  · have hdigit : ∀ n < 16, isMark (upperHexDigit n) = false := by decide
    simp only [escapeByte, List.mem_cons, List.not_mem_nil, or_false] at hc
    rcases hc with rfl | rfl | rfl
    · decide
    · exact hdigit _ (by omega)
    · exact hdigit _ (by omega)

theorem isMark_formEncode {s : String} {c : Char} (hc : c ∈ (formEncode s).toList) :
    isMark c = false := by
  unfold formEncode at hc
  rw [String.toList_ofList, List.mem_flatMap] at hc
  obtain ⟨b, -, hc⟩ := hc
  exact isMark_formByte hc

theorem mark_not_mem_formEncode {c : Char} (hc : isMark c = true) (s : String) :
    c ∉ (formEncode s).toList := by
  intro h
  rw [isMark_formEncode h] at hc
  cases hc

/-! ## Parameters -/

theorem toList_formPair (p : String × String) :
    (formPair p).toList = (formEncode p.1).toList ++ '=' :: (formEncode p.2).toList := by
  rw [formPair, String.toList_append, String.toList_append, List.append_assoc]
  rfl

theorem splitPair_formPair (p : String × String) :
    splitPair (formPair p) = (formEncode p.1, formEncode p.2) := by
  have hname : ∀ c ∈ (formEncode p.1).toList, (c != '=') = true := by
    intro c hc
    rw [bne_iff_ne]
    rintro rfl
    exact mark_not_mem_formEncode rfl p.1 hc
  unfold splitPair
  extract_lets cs
  have hcs : cs = (formEncode p.1).toList ++ '=' :: (formEncode p.2).toList := toList_formPair p
  rw [hcs, List.takeWhile_append_of_pos hname, List.dropWhile_append_of_pos hname]
  simp

theorem ampersand_not_mem_formPair (p : String × String) : '&' ∉ (formPair p).toList := by
  rw [toList_formPair, List.mem_append, List.mem_cons]
  rintro (h | h | h)
  · exact mark_not_mem_formEncode rfl p.1 h
  · exact absurd h (by decide)
  · exact mark_not_mem_formEncode rfl p.2 h

/-- The parameters between the separators of a query. -/
def pairsOfParts (parts : List (List Char)) : List (String × String) :=
  (parts.filter (!·.isEmpty)).map fun part =>
    let (name, value) := splitPair (String.ofList part)
    (formDecode name, formDecode value)

theorem pairsOfParts_append (ps qs : List (List Char)) :
    pairsOfParts (ps ++ qs) = pairsOfParts ps ++ pairsOfParts qs := by
  unfold pairsOfParts
  rw [List.filter_append, List.map_append]

theorem pairsOfParts_formPair (p : String × String) : pairsOfParts [(formPair p).toList] = [p] := by
  have hne : (formPair p).toList.isEmpty = false := by
    rw [toList_formPair]
    cases (formEncode p.1).toList <;> rfl
  simp [pairsOfParts, hne, splitPair_formPair, formDecode_formEncode]

/-- A parameter behind a query is read behind those of the query. -/
theorem parsePairs_append (query : String) (p : String × String) :
    parsePairs ((if query = "" then "" else query ++ "&") ++ formPair p) = parsePairs query ++ [p] := by
  have hlast : Text.splitChars '&' (formPair p).toList = [(formPair p).toList] :=
    Text.splitChars_of_not_mem (ampersand_not_mem_formPair p)
  have hparse (s : String) : parsePairs s = pairsOfParts (Text.splitChars '&' s.toList) := rfl
  split_ifs with hempty
  · rw [hempty, hparse, hparse, String.empty_append, hlast, pairsOfParts_formPair]
    rfl
  · have hjoined : (query ++ "&" ++ formPair p).toList = query.toList ++ '&' :: (formPair p).toList := by
      rw [String.toList_append, String.toList_append, List.append_assoc]
      rfl
    rw [hparse, hparse, hjoined, Text.splitChars_append_sep, hlast, pairsOfParts_append,
      pairsOfParts_formPair]

/-- **Parameters that are added to a query are read behind its own**, as they were given and in
order. -/
theorem parsePairs_appendPairs (query : String) (ps : List (String × String)) :
    parsePairs (appendPairs query ps) = parsePairs query ++ ps := by
  unfold appendPairs
  induction ps generalizing query with
  | nil => rw [List.foldl_nil, List.append_nil]
  | cons p ps ih => rw [List.foldl_cons, ih, parsePairs_append, List.append_assoc, List.singleton_append]

end DataClient.Web
