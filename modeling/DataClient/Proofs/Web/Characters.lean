import DataClient.Proofs.Outcome
import DataClient.Proofs.Web.Form
import DataClient.Web.Host

/-!
# The characters of the parts of an address

A part of an address that is encoded has only characters that stand for themselves there
(`EncodeSet.Encoded`), so encoding it once more leaves it as it is. A host is written without the marks
that end an authority (`isHostChar`), whatever text it was read from.
-/

set_option autoImplicit false

namespace DataClient.Web

/-! ## Kinds of characters -/

/-- All characters of a text are of a kind. -/
def Consists (P : Char → Bool) (s : String) : Prop := ∀ c ∈ s.toList, P c = true

namespace Consists

variable {P Q : Char → Bool}

instance (s : String) : Decidable (Consists P s) :=
  decidable_of_iff (s.toList.all P = true) List.all_eq_true

theorem append {s t : String} (hs : Consists P s) (ht : Consists P t) : Consists P (s ++ t) := by
  unfold Consists
  rw [String.toList_append, List.forall_mem_append]
  exact ⟨hs, ht⟩

theorem mono (h : ∀ c, P c = true → Q c = true) {s : String} (hs : Consists P s) : Consists Q s :=
  fun c hc => h c (hs c hc)

theorem not_mem {c : Char} (hc : P c = false) {s : String} (hs : Consists P s) : c ∉ s.toList := by
  intro hmem
  rw [hs c hmem] at hc
  cases hc

end Consists

/-! ## Encoded texts -/

/-- A character that stands for itself. -/
def EncodeSet.keeps (set : EncodeSet) (c : Char) : Bool :=
  decide (c.toNat < 0x80) && !set (UInt8.ofNat c.toNat)

/-- All characters of a text stand for themselves. -/
abbrev EncodeSet.Encoded (set : EncodeSet) (s : String) : Prop := Consists set.keeps s

/-- Escapes stand for themselves, and nothing beyond ASCII does. -/
structure EncodeSet.KeepsEscapes (set : EncodeSet) : Prop where
  ascii : ∀ b, set b = false → b < 0x80
  percent : set.keeps '%' = true
  digits : ∀ n < 16, set.keeps (upperHexDigit n) = true

namespace EncodeSet

variable {set set' : EncodeSet}

/-- What holds of the ASCII characters that a set keeps holds of all characters that it keeps. -/
theorem of_keeps {P : Char → Bool} (h : ∀ n < 128, set (UInt8.ofNat n) = false → P (Char.ofNat n) = true)
    {c : Char} (hc : set.keeps c = true) : P c = true := by
  simp only [keeps, Bool.and_eq_true, decide_eq_true_eq, Bool.not_eq_true'] at hc
  have hP := h c.toNat hc.1 hc.2
  rwa [Char.ofNat_toNat] at hP

theorem keeps_ofNat {b : UInt8} (hb : b < 0x80) (hset : set b = false) :
    set.keeps (Char.ofNat b.toNat) = true := by
  have hlt : b.toNat < 128 := UInt8.lt_iff_toNat_lt.1 hb
  rw [keeps, toNat_charOfNat (by omega), UInt8.ofNat_toNat, hset]
  simpa using hlt

theorem keeps_escapeByte (h : set.KeepsEscapes) {b : UInt8} {c : Char} (hc : c ∈ escapeByte b) :
    set.keeps c = true := by
  have hb : b.toNat < 256 := b.toNat_lt
  simp only [escapeByte, List.mem_cons, List.not_mem_nil, or_false] at hc
  rcases hc with rfl | rfl | rfl
  · exact h.percent
  · exact h.digits _ (by omega)
  · exact h.digits _ (by omega)

/-- A text that is encoded by a set is encoded for every part whose characters include those that the
set keeps. -/
theorem encoded_percentEncode_of (h : set'.KeepsEscapes) (hset : ∀ b, set b = false → set' b = false)
    (s : String) : set'.Encoded (percentEncode set s) := by
  intro c hc
  unfold percentEncode encodeBytes at hc
  rw [String.toList_ofList, List.mem_flatMap] at hc
  obtain ⟨b, -, hc⟩ := hc
  unfold encodeByte at hc
  split_ifs at hc with hb
  · exact keeps_escapeByte h hc
  · have hb := hset b (by simpa using hb)
    rw [List.mem_singleton.1 hc]
    exact keeps_ofNat (h.ascii b hb) hb

theorem encoded_percentEncode (h : set.KeepsEscapes) (s : String) :
    set.Encoded (percentEncode set s) :=
  encoded_percentEncode_of h (fun _ hb => hb) s

/-- **Encoding an encoded text leaves it as it is.** -/
theorem Encoded.percentEncode_eq {s : String} (h : set.Encoded s) : percentEncode set s = s := by
  have hchars (cs : List Char) (hcs : ∀ c ∈ cs, set.keeps c = true) :
      encodeBytes set (cs.flatMap String.utf8EncodeChar) = cs := by
    induction cs with
    | nil => rfl
    | cons c cs ih =>
      obtain ⟨hc, hcs⟩ := List.forall_mem_cons.1 hcs
      simp only [keeps, Bool.and_eq_true, decide_eq_true_eq, Bool.not_eq_true'] at hc
      have hnat : (UInt8.ofNat c.toNat).toNat = c.toNat := by
        rw [UInt8.toNat_ofNat']
        omega
      have hbyte : String.utf8EncodeChar c = [UInt8.ofNat c.toNat] := by
        have hlt : UInt8.ofNat c.toNat < 0x80 := by
          rw [UInt8.lt_iff_toNat_lt, hnat]
          exact hc.1
        rw [← utf8EncodeChar_of_lt hlt, hnat, Char.ofNat_toNat]
      unfold encodeBytes at ih ⊢
      rw [List.flatMap_cons, hbyte, List.singleton_append, List.flatMap_cons, ih hcs, encodeByte,
        if_neg (by simp [hc.2]), hnat, Char.ofNat_toNat, List.singleton_append]
  unfold percentEncode
  rw [utf8_eq, hchars _ h, String.ofList_toList]

end EncodeSet

/-- A character that no escape has stands in an encoded text only if it stood in the text before, and
only if it stands for itself. -/
theorem not_mem_percentEncode {set : EncodeSet} (h : ∀ b, set b = false → b < 0x80) {c : Char}
    (hescape : '%' ≠ c ∧ ∀ n < 16, upperHexDigit n ≠ c) {s : String}
    (hs : c ∉ s.toList ∨ set (UInt8.ofNat c.toNat) = true) : c ∉ (percentEncode set s).toList := by
  intro hc
  rcases mem_percentEncode h hc with ⟨b, hb⟩ | ⟨hmem, hset⟩
  · have hlt : b.toNat < 256 := b.toNat_lt
    simp only [escapeByte, List.mem_cons, List.not_mem_nil, or_false] at hb
    rcases hb with rfl | hb | hb
    · exact hescape.1 rfl
    · exact hescape.2 _ (by omega) hb.symm
    · exact hescape.2 _ (by omega) hb.symm
  · rcases hs with hs | hs
    · exact hs hmem
    · rw [hset] at hs
      cases hs

theorem lt_of_fragmentSet {b : UInt8} (h : fragmentSet b = false) : b < 0x80 := by
  simp only [fragmentSet, Bool.or_eq_false_iff] at h
  exact lt_of_controls h.1

theorem keepsEscapes_fragmentSet : fragmentSet.KeepsEscapes :=
  ⟨fun _ => lt_of_fragmentSet, by decide, by decide⟩

theorem keepsEscapes_pathSet : pathSet.KeepsEscapes := ⟨fun _ => lt_of_pathSet, by decide, by decide⟩

theorem keepsEscapes_userInfoSet : userInfoSet.KeepsEscapes := by
  refine ⟨fun b h => ?_, by decide, by decide⟩
  simp only [userInfoSet, Bool.or_eq_false_iff] at h
  exact lt_of_pathSet h.1

theorem keepsEscapes_specialQuerySet : specialQuerySet.KeepsEscapes := by
  refine ⟨fun b h => ?_, by decide, by decide⟩
  simp only [specialQuerySet, querySet, Bool.or_eq_false_iff] at h
  exact lt_of_controls h.1.1

/-! ## Parameters -/

theorem keeps_formByte {b : UInt8} {c : Char} (hc : c ∈ formByte b) :
    specialQuerySet.keeps c = true := by
  unfold formByte at hc
  split_ifs at hc with hspace hplain
  · rw [List.mem_singleton.1 hc]
    decide
  · have hall : ∀ n < 256, isPlain (UInt8.ofNat n) = true →
        specialQuerySet (UInt8.ofNat n) = false := by
      decide +kernel
    have hset := hall b.toNat b.toNat_lt (by rwa [UInt8.ofNat_toNat])
    rw [UInt8.ofNat_toNat] at hset
    rw [List.mem_singleton.1 hc]
    exact EncodeSet.keeps_ofNat (isPlain_bounds hplain).1 hset
  · exact EncodeSet.keeps_escapeByte keepsEscapes_specialQuerySet hc

theorem encoded_formEncode (s : String) : specialQuerySet.Encoded (formEncode s) := by
  intro c hc
  unfold formEncode at hc
  rw [String.toList_ofList, List.mem_flatMap] at hc
  obtain ⟨b, -, hc⟩ := hc
  exact keeps_formByte hc

theorem encoded_formPair (p : String × String) : specialQuerySet.Encoded (formPair p) :=
  ((encoded_formEncode p.1).append (by decide)).append (encoded_formEncode p.2)

/-- Parameters are added behind a query, and stand for themselves there. -/
theorem exists_appendPairs_eq (query : String) (ps : List (String × String)) :
    ∃ tail, appendPairs query ps = query ++ tail ∧ specialQuerySet.Encoded tail := by
  unfold appendPairs
  induction ps generalizing query with
  | nil => exact ⟨"", (String.append_empty).symm, by decide⟩
  | cons p ps ih =>
    obtain ⟨tail, htail, hencoded⟩ := ih ((if query = "" then "" else query ++ "&") ++ formPair p)
    rw [List.foldl_cons, htail]
    split_ifs with hempty
    · exact ⟨formPair p ++ tail, by rw [hempty, String.empty_append, String.empty_append],
        (encoded_formPair p).append hencoded⟩
    · have hmark : specialQuerySet.Encoded "&" := by decide
      exact ⟨"&" ++ formPair p ++ tail, by simp only [String.append_assoc],
        (hmark.append (encoded_formPair p)).append hencoded⟩

/-! ## Hosts -/

/-- A visible character that ends neither an authority nor what stands before the host in it. -/
def isHostChar (c : Char) : Bool := 0x20 < c.toNat && !"/\\?#@".toList.contains c

/-- All characters of a text may stand in a host. -/
abbrev InHost (s : String) : Prop := Consists isHostChar s

theorem inHost_joinWith {sep : String} (hsep : InHost sep) {parts : List String}
    (h : ∀ s ∈ parts, InHost s) : InHost (Text.joinWith sep parts) := by
  induction parts using Text.joinWith.induct with
  | case1 => exact fun c hc => absurd hc List.not_mem_nil
  | case2 s => exact h s List.mem_cons_self
  | case3 s rest hrest ih =>
    obtain ⟨hs, hall⟩ := List.forall_mem_cons.1 h
    rw [Text.joinWith]
    · exact (hs.append hsep).append (ih hall)
    · exact hrest

theorem exists_digitChar_of_mem_toDigits {b n : Nat} (hb : 1 < b) {c : Char}
    (hc : c ∈ Nat.toDigits b n) : ∃ d < b, c = Nat.digitChar d := by
  induction n using Nat.strongRecOn with
  | _ n ih =>
    rw [Nat.toDigits_eq_if hb] at hc
    split_ifs at hc with hlt
    · exact ⟨n, hlt, List.mem_singleton.1 hc⟩
    · rcases List.mem_append.1 hc with hc | hc
      · exact ih (n / b) (Nat.div_lt_self (by omega) hb) hc
      · exact ⟨n % b, Nat.mod_lt _ (by omega), List.mem_singleton.1 hc⟩

theorem inHost_toDigits {b n : Nat} (hb : 1 < b) (hb' : b ≤ 16) :
    InHost (String.ofList (Nat.toDigits b n)) := by
  intro c hc
  rw [String.toList_ofList] at hc
  obtain ⟨d, hd, rfl⟩ := exists_digitChar_of_mem_toDigits hb hc
  have hall : ∀ d < 16, isHostChar (Nat.digitChar d) = true := by decide
  exact hall d (by omega)

theorem inHost_toString (n : Nat) : InHost (toString n) := inHost_toDigits (by decide) (by decide)

theorem inHost_writeIpv4 (address : Nat) : InHost (writeIpv4 address) := by
  refine inHost_joinWith (by decide) fun s hs => ?_
  obtain ⟨i, -, rfl⟩ := List.mem_map.1 hs
  exact inHost_toString _

theorem inHost_writeIpv6 (words : List Nat) : InHost (writeIpv6 words) := by
  have hwords (ws : List Nat) : InHost (Text.joinWith ":" (ws.map Text.hex)) := by
    refine inHost_joinWith (by decide) fun s hs => ?_
    obtain ⟨w, -, rfl⟩ := List.mem_map.1 hs
    exact inHost_toDigits (by decide) (by decide)
  unfold writeIpv6
  extract_lets write
  split
  split_ifs
  · exact hwords _
  · exact ((hwords _).append (by decide)).append (hwords _)

/-! ### Domains -/

theorem isHostChar_of_isDomainChar {c : Char} (h : isDomainChar c = true) : isHostChar c = true := by
  simp only [isDomainChar, Bool.and_eq_true, decide_eq_true_eq, Bool.not_eq_true', List.contains_eq_mem,
    decide_eq_false_iff_not] at h
  obtain ⟨⟨hvisible, -⟩, hmark⟩ := h
  have hsub : "/\\?#@".toList ⊆ "%#/:<>?@[\\]^|".toList := by decide
  simp only [isHostChar, Bool.and_eq_true, decide_eq_true_eq, Bool.not_eq_true', List.contains_eq_mem,
    decide_eq_false_iff_not]
  exact ⟨hvisible, fun hc => hmark (hsub hc)⟩

/-- A domain in ASCII has no marks. -/
theorem inHost_domain? [DomainReader] {s name : String} (h : DomainReader.domain? s = some name) :
    InHost name :=
  fun c hc => isHostChar_of_isDomainChar (DomainReader.isDomainChar_of_domain? h c hc)

theorem exists_words_of_readIpv6 {cs : List Char} {host : Host} (h : readIpv6 cs = .ok host) :
    ∃ words, host = .ipv6 words := by
  unfold readIpv6 at h
  extract_lets words? at h
  clear_value words?
  cases words? with
  | some words => exact ⟨words, (Except.ok.inj h).symm⟩
  | none => cases h

theorem exists_address_of_readIpv4 {cs : List Char} {host : Host} (h : readIpv4 cs = .ok host) :
    ∃ address, host = .ipv4 address := by
  unfold readIpv4 at h
  split at h
  · cases h
  · rename_i numbers _
    cases haddress : ipv4OfParts numbers with
    | error e =>
      rw [haddress] at h
      cases h
    | ok address =>
      rw [haddress] at h
      cases h
      exact ⟨address, rfl⟩

theorem writeIpv4_ne_empty (address : Nat) : writeIpv4 address ≠ "" := by
  intro h
  have hlist := congrArg String.toList h
  simp [writeIpv4, Text.joinWith] at hlist

/-- **A host that is read is written without marks, and is not empty.** -/
theorem inHost_of_readHost [DomainReader] {cs : List Char} {host : Host}
    (h : readHost cs = .ok host) :
    InHost host.write ∧ host.write ≠ "" := by
  unfold readHost at h
  split at h
  · obtain ⟨inner, -, h⟩ := Outcome.bind_eq_ok.1 h
    obtain ⟨words, rfl⟩ := exists_words_of_readIpv6 h
    refine ⟨(Consists.append (by decide) (inHost_writeIpv6 words)).append (by decide), ?_⟩
    intro hempty
    have hlist := congrArg String.toList hempty
    rw [Host.write, String.toList_append, String.toList_append] at hlist
    cases hlist
  · split at h
    · cases h
    · rename_i name hname
      split_ifs at h with hempty hnumber
      · obtain ⟨address, rfl⟩ := exists_address_of_readIpv4 h
        exact ⟨inHost_writeIpv4 address, writeIpv4_ne_empty address⟩
      · cases h
        exact ⟨inHost_domain? hname, hempty⟩

end DataClient.Web
