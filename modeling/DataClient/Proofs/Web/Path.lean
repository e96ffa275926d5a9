import DataClient.Proofs.Web.Percent
import DataClient.Web.Path

/-!
# Segments behind a path

A segment that is added behind a path is encoded, but first it loses its tabs and line breaks, and a
segment of one or two dots is not added at all or takes the place of others. So a segment arrives as
it was given exactly if it is neither of dots nor holds such characters (`Intact`), and every other
one leaves a path that is too short or has a segment that decodes to something else
(`appendSegments_eq_iff`).
-/

set_option autoImplicit false

namespace DataClient.Web

/-! ## Dot segments -/

theorem toLower_eq {c d : Char} (h : c.toLower = d) : c = d ∨ d.toNat = c.toNat + 32 ∧ 65 ≤ c.toNat := by
  unfold Char.toLower at h
  split_ifs at h with hc
  · right
    have h1 : 65 ≤ c.toNat := UInt32.le_iff_toNat_le.1 hc.1
    have h2 : c.val.toNat ≤ 90 := UInt32.le_iff_toNat_le.1 hc.2
    have hsum : (c.val + ('a'.val - 'A'.val)).toNat = c.toNat + 32 := by
      rw [UInt32.toNat_add]
      exact Nat.mod_eq_of_lt (show c.val.toNat + 32 < 4294967296 by omega)
    rw [← h]
    exact ⟨hsum, h1⟩
  · exact .inl h

theorem eq_of_toLower_eq {c d : Char} (hd : d.toNat < 97) (h : c.toLower = d) : c = d := by
  rcases toLower_eq h with hc | ⟨hsum, hge⟩
  · exact hc
  · omega

theorem eq_of_toLower_eq_e {c : Char} (h : c.toLower = 'e') : c = 'e' ∨ c = 'E' := by
  rcases toLower_eq h with hc | ⟨hsum, -⟩
  · exact .inl hc
  · have he : c.toNat = 'E'.toNat := by
      have h101 : ('e' : Char).toNat = 101 := rfl
      have h69 : ('E' : Char).toNat = 69 := rfl
      omega
    exact .inr (by rw [← Char.ofNat_toNat c, he, Char.ofNat_toNat])

namespace Path

/-- The texts whose lower case is a text of dots, `%`, `2` and `e`. -/
def spellings : List Char → List (List Char)
  | [] => [[]]
  | d :: ds => (spellings ds).flatMap fun cs =>
    if d = 'e' then ['e' :: cs, 'E' :: cs] else [d :: cs]

theorem mem_spellings {cs ds : List Char} (hds : ∀ d ∈ ds, d.toNat < 97 ∨ d = 'e')
    (h : cs.map Char.toLower = ds) : cs ∈ spellings ds := by
  induction ds generalizing cs with
  | nil =>
    rw [List.map_eq_nil_iff.1 h]
    exact List.mem_singleton_self []
  | cons d ds ih =>
    obtain ⟨c, rest, rfl, hc, hrest⟩ := List.map_eq_cons_iff.1 h
    refine List.mem_flatMap.2 ⟨rest, ih (fun d hd => hds d (List.mem_cons_of_mem _ hd)) hrest, ?_⟩
    rcases hds d List.mem_cons_self with hlt | rfl
    · have hne : d ≠ 'e' := by
        rintro rfl
        exact absurd hlt (by decide)
      rw [if_neg hne, eq_of_toLower_eq hlt hc]
      exact List.mem_singleton_self _
    · rcases eq_of_toLower_eq_e hc with rfl | rfl <;> simp

-- A dot segment has several spellings, and `isSingleDot` compares in lower case. The spellings are
-- few, so each of them can be decoded.
theorem percentDecode_of_lowerAscii {texts : List String} {s : String} {u : ByteArray}
    (h : texts.contains (Text.lowerAscii s) = true)
    (htexts : ∀ t ∈ texts, t.toList.all (fun d => d.toNat < 97 || d = 'e') = true ∧
      ∀ cs ∈ spellings t.toList, percentDecode (String.ofList cs) = u) :
    percentDecode s = u := by
  obtain ⟨hds, hall⟩ := htexts _ (List.contains_iff_mem.1 h)
  simp only [List.all_eq_true, Bool.or_eq_true, decide_eq_true_eq] at hds
  have hspelling : s.toList ∈ spellings (Text.lowerAscii s).toList := by
    refine mem_spellings hds ?_
    rw [Text.lowerAscii, String.toList_map]
  have hdecode := hall s.toList hspelling
  rwa [String.ofList_toList] at hdecode

theorem percentDecode_of_isSingleDot {s : String} (h : isSingleDot s = true) :
    percentDecode s = ".".toUTF8 :=
  percentDecode_of_lowerAscii h (by decide)

theorem percentDecode_of_isDoubleDot {s : String} (h : isDoubleDot s = true) :
    percentDecode s = "..".toUTF8 :=
  percentDecode_of_lowerAscii h (by decide)

/-! ## One segment -/

/-- A segment that is added as it is: it is not a dot segment, and has no tabs and line breaks. -/
def Intact (s : String) : Prop := s ≠ "." ∧ s ≠ ".." ∧ ∀ c ∈ s.toList, isBreak c = false

instance (s : String) : Decidable (Intact s) :=
  decidable_of_iff (s ≠ "." ∧ s ≠ ".." ∧ s.toList.all (!isBreak ·) = true) (by simp [Intact])

theorem toUTF8_inj {s t : String} : s.toUTF8 = t.toUTF8 ↔ s = t := String.toByteArray_inj

/-- A segment that was added decodes to what was given, less its breaks. -/
theorem percentDecode_encodeSegment (s : String) :
    percentDecode (encodeSegment s) = (String.ofList (s.toList.filter (!isBreak ·))).toUTF8 :=
  percentDecode_percentEncode isFaithful_segmentSet _

theorem slash_not_mem_encodeSegment (s : String) : '/' ∉ (encodeSegment s).toList := by
  intro h
  exact absurd (slash_mem_of_percentEncode (fun _ => lt_of_segmentSet) h).2 (by decide)

theorem Intact.percentDecode_eq {s : String} (h : Intact s) :
    percentDecode (encodeSegment s) = s.toUTF8 := by
  have hkeep : s.toList.filter (!isBreak ·) = s.toList :=
    List.filter_eq_self.2 fun c hc => by simp [h.2.2 c hc]
  rw [percentDecode_encodeSegment, hkeep, String.ofList_toList]

theorem Intact.encodeSegment_ne_empty {s : String} (h : Intact s) (hne : s ≠ "") :
    encodeSegment s ≠ "" := by
  intro he
  have hdecode := h.percentDecode_eq
  rw [he] at hdecode
  exact hne (toUTF8_inj.1 hdecode.symm)

theorem appendSegment_dots {s : String} (h : s = "." ∨ s = "..") (parts : List String) :
    appendSegment parts s = parts := if_pos h

/-- An intact segment is added as it is, in the place of a path's only segment if that is empty. -/
theorem Intact.appendSegment_eq {s : String} (h : Intact s) (parts : List String) :
    appendSegment parts s = (if parts = [""] then [] else parts) ++ [encodeSegment s] := by
  have hsingle : ¬ isSingleDot (encodeSegment s) = true := fun hd =>
    h.1 (toUTF8_inj.1 (h.percentDecode_eq.symm.trans (percentDecode_of_isSingleDot hd)))
  have hdouble : ¬ isDoubleDot (encodeSegment s) = true := fun hd =>
    h.2.1 (toUTF8_inj.1 (h.percentDecode_eq.symm.trans (percentDecode_of_isDoubleDot hd)))
  unfold appendSegment
  rw [if_neg (not_or.2 ⟨h.1, h.2.1⟩), enter, if_neg hdouble, if_neg hsingle]

/-- Whatever segment is added, a beginning of the path stays, and at most one segment comes behind
it. -/
theorem exists_appendSegment_eq (parts : List String) (s : String) :
    ∃ k tail, appendSegment parts s = parts.take k ++ tail ∧ tail.length ≤ 1 ∧
      ∀ p ∈ tail, p = "" ∨ p = encodeSegment s := by
  by_cases hdots : s = "." ∨ s = ".."
  · exact ⟨parts.length, [], by simp [appendSegment_dots hdots], by simp, by simp⟩
  · have hbase : ∃ k, (if parts = [""] then [] else parts) = parts.take k := by
      split_ifs
      · exact ⟨0, rfl⟩
      · exact ⟨parts.length, List.take_length.symm⟩
    obtain ⟨k, hk⟩ := hbase
    obtain ⟨k', hk'⟩ : ∃ k', climb (parts.take k) = parts.take k' := by
      unfold climb
      split_ifs
      · exact ⟨k, rfl⟩
      · exact ⟨_, by rw [List.dropLast_eq_take, List.take_take]⟩
    unfold appendSegment enter
    rw [if_neg hdots, hk, hk']
    simp only [if_true]
    split_ifs
    · exact ⟨k', [""], rfl, Nat.le_refl 1, fun p hp => .inl (List.mem_singleton.1 hp)⟩
    · exact ⟨k, [""], rfl, Nat.le_refl 1, fun p hp => .inl (List.mem_singleton.1 hp)⟩
    · exact ⟨k, [encodeSegment s], rfl, Nat.le_refl 1, fun p hp => .inr (List.mem_singleton.1 hp)⟩

/-! ## All segments -/

-- The start is generalized: what is added first may be climbed away by what is added later, so the
-- tail of one step can be cut by the rest of the run.
theorem exists_foldl_eq (parts texts : List String) :
    ∃ k tail, texts.foldl appendSegment parts = parts.take k ++ tail ∧
      tail.length ≤ (texts.filter fun s => !(s = "." ∨ s = "..")).length ∧
      ∀ p ∈ tail, p = "" ∨ ∃ s ∈ texts, p = encodeSegment s := by
  induction texts generalizing parts with
  | nil => exact ⟨parts.length, [], by simp, by simp, by simp⟩
  | cons s texts ih =>
    obtain ⟨k', tail', heq', hlen', hmem'⟩ := ih (appendSegment parts s)
    by_cases hdots : s = "." ∨ s = ".."
    · rw [appendSegment_dots hdots] at heq'
      refine ⟨k', tail', by rw [List.foldl_cons, appendSegment_dots hdots, heq'], ?_, ?_⟩
      · rw [List.filter_cons_of_neg (by simp [hdots])]
        exact hlen'
      · intro p hp
        exact (hmem' p hp).imp_right fun ⟨t, ht, he⟩ => ⟨t, List.mem_cons_of_mem s ht, he⟩
    · obtain ⟨k, tail, heq, hlen, hmem⟩ := exists_appendSegment_eq parts s
      refine ⟨min k' k, tail.take (k' - (parts.take k).length) ++ tail', ?_, ?_, ?_⟩
      · rw [List.foldl_cons, heq', heq, List.take_append, List.take_take, List.append_assoc]
      · rw [List.filter_cons_of_pos (by simp [hdots]), List.length_append, List.length_cons]
        have htake := List.length_take_le' (k' - (parts.take k).length) tail
        omega
      · intro p hp
        rcases List.mem_append.1 hp with hp | hp
        · exact (hmem p (List.mem_of_mem_take hp)).imp_right
            fun he => ⟨s, List.mem_cons_self, he⟩
        · exact (hmem' p hp).imp_right fun ⟨t, ht, he⟩ => ⟨t, List.mem_cons_of_mem s ht, he⟩

/-- Intact segments are added one by one behind a path that has more than an empty segment. -/
theorem foldl_of_intact {parts texts : List String} (hparts : ∃ p ∈ parts, p ≠ "")
    (h : ∀ s ∈ texts, Intact s) :
    texts.foldl appendSegment parts = parts ++ texts.map encodeSegment := by
  induction texts generalizing parts with
  | nil => simp
  | cons s texts ih =>
    obtain ⟨p, hp, hne⟩ := hparts
    have hmore : parts ≠ [""] := by
      rintro rfl
      exact hne (List.mem_singleton.1 hp)
    rw [List.foldl_cons, (h s List.mem_cons_self).appendSegment_eq, if_neg hmore,
      ih ⟨p, List.mem_append_left _ hp, hne⟩ fun t ht => h t (List.mem_cons_of_mem s ht),
      List.map_cons, List.append_assoc, List.singleton_append]

/-! ## Behind the slash at the end -/

/-- A path without the empty segment at its end, be it the only one. -/
def beforeSlash (parts : List String) : List String :=
  if parts.getLast? = some "" then parts.dropLast else parts

/-- What stays of a path when a first segment is added behind it. -/
def rootOf (parts : List String) : List String :=
  if withoutTrailingSlash parts = [""] then [] else withoutTrailingSlash parts

/-- Only the path of two empty segments loses one that is not at its end. -/
theorem rootOf_eq {parts : List String} (h : parts ≠ ["", ""]) : rootOf parts = beforeSlash parts := by
  unfold rootOf beforeSlash
  by_cases hlast : parts.getLast? = some ""
  · obtain ⟨init, rfl⟩ := List.getLast?_eq_some_iff.1 hlast
    cases init with
    | nil => rfl
    | cons p init =>
      have hwithout : withoutTrailingSlash (p :: init ++ [""]) = p :: init := by
        unfold withoutTrailingSlash
        rw [if_pos ⟨by simp, hlast⟩, List.dropLast_concat]
      have hmore : p :: init ≠ [""] := by
        intro he
        exact h (by rw [he]; rfl)
      rw [hwithout, if_neg hmore, if_pos hlast, List.dropLast_concat]
  · have hwithout : withoutTrailingSlash parts = parts := if_neg fun hand => hlast hand.2
    have hmore : parts ≠ [""] := by
      rintro rfl
      exact hlast rfl
    rw [hwithout, if_neg hmore, if_neg hlast]

theorem mem_of_mem_rootOf {parts : List String} {p : String} (h : p ∈ rootOf parts) : p ∈ parts := by
  unfold rootOf withoutTrailingSlash at h
  split_ifs at h
  · exact absurd h List.not_mem_nil
  · exact List.dropLast_subset _ h
  · exact absurd h List.not_mem_nil
  · exact h

theorem map_percentDecode_of_intact {texts : List String} (h : ∀ s ∈ texts, Intact s) :
    (texts.map encodeSegment).map percentDecode = texts.map String.toUTF8 := by
  rw [List.map_map]
  exact List.map_congr_left fun s hs => (h s hs).percentDecode_eq

section First

variable {t : String} (ht : Intact t)
include ht

theorem appendSegments_cons (parts texts : List String) :
    appendSegments parts (t :: texts) =
      texts.foldl appendSegment (rootOf parts ++ [encodeSegment t]) := by
  rw [appendSegments, List.foldl_cons, ht.appendSegment_eq, rootOf]

theorem appendSegments_of_intact (hne : t ≠ "") (parts : List String) {texts : List String}
    (h : ∀ s ∈ texts, Intact s) :
    appendSegments parts (t :: texts) = rootOf parts ++ (t :: texts).map encodeSegment := by
  have hlast : encodeSegment t ∈ rootOf parts ++ [encodeSegment t] :=
    List.mem_append_right _ (List.mem_singleton_self _)
  rw [appendSegments_cons ht, foldl_of_intact ⟨_, hlast, ht.encodeSegment_ne_empty hne⟩ h,
    List.append_assoc, List.singleton_append, List.map_cons]

theorem mem_appendSegments {parts texts : List String} {p : String}
    (h : p ∈ appendSegments parts (t :: texts)) :
    p ∈ parts ∨ p = "" ∨ ∃ s ∈ t :: texts, p = encodeSegment s := by
  obtain ⟨k, tail, heq, -, htail⟩ := exists_foldl_eq (rootOf parts ++ [encodeSegment t]) texts
  rw [appendSegments_cons ht, heq] at h
  rcases List.mem_append.1 h with h | h
  · rcases List.mem_append.1 (List.mem_of_mem_take h) with h | h
    · exact .inl (mem_of_mem_rootOf h)
    · exact .inr (.inr ⟨t, List.mem_cons_self, List.mem_singleton.1 h⟩)
  · rcases htail p h with he | ⟨s, hs, he⟩
    · exact .inr (.inl he)
    · exact .inr (.inr ⟨s, List.mem_cons_of_mem t hs, he⟩)

/-- If as many segments arrive as were given, the first of them is in its place, and none of the
others is lost. -/
theorem exists_tail_of_length {parts texts comps : List String}
    (h : appendSegments parts (t :: texts) = beforeSlash parts ++ comps)
    (hne : encodeSegment t ≠ "") (hlen : comps.length = texts.length + 1) :
    parts ≠ ["", ""] ∧ (∀ s ∈ texts, ¬ (s = "." ∨ s = "..")) ∧
      ∃ tail, comps = encodeSegment t :: tail ∧
        ∀ p ∈ tail, p = "" ∨ ∃ s ∈ texts, p = encodeSegment s := by
  obtain ⟨k, tail, heq, htail, hmem⟩ := exists_foldl_eq (rootOf parts ++ [encodeSegment t]) texts
  rw [appendSegments_cons ht, heq] at h
  have hfilter := List.length_filter_le (fun s => !decide (s = "." ∨ s = "..")) texts
  have hcount := congrArg List.length h
  simp only [List.length_append, List.length_take, List.length_singleton] at hcount
  have hparts : parts ≠ ["", ""] := by
    -- Its root is empty, so either the path begins with `t`, or all that is there was added for the
    -- other texts, and is one too short.
    rintro rfl
    cases k with
    | zero =>
      have hone : (beforeSlash ["", ""]).length = 1 := rfl
      omega
    | succ k => exact hne (List.cons.inj h).1
  rw [rootOf_eq hparts] at h hcount
  -- The tail has at most as many segments as there are other texts, so nothing was cut before it.
  have hk : (beforeSlash parts).length + 1 ≤ k := by omega
  rw [List.take_of_length_le (by simpa using hk), List.append_assoc] at h
  have hcomps := List.append_cancel_left h
  refine ⟨hparts, ?_, tail, hcomps.symm, hmem⟩
  have hfull : (texts.filter fun s => !decide (s = "." ∨ s = "..")).length = texts.length := by omega
  intro s hs
  simpa using List.length_filter_eq_length_iff.1 hfull s hs

/-- **When segments arrive.** Behind the path stands one segment for each text, which decodes to it,
exactly if the path is not the one of two empty segments and all texts are intact. -/
theorem appendSegments_eq_iff (hne : t ≠ "") (parts texts : List String) :
    (∃ comps, appendSegments parts (t :: texts) = beforeSlash parts ++ comps ∧
        comps.map percentDecode = (t :: texts).map String.toUTF8) ↔
      parts ≠ ["", ""] ∧ ∀ s ∈ texts, Intact s := by
  have hfirst := ht.encodeSegment_ne_empty hne
  constructor
  · rintro ⟨comps, heq, hdecode⟩
    have hlen : comps.length = texts.length + 1 := by
      simpa using congrArg List.length hdecode
    obtain ⟨hparts, hdots, tail, rfl, htail⟩ := exists_tail_of_length ht heq hfirst hlen
    refine ⟨hparts, fun s hs => ⟨fun h => hdots s hs (.inl h), fun h => hdots s hs (.inr h), ?_⟩⟩
    -- What arrives for `s` is the code of some text, which has lost its breaks.
    have hs' : s.toUTF8 ∈ tail.map percentDecode := by
      rw [(List.cons.inj hdecode).2]
      exact List.mem_map_of_mem hs
    obtain ⟨p, hp, hdec⟩ := List.mem_map.1 hs'
    rcases htail p hp with rfl | ⟨s', -, rfl⟩
    · have hs'' : s = "" := toUTF8_inj.1 hdec.symm
      rw [hs'']
      exact fun c hc => absurd hc List.not_mem_nil
    · rw [percentDecode_encodeSegment, toUTF8_inj] at hdec
      rw [← hdec, String.toList_ofList]
      intro c hc
      simpa using (List.mem_filter.1 hc).2
  · rintro ⟨hparts, hintact⟩
    have hall : ∀ s ∈ t :: texts, Intact s := List.forall_mem_cons.2 ⟨ht, hintact⟩
    refine ⟨(t :: texts).map encodeSegment, ?_, map_percentDecode_of_intact hall⟩
    rw [appendSegments_of_intact ht hne parts hintact, rootOf_eq hparts]

/-- Intact segments that leave the same path are the same. -/
theorem appendSegments_inj (hne : t ≠ "") (parts : List String) {texts texts' : List String}
    (h : ∀ s ∈ t :: texts, Intact s) (h' : ∀ s ∈ t :: texts', Intact s)
    (heq : appendSegments parts (t :: texts) = appendSegments parts (t :: texts')) :
    t :: texts = t :: texts' := by
  rw [appendSegments_of_intact ht hne parts (List.forall_mem_cons.1 h).2,
    appendSegments_of_intact ht hne parts (List.forall_mem_cons.1 h').2] at heq
  have hdecode := congrArg (List.map percentDecode) (List.append_cancel_left heq)
  rw [map_percentDecode_of_intact h, map_percentDecode_of_intact h'] at hdecode
  exact (List.map_inj_right fun _ _ => toUTF8_inj.1).1 hdecode

end First

end Path

end DataClient.Web
