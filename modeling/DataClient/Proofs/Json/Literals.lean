import DataClient.Proofs.Json.Floats
import DataClient.Proofs.Json.Holes

/-!
# Integers as they are written

An integer is written as its digits, behind a sign if it is negative. Those that fit a signed or an
unsigned word are read as themselves (`takes_literal`). A negative one below all of these is read as a
double if there is one of that size, and there is one up to 308 digits; beyond the doubles nothing is
read (`literal_below`).
-/

set_option autoImplicit false

namespace DataClient.Json.Reader

variable {negative : Bool} {d m n k : Nat}

/-- An integer as it is written. -/
def literal (negative : Bool) (m : Nat) : List Char := (if negative then ['-'] else []) ++ Nat.toDigits 10 m

/-- What an integer that is so written is. -/
def literalValue (negative : Bool) (m : Nat) : Int := if negative then -m else m

theorem takes_literal (h : FitsInteger negative m) {sp : List Char} (hsp : Spaces sp) (d : Nat) :
    Takes Ends document d (sp ++ literal negative m) (.number (integer negative m)) := by
  obtain ⟨x, xs, hxs, -⟩ := exists_toDigits_cons m
  exact (decodes_document_number (takes_numberBody h d)
    ⟨x, xs, hxs, isDigit_of_mem_toDigits (hxs ▸ List.mem_cons_self)⟩).takes sp hsp

/-! ## Numbers too long for a word -/

theorem toNat_bounds_of_isDigit {x : Char} (h : Text.isDigit x = true) :
    '0'.toNat ≤ x.toNat ∧ x.toNat ≤ '9'.toNat := by
  simpa [Text.isDigit, Char.le_def, UInt32.le_iff_toNat_le] using h

theorem digitValue_lt {x : Char} (h : Text.isDigit x = true) : Text.digitValue x < 10 := by
  have hbounds := toNat_bounds_of_isDigit h
  have hzero : '0'.toNat = 48 := rfl
  have hnine : '9'.toNat = 57 := rfl
  unfold Text.digitValue
  omega

theorem digitValue_pos {x : Char} (h : Text.isDigit x = true) (hx : x ≠ '0') : 0 < Text.digitValue x := by
  have hne : x.toNat ≠ '0'.toNat := fun heq => hx (Char.toNat_inj.1 heq)
  have hbounds := toNat_bounds_of_isDigit h
  unfold Text.digitValue
  omega

/-- Digits behind a significand fill up its places. -/
theorem ofDigitChars_bounds {ds : List Char} (hds : ∀ y ∈ ds, Text.isDigit y = true) (n : Nat) :
    n * 10 ^ ds.length ≤ Nat.ofDigitChars 10 ds n ∧ Nat.ofDigitChars 10 ds n < (n + 1) * 10 ^ ds.length := by
  induction ds generalizing n with
  | nil => simp [Nat.ofDigitChars]
  | cons y ds ih =>
    have hy := digitValue_lt (hds y List.mem_cons_self)
    obtain ⟨hlow, hhigh⟩ := ih (fun z hz => hds z (List.mem_cons_of_mem y hz)) (n * 10 + Text.digitValue y)
    rw [ofDigitChars_cons_digitValue, List.length_cons, Nat.pow_succ', ← Nat.mul_assoc, ← Nat.mul_assoc]
    constructor
    · exact Nat.le_trans (Nat.mul_le_mul_right _ (by omega)) hlow
    · exact Nat.lt_of_lt_of_le hhigh (Nat.mul_le_mul_right _ (by omega))

/-- The significand takes as many digits as a word holds, and the digits left over fill up its places. -/
theorem accumulate_bounds {ds : List Char} (hds : ∀ y ∈ ds, Text.isDigit y = true)
    (hn : n < 0x10000000000000000) :
    n ≤ (accumulate n ds).1 ∧ (accumulate n ds).1 < 0x10000000000000000 ∧
      (accumulate n ds).1 * 10 ^ (accumulate n ds).2.length ≤ Nat.ofDigitChars 10 ds n ∧
      ((accumulate n ds).2 = [] → Nat.ofDigitChars 10 ds n < 0x10000000000000000) ∧
      ((accumulate n ds).2 ≠ [] → Nat.ofDigitChars 10 ds n * 2 ^ 60
        ≤ (accumulate n ds).1 * 10 ^ (accumulate n ds).2.length * (2 ^ 60 + 1)) := by
  induction ds generalizing n with
  | nil => exact ⟨Nat.le_refl n, hn, by simp [accumulate, Nat.ofDigitChars], fun _ => hn, fun h => absurd rfl h⟩
  | cons x ds ih =>
    have hx := digitValue_lt (hds x List.mem_cons_self)
    rw [accumulate]
    split_ifs with hover
    · obtain ⟨hlow, hhigh⟩ := ofDigitChars_bounds hds n
      refine ⟨Nat.le_refl n, hn, hlow, fun h => (by cases h), fun _ => ?_⟩
      -- One digit more would not fit, so that nineteen are taken and the others hardly count.
      have hlarge : 2 ^ 60 ≤ n := by
        have : 0x10000000000000000 ≤ n * 10 + Text.digitValue x := by simpa [overflows] using hover
        omega
      have hleft := Nat.mul_le_mul_right (10 ^ (x :: ds).length) hlarge
      rw [Nat.add_mul, Nat.one_mul] at hhigh
      dsimp only
      omega
    · have hsmall : n * 10 + Text.digitValue x < 0x10000000000000000 := by
        simpa [overflows] using hover
      obtain ⟨hle, hlt, hrest⟩ := ih (fun y hy => hds y (List.mem_cons_of_mem x hy)) hsmall
      rw [ofDigitChars_cons_digitValue]
      exact ⟨by omega, hlt, hrest⟩

/-- At the end of a number that does not fit a word there is nothing but to form its value. -/
theorem longTail_of_ends {rest : List Char} (hrest : Ends rest) (o : Nat) :
    longTail negative n k ⟨o, rest, d⟩
      = (float negative n k >>= fun y => pure (Number.float y)) ⟨o, rest, d⟩ := by
  cases rest with
  | nil => rfl
  | cons x t =>
    have hall : ∀ x, isDelimiter x = true → longTail negative n k ⟨o, x :: t, d⟩
        = (float negative n k >>= fun y => pure (Number.float y)) ⟨o, x :: t, d⟩ :=
      forall_delimiter.2 ⟨rfl, rfl, rfl, rfl, rfl, rfl, rfl⟩
    exact hall x (hrest x rfl)

theorem bind_of_eq_ok {α β : Type} {r : Reader α} {f : α → Reader β} {c c' : Cursor} {a : α}
    (h : r c = .ok a c') : (r >>= f) c = f a c' := by
  change EStateM.bind r f c = _
  unfold EStateM.bind
  rw [h]

section Long

variable {x : Char} {xs dropped : List Char} (hdigits : ∀ y ∈ x :: xs, Text.isDigit y = true) (hx : x ≠ '0')
  (hlong : accumulate (Text.digitValue x) xs = (n, dropped)) (hdropped : dropped ≠ [])

include hdigits hx hlong hdropped

/-- A number whose digits do not fit a word is a significand and a power of ten. -/
theorem numberBody_long (negative : Bool) (d : Nat) {rest : List Char} (hrest : Ends rest) (o : Nat) :
    ∃ o', numberBody negative ⟨o, x :: (xs ++ rest), d⟩
      = (float negative n dropped.length >>= fun y => pure (Number.float y)) ⟨o', rest, d⟩ := by
  have hnext : next ⟨o, x :: (xs ++ rest), d⟩ = .ok (some x) ⟨o + x.utf8Size, xs ++ rest, d⟩ := rfl
  obtain ⟨o', htaken⟩ := takes_digits (fun y hy => hdigits y (List.mem_cons_of_mem x hy)) d (o + x.utf8Size)
    rest hrest.not_digit
  refine ⟨o', ?_⟩
  have hempty : dropped.isEmpty = false := by simpa using hdropped
  rw [numberBody, bind_of_eq_ok hnext]
  simp only
  refine (congrFun (if_pos (hdigits x List.mem_cons_self)) _).trans ?_
  rw [bind_of_eq_ok htaken, hlong]
  dsimp only
  rw [hempty, if_neg Bool.false_ne_true, longTail_of_ends hrest]

/-- **A number whose digits do not fit a word** is a double, or else too large for one and not read. -/
theorem takes_numberBody_long (negative : Bool) (d : Nat) :
    (∃ z, scale 4 n.toUInt64.toFloat dropped.length = some z ∧
      Takes Ends (numberBody negative) d (x :: xs) (.float (if negative then -z else z))) ∨
      scale 4 n.toUInt64.toFloat dropped.length = none ∧
        ∀ rest, Ends rest → Fails (numberBody negative) d (x :: (xs ++ rest)) := by
  cases hscale : scale 4 n.toUInt64.toFloat dropped.length with
  | some z =>
    refine .inl ⟨z, rfl, fun o rest hrest => ?_⟩
    obtain ⟨o', h⟩ := numberBody_long hdigits hx hlong hdropped negative d hrest o
    rw [float, hscale] at h
    exact ⟨o', h⟩
  | none =>
    refine .inr ⟨rfl, fun rest hrest o v c hv => ?_⟩
    obtain ⟨o', h⟩ := numberBody_long hdigits hx hlong hdropped negative d hrest o
    rw [h, float, hscale] at hv
    exact absurd hv ((refuses_failHere _).bind_left _ _ _)

end Long

/-- The digits of a number that is too large for a signed word. -/
theorem exists_toDigits_below (hm : 0x8000000000000000 < m) :
    ∃ x xs, Nat.toDigits 10 m = x :: xs ∧ x ≠ '0' ∧ (∀ y ∈ x :: xs, Text.isDigit y = true) ∧
      Nat.ofDigitChars 10 (x :: xs) 0 = m := by
  obtain ⟨x, xs, hxs, hzero⟩ := exists_toDigits_cons m
  have hx : x ≠ '0' := fun h => by
    have := (hzero h).1
    omega
  exact ⟨x, xs, hxs, hx, fun y hy => isDigit_of_mem_toDigits (hxs ▸ hy), hxs ▸ Nat.ofDigitChars_ten_toDigits⟩

/-- A magnitude of at most 308 digits has a double. -/
theorem exists_scale_of_lt {e : Nat} (hn : 0 < n) (hfits : n < 0x10000000000000000) (hle : n * 10 ^ e ≤ m)
    (hm : m < 10 ^ 308) : ∃ y, scale 4 n.toUInt64.toFloat e = some y := by
  have he (p : Nat) (hp : m < 10 ^ p) : e < p := by
    have hpow : 10 ^ e < 10 ^ p := by
      calc 10 ^ e ≤ n * 10 ^ e := Nat.le_mul_of_pos_left _ hn
        _ < 10 ^ p := Nat.lt_of_le_of_lt hle hp
    exact (Nat.pow_lt_pow_iff_right (by decide)).1 hpow
  refine DataClient.Number.exists_scale hn hfits (he 308 hm).le (Nat.le_refl 1075) ?_ 3
  have hgrown : n * 10 ^ e * (2 ^ 52 + 1) ^ 2 ≤ 10 ^ 308 * (2 ^ 52 + 1) ^ 2 :=
    Nat.mul_le_mul_right _ (Nat.lt_of_le_of_lt hle hm).le
  exact Nat.lt_of_le_of_lt hgrown (by decide +kernel)

/-- **A negative integer below the signed words** is read as a double that is off by less than one part in
`2 ^ 50`; only from 309 digits on there may be none of its size, and then nothing is read. -/
theorem literal_below (hm : 0x8000000000000000 < m) (d : Nat) :
    (∃ y q, Number.toRat? y = some q ∧ |q + m| ≤ m / 2 ^ 50 ∧
      ∀ sp, Spaces sp → Takes Ends document d (sp ++ literal true m) (.number (.float y))) ∨
      10 ^ 308 ≤ m ∧ ∀ sp rest, Spaces sp → Ends rest →
        Fails document d (sp ++ (literal true m ++ rest)) := by
  obtain ⟨x, xs, hxs, hx, hdigits, hvalue⟩ := exists_toDigits_below hm
  have hdigit : Text.isDigit x = true := hdigits x List.mem_cons_self
  have htext : literal true m = '-' :: x :: xs := by rw [literal, hxs]; rfl
  have hdouble {y : Float} (h : Takes Ends (numberBody true) d (x :: xs) (.float y)) (sp : List Char)
      (hsp : Spaces sp) : Takes Ends document d (sp ++ literal true m) (.number (.float y)) := by
    rw [htext]
    exact (@decodes_document_number _ _ true _ _ h ⟨x, xs, rfl, hdigit⟩).takes sp hsp
  obtain ⟨s, dropped, hlong⟩ : ∃ s dropped, accumulate (Text.digitValue x) xs = (s, dropped) := ⟨_, _, rfl⟩
  have hfirst : Nat.ofDigitChars 10 xs (Text.digitValue x) = m := by
    rw [← hvalue, ofDigitChars_cons_digitValue, Nat.zero_mul, Nat.zero_add]
  by_cases hword : m < 0x10000000000000000
  · obtain ⟨q, hq, hnear⟩ := DataClient.Number.exists_toRat?_neg_toFloat (by omega) hword
    refine .inl ⟨_, q, hq, hnear, hdouble ?_⟩
    have htakes := @takes_numberBody_digits true x xs [] (.float (-m.toUInt64.toFloat)) d hdigits
      (fun h => absurd h hx) (hvalue ▸ hword) (fun rest hrest => hrest.not_digit)
      (takes_numberTail_nil (by rw [hvalue, if_neg (by decide), if_neg (by omega)]) d)
    rwa [List.append_nil] at htakes
  · have hten := digitValue_lt hdigit
    obtain ⟨hle, hlt, hbound, hnil, hleft⟩ := @accumulate_bounds (Text.digitValue x) xs
      (fun y hy => hdigits y (List.mem_cons_of_mem x hy)) (Nat.lt_trans hten (by decide))
    rw [hlong, hfirst] at hbound hnil hleft
    rw [hlong] at hle hlt
    have hpos : 0 < s := Nat.lt_of_lt_of_le (digitValue_pos hdigit hx) hle
    have hdropped : dropped ≠ [] := fun h => hword (hnil h)
    obtain ⟨z, hscale, hy⟩ | ⟨hnone, hfails⟩ := takes_numberBody_long hdigits hx hlong hdropped true d
    · obtain ⟨q, hq, hnear⟩ :=
        DataClient.Number.exists_toRat?_neg_scale hpos hlt hscale hbound (hleft hdropped)
      exact .inl ⟨-z, q, hq, hnear, hdouble hy⟩
    · refine .inr ⟨?_, fun sp rest hsp hrest => ?_⟩
      · by_contra hm'
        obtain ⟨y, hy⟩ := exists_scale_of_lt hpos hlt hbound (Nat.not_le.1 hm')
        rw [hy] at hnone
        cases hnone
      · rw [htext]
        refine Fails.located (Fails.spaced hsp rfl ?_)
        exact (takes_skip '-' d).then_fails trivial (hfails rest hrest).bind

end DataClient.Json.Reader
