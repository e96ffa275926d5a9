import DataClient.Proofs.Json.Documents
import DataClient.Proofs.Number.Scaling

/-!
# Doubles read back

The text of a finite double is read as a number, whatever notation it is written in: digits in front
of a point, digits behind it, and an exponent. The digits are those of the shortest decimal, so all of
them are taken into the significand, and the number is in the range of the doubles
(`exists_reads_double`). A double without a finite value is written as null and read as null.
-/

set_option autoImplicit false

namespace DataClient.Json.Reader

open DataClient.Number (Parts Spacing Style Decimal digitCount)

variable {d : Nat} {negative : Bool} {n : Nat}

/-! ## Pieces of a number -/

/-- A number in pieces has a value. -/
theorem exists_float {exponent : Int} (h : ∃ y, scale 4 n.toUInt64.toFloat exponent = some y)
    (negative : Bool) : ∃ y, float negative n exponent = pure y := by
  obtain ⟨y, hy⟩ := h
  exact ⟨if negative then -y else y, by rw [float, hy]⟩

theorem takes_exponentOrEnd_nil {exponent : Int} {y : Float} (h : float negative n exponent = pure y)
    (d : Nat) : Takes Ends (exponentOrEnd negative n exponent) d [] y := by
  have hend (c : Cursor) (hc : exponentOrEnd negative n exponent c = float negative n exponent c) :
      exponentOrEnd negative n exponent c = .ok y c := by
    rw [hc, h]
    rfl
  exact takes_of_ends (fun o => hend _ rfl) fun o t =>
    forall_delimiter.2 ⟨hend _ rfl, hend _ rfl, hend _ rfl, hend _ rfl, hend _ rfl, hend _ rfl, hend _ rfl⟩

theorem exponentValue_eq {ds : List Char} {acc : Nat} (hacc : acc < 0x80000000) :
    exponentValue acc ds = if Nat.ofDigitChars 10 ds acc < 0x80000000
      then some (Nat.ofDigitChars 10 ds acc) else none := by
  induction ds generalizing acc with
  | nil => exact (if_pos hacc).symm
  | cons x ds ih =>
    rw [exponentValue, ofDigitChars_cons_digitValue]
    split
    · have := le_ofDigitChars ds (acc * 10 + Text.digitValue x)
      rw [if_neg (by omega)]
    · exact ih (by omega)

theorem Takes.after_peek {F : List Char → Prop} {α : Type} {f : Option Char → Reader α} {x : Char}
    {t : List Char} {a : α} (h : Takes F (f (some x)) d (x :: t) a) :
    Takes F (peek >>= f) d (x :: t) a :=
  fun o rest hrest => h o rest hrest

theorem clampExponent_neg {e : Int} (h : e < 0) : clampExponent e < 0 := by
  rw [clampExponent, Int.min_eq_right (by omega)]
  omega

theorem clampExponent_eq {e : Int} (h : 0 ≤ e) (hmax : e < 0x80000000) : clampExponent e = e := by
  rw [clampExponent, Int.min_eq_right (by omega), Int.max_eq_right (by omega)]

/-- The value of a number with the digits of its exponent. -/
def exponentEnd (negative : Bool) (n : Nat) (starting : Int) (minus : Bool) (ds : List Char) :
    Option Float :=
  match exponentValue 0 ds with
  | some e =>
    (scale 4 n.toUInt64.toFloat (clampExponent (if minus then starting - e else starting + e))).map
      fun y => if negative then -y else y
  | none => if minus then some (if negative then -0.0 else 0.0) else none

theorem takes_exponentPart {starting : Int} {minus : Bool} {x : Char} {xs : List Char} {y : Float}
    (hdigits : ∀ c ∈ x :: xs, Text.isDigit c = true)
    (h : exponentEnd negative n starting minus (x :: xs) = some y) (d : Nat) :
    Takes Ends (exponentPart negative n starting) d
      ('e' :: (if minus then '-' else '+') :: x :: xs) y := by
  unfold exponentPart
  refine .after_skip (.after_peek ?_)
  extract_lets digitsBehind
  have hbehind : Takes Ends (digitsBehind minus) d (x :: xs) y := by
    unfold digitsBehind
    refine .after_peek ?_
    dsimp only
    rw [hdigits x List.mem_cons_self]
    simp only [Bool.not_true, Bool.false_eq_true, if_false]
    intro o rest hrest
    obtain ⟨o', htaken⟩ := takes_digits hdigits d o rest (Ends.not_digit hrest)
    refine ⟨o', bind_eq_ok.2 ⟨_, _, rfl, bind_eq_ok.2 ⟨x :: xs, _, htaken, ?_⟩⟩⟩
    unfold exponentEnd at h
    cases hvalue : exponentValue 0 (x :: xs) with
    | some e =>
      simp only [hvalue] at h ⊢
      obtain ⟨z, hz, hy⟩ := Option.map_eq_some_iff.1 h
      rw [float, hz]
      exact congrArg (EStateM.Result.ok · _) hy
    | none =>
      simp only [hvalue] at h ⊢
      cases minus with
      | false => cases h
      | true =>
        exact (ite_eq_ok fun _ _ _ h => by cases h).2
          ⟨fun hup => hup.2 rfl, congrArg (EStateM.Result.ok · _) (Option.some.inj h)⟩
  cases minus with
  | true => exact .after_skip hbehind
  | false => exact .after_skip hbehind

/-- **A number with an exponent has a value**, if scaling up does not leave the range of the doubles:
scaled down far enough it is zero. -/
theorem exists_takes_exponentPart {starting lead : Int} (hstarting : starting ≤ 0)
    (hlead : lead < 0x80000000)
    (h : 0 ≤ starting + lead → ∃ y, scale 4 n.toUInt64.toFloat (starting + lead) = some y)
    (negative : Bool) (d : Nat) :
    ∃ y, Takes Ends (exponentPart negative n starting) d
      ('e' :: (if lead < 0 then '-' else '+') :: Nat.toDigits 10 lead.natAbs) y := by
  obtain ⟨x, xs, hxs, -⟩ := exists_toDigits_cons lead.natAbs
  have hdigits : ∀ y ∈ x :: xs, Text.isDigit y = true := fun y hy => isDigit_of_mem_toDigits (hxs ▸ hy)
  have hvalue : exponentValue 0 (x :: xs)
      = if lead.natAbs < 0x80000000 then some lead.natAbs else none := by
    rw [exponentValue_eq (by decide), ← hxs, Nat.ofDigitChars_ten_toDigits]
  suffices hend : ∃ y, exponentEnd negative n starting (lead < 0) (x :: xs) = some y by
    obtain ⟨y, hy⟩ := hend
    have htakes := takes_exponentPart hdigits hy d
    simp only [decide_eq_true_eq] at htakes
    exact ⟨y, hxs ▸ htakes⟩
  unfold exponentEnd
  rw [hvalue]
  by_cases hsmall : lead.natAbs < 0x80000000
  · have hsum : (if decide (lead < 0) then starting - (lead.natAbs : Int) else starting + lead.natAbs)
        = starting + lead := by
      split <;> rename_i hneg <;> simp only [decide_eq_true_eq] at hneg <;> omega
    have hscale : ∃ y, scale 4 n.toUInt64.toFloat (clampExponent (starting + lead)) = some y := by
      rcases Int.lt_or_le (starting + lead) 0 with hneg | hpos
      · exact Number.exists_scale_of_neg 4 _ (clampExponent_neg hneg)
      · rw [clampExponent_eq hpos (by omega)]
        exact h hpos
    obtain ⟨y, hy⟩ := hscale
    rw [if_pos hsmall]
    dsimp only
    rw [hsum, hy]
    exact ⟨_, rfl⟩
  · rw [if_neg hsmall]
    exact ⟨_, if_pos (decide_eq_true (by omega))⟩

theorem takes_fractionPart {exponent : Int} {ds tail : List Char} {y : Float}
    (hdigits : ∀ x ∈ ds, Text.isDigit x = true) (hds : ds ≠ [])
    (hfits : Nat.ofDigitChars 10 ds n < 0x10000000000000000)
    (hstop : ∀ rest, Ends rest → ∀ x, (tail ++ rest).head? = some x → Text.isDigit x = false)
    (h : Takes Ends (exponentOrEnd negative (Nat.ofDigitChars 10 ds n) (exponent - ds.length)) d tail y) :
    Takes Ends (fractionPart negative n exponent) d ('.' :: (ds ++ tail)) y := by
  unfold fractionPart
  refine .after_skip ((takes_digits hdigits d).bind ?_ hstop)
  rw [if_neg (by simpa using hds), accumulate_eq hfits]
  exact h

theorem takes_numberTail_point {t : List Char} {y : Float}
    (h : Takes Ends (fractionPart negative n 0) d ('.' :: t) y) :
    Takes Ends (numberTail negative n) d ('.' :: t) (.float y) :=
  .after_peek h.then_pure

theorem takes_numberTail_exponent {t : List Char} {y : Float}
    (h : Takes Ends (exponentPart negative n 0) d ('e' :: t) y) :
    Takes Ends (numberTail negative n) d ('e' :: t) (.float y) :=
  .after_peek h.then_pure

/-- What follows digits is none if it begins with something else. -/
theorem not_digit_cons {x : Char} (hx : Text.isDigit x = false) (t : List Char) :
    ∀ rest, Ends rest → ∀ y, (x :: t ++ rest).head? = some y → Text.isDigit y = false := by
  rintro rest - y ⟨⟩
  exact hx

/-! ## Notations -/

/-- **Digits with a point between them** are a number. -/
theorem exists_takes_point {x : Char} {xs ds : List Char} (hfront : ∀ c ∈ x :: xs, Text.isDigit c = true)
    (hzero : x = '0' → xs = []) (hdigits : ∀ c ∈ ds, Text.isDigit c = true) (hds : ds ≠ [])
    (hfits : Nat.ofDigitChars 10 (x :: xs ++ ds) 0 < 0x10000000000000000) (negative : Bool) (d : Nat) :
    ∃ y, Takes Ends (numberBody negative) d (x :: xs ++ '.' :: ds) (.float y) := by
  rw [Nat.ofDigitChars_append] at hfits
  have hlength : 0 < ds.length := List.length_pos_iff.2 hds
  obtain ⟨y, hy⟩ := exists_float (n := Nat.ofDigitChars 10 ds (Nat.ofDigitChars 10 (x :: xs) 0))
    (Number.exists_scale_of_neg 4 _ (e := 0 - ds.length) (by omega)) negative
  refine ⟨y, takes_numberBody_digits hfront hzero (Nat.lt_of_le_of_lt (le_ofDigitChars ds _) hfits)
    (not_digit_cons rfl ds) (takes_numberTail_point ?_)⟩
  have htake : Takes Ends (fractionPart negative (Nat.ofDigitChars 10 (x :: xs) 0) 0) d
      ('.' :: (ds ++ [])) y :=
    takes_fractionPart hdigits hds hfits (fun rest hrest => hrest.not_digit) (takes_exponentOrEnd_nil hy d)
  rwa [List.append_nil] at htake

/-- **A digit, perhaps digits behind a point, and an exponent** are a number if it is in the range of
the doubles. -/
theorem exists_takes_scientific {x : Char} {ds : List Char} {lead : Int}
    (hdigits : ∀ c ∈ x :: ds, Text.isDigit c = true)
    (hfits : Nat.ofDigitChars 10 (x :: ds) 0 < 0x10000000000000000) (hlead : lead < 0x80000000)
    (h : 0 ≤ lead - ds.length →
      ∃ y, scale 4 (Nat.ofDigitChars 10 (x :: ds) 0).toUInt64.toFloat (lead - ds.length) = some y)
    (negative : Bool) (d : Nat) :
    ∃ y, Takes Ends (numberBody negative) d
      (x :: ((if ds = [] then [] else '.' :: ds)
        ++ 'e' :: (if lead < 0 then '-' else '+') :: Nat.toDigits 10 lead.natAbs)) (.float y) := by
  have hstarting : (0 : Int) - ds.length ≤ 0 := by omega
  have hsum : (0 : Int) - ds.length + lead = lead - ds.length := by omega
  rw [← hsum] at h
  obtain ⟨y, hy⟩ := exists_takes_exponentPart hstarting hlead h negative d
  have hfirst : ∀ c ∈ [x], Text.isDigit c = true := by
    intro c hc
    exact hdigits c (List.mem_singleton.1 hc ▸ List.mem_cons_self)
  refine ⟨y, @takes_numberBody_digits negative x [] _ _ d hfirst (fun _ => rfl)
    (Nat.lt_of_le_of_lt ?_ hfits) ?_ ?_⟩
  · rw [Nat.ofDigitChars_cons, Nat.ofDigitChars_cons]
    exact le_ofDigitChars ds _
  · split
    · exact not_digit_cons rfl _
    · exact not_digit_cons rfl _
  · split
    · rename_i hnil
      subst hnil
      exact takes_numberTail_exponent hy
    · rename_i hds
      refine takes_numberTail_point (takes_fractionPart
        (fun c hc => hdigits c (List.mem_cons_of_mem x hc)) hds hfits (not_digit_cons rfl _) ?_)
      exact .after_peek hy

theorem isDigit_replicate_zero {k : Nat} {x : Char} (h : x ∈ List.replicate k '0') :
    Text.isDigit x = true := by
  rw [List.eq_of_mem_replicate h]
  rfl

theorem ofDigitChars_replicate_zero (k n : Nat) :
    Nat.ofDigitChars 10 (List.replicate k '0') n = n * 10 ^ k := by
  induction k generalizing n with
  | zero => exact (Nat.mul_one n).symm
  | succ k ih =>
    rw [List.replicate_succ, Nat.ofDigitChars_cons, ih, Nat.pow_succ]
    show (10 * n + 0) * 10 ^ k = n * (10 ^ k * 10)
    ring

section Positional

variable {n : Nat} {x : Char} {xs : List Char} (hxs : Nat.toDigits 10 n = x :: xs) (hleading : x ≠ '0')
  (hdigits : ∀ c ∈ x :: xs, Text.isDigit c = true) (hvalue : Nat.ofDigitChars 10 (x :: xs) 0 = n)

include hxs hleading hdigits hvalue

/-- The point stands behind all digits, and zeros between. -/
theorem exists_takes_whole {zeros : Nat} (hlead : digitCount n + zeros ≤ 16) (negative : Bool) (d : Nat) :
    ∃ y, Takes Ends (numberBody negative) d (Style.json.positional ⟨n, .ofNat zeros⟩).toList (.float y) := by
  have htext : (Style.json.positional ⟨n, .ofNat zeros⟩).toList
      = x :: (xs ++ List.replicate zeros '0') ++ '.' :: ['0'] := by
    show (Nat.repr n ++ String.ofList (List.replicate zeros '0') ++ ".0").toList = _
    rw [String.toList_append, String.toList_append, Nat.toList_repr, hxs, String.toList_ofList]
    rfl
  have hfront : ∀ c ∈ x :: (xs ++ List.replicate zeros '0'), Text.isDigit c = true := by
    rw [← List.cons_append, List.forall_mem_append]
    exact ⟨hdigits, fun c hc => isDigit_replicate_zero hc⟩
  have hbehind : ∀ c ∈ ['0'], Text.isDigit c = true := List.forall_mem_singleton.2 rfl
  have hfits : Nat.ofDigitChars 10 (x :: (xs ++ List.replicate zeros '0') ++ ['0']) 0
      < 0x10000000000000000 := by
    rw [← List.cons_append, List.append_assoc, Nat.ofDigitChars_append, hvalue,
      ← List.replicate_succ', ofDigitChars_replicate_zero]
    calc n * 10 ^ (zeros + 1) ≤ 10 ^ digitCount n * 10 ^ (zeros + 1) :=
          Nat.mul_le_mul_right _ (Number.lt_ten_pow_digitCount n).le
      _ = 10 ^ (digitCount n + zeros + 1) := by rw [← Nat.pow_add, Nat.add_assoc]
      _ ≤ 10 ^ 17 := Nat.pow_le_pow_right (by decide) (by omega)
      _ < 0x10000000000000000 := by decide
  rw [htext]
  exact exists_takes_point hfront (fun h => absurd h hleading) hbehind (List.cons_ne_nil _ _) hfits negative d

variable (hfits : n < 0x10000000000000000) {e : Nat}

include hfits

/-- The point stands between the digits. -/
theorem exists_takes_inside (hplaces : e + 1 < (x :: xs).length) (negative : Bool) (d : Nat) :
    ∃ y, Takes Ends (numberBody negative) d (Style.json.positional ⟨n, .negSucc e⟩).toList (.float y) := by
  have htext : (Style.json.positional ⟨n, .negSucc e⟩).toList
      = (x :: xs).take ((x :: xs).length - (e + 1))
        ++ '.' :: (x :: xs).drop ((x :: xs).length - (e + 1)) := by
    unfold Style.positional
    dsimp only
    rw [Nat.toList_repr, hxs, if_pos hplaces]
    simp only [String.toList_append, String.toList_ofList, List.append_assoc]
    rfl
  -- At least one digit stands in front of the point, and it is the leading one.
  obtain ⟨k, hk⟩ : ∃ k, (x :: xs).length - (e + 1) = k + 1 :=
    ⟨_, (Nat.succ_pred_eq_of_pos (by omega)).symm⟩
  rw [htext, hk, List.take_succ_cons, List.drop_succ_cons]
  refine exists_takes_point (fun c hc => hdigits c ?_) (fun h => absurd h hleading)
    (fun c hc => hdigits c (List.mem_cons_of_mem x (List.mem_of_mem_drop hc))) ?_ ?_ negative d
  · rw [← List.take_succ_cons] at hc
    exact List.mem_of_mem_take hc
  · rw [List.length_cons] at hk
    rw [← List.length_pos_iff, List.length_drop]
    omega
  · rw [List.cons_append, List.take_append_drop, hvalue]
    exact hfits

omit hleading

/-- The point stands in front of all digits, and zeros between. -/
theorem exists_takes_below (hplaces : ¬ e + 1 < (x :: xs).length) (negative : Bool) (d : Nat) :
    ∃ y, Takes Ends (numberBody negative) d (Style.json.positional ⟨n, .negSucc e⟩).toList (.float y) := by
  have htext : (Style.json.positional ⟨n, .negSucc e⟩).toList
      = ['0'] ++ '.' :: (List.replicate (e + 1 - (x :: xs).length) '0' ++ x :: xs) := by
    unfold Style.positional
    dsimp only
    rw [Nat.toList_repr, hxs, if_neg hplaces]
    simp only [String.toList_append, String.toList_ofList, Nat.toList_repr, hxs, List.append_assoc]
    rfl
  have hbehind : ∀ c ∈ List.replicate (e + 1 - (x :: xs).length) '0' ++ x :: xs,
      Text.isDigit c = true :=
    List.forall_mem_append.2 ⟨fun c hc => isDigit_replicate_zero hc, hdigits⟩
  rw [htext]
  refine exists_takes_point (List.forall_mem_singleton.2 rfl) (fun _ => rfl) hbehind (by simp) ?_ negative d
  rw [Nat.ofDigitChars_append, Nat.ofDigitChars_append, ofDigitChars_replicate_zero]
  show Nat.ofDigitChars 10 (x :: xs) (0 * _) < _
  rw [Nat.zero_mul, hvalue]
  exact hfits

end Positional

/-- **A decimal without an exponent** is a number. -/
theorem exists_takes_positional {dec : Decimal} (hpos : 0 < dec.digits)
    (hfits : dec.digits < 0x10000000000000000)
    (hlead : dec.exponent + digitCount dec.digits - 1 ≤ 15) (negative : Bool) (d : Nat) :
    ∃ y, Takes Ends (numberBody negative) d (Style.json.positional dec).toList (.float y) := by
  obtain ⟨n, exponent⟩ := dec
  obtain ⟨x, xs, hxs, hzero⟩ := exists_toDigits_cons n
  have hleading : x ≠ '0' := fun h => Nat.ne_of_gt hpos (hzero h).1
  have hdigits : ∀ c ∈ x :: xs, Text.isDigit c = true := fun c hc => isDigit_of_mem_toDigits (hxs ▸ hc)
  have hvalue : Nat.ofDigitChars 10 (x :: xs) 0 = n := hxs ▸ Nat.ofDigitChars_ten_toDigits
  cases exponent with
  | ofNat zeros =>
    dsimp only [Int.ofNat_eq_natCast] at hlead
    exact exists_takes_whole hxs hleading hdigits hvalue (by omega) negative d
  | negSucc e =>
    by_cases hplaces : e + 1 < (x :: xs).length
    · exact exists_takes_inside hxs hleading hdigits hvalue hfits hplaces negative d
    · exact exists_takes_below hxs hdigits hvalue hfits hplaces negative d

/-- **A decimal with an exponent** is a number. -/
theorem exists_takes_exponent {dec : Decimal} (hpos : 0 < dec.digits)
    (hfits : dec.digits < 0x10000000000000000) (hexponent : dec.exponent ≤ 308)
    (hscale : ∃ y, scale 4 dec.digits.toUInt64.toFloat dec.exponent = some y) (negative : Bool) (d : Nat) :
    ∃ y, Takes Ends (numberBody negative) d
      (Style.json.scientific dec (dec.exponent + digitCount dec.digits - 1)).toList (.float y) := by
  obtain ⟨n, exponent⟩ := dec
  dsimp only at *
  obtain ⟨x, xs, hxs, -⟩ := exists_toDigits_cons n
  have hdigits : ∀ c ∈ x :: xs, Text.isDigit c = true := fun c hc => isDigit_of_mem_toDigits (hxs ▸ hc)
  have hvalue : Nat.ofDigitChars 10 (x :: xs) 0 = n := hxs ▸ Nat.ofDigitChars_ten_toDigits
  have hcount : digitCount n = xs.length + 1 := by
    rw [Number.digitCount_eq_length (Nat.ne_of_gt hpos), hxs, List.length_cons]
  have hfew : xs.length < 20 := by
    have hle : (Nat.toDigits 10 n).length ≤ 20 :=
      (Nat.length_toDigits_le_iff (by decide) (by decide)).2 (Nat.lt_trans hfits (by decide))
    rw [hxs] at hle
    exact hle
  obtain ⟨lead, hlead⟩ : ∃ lead : Int, exponent + digitCount n - 1 = lead := ⟨_, rfl⟩
  have hplaces : lead - xs.length = exponent := by omega
  have htext : (Style.json.scientific ⟨n, exponent⟩ lead).toList
      = x :: ((if xs = [] then [] else '.' :: xs)
        ++ 'e' :: (if lead < 0 then '-' else '+') :: Nat.toDigits 10 lead.natAbs) := by
    unfold Style.scientific
    dsimp only
    rw [Nat.toList_repr, hxs]
    simp only [String.toList_append, String.toList_ofList, Nat.toList_repr]
    cases xs <;> by_cases hneg : lead < 0 <;> simp [hneg, Style.json]
  rw [hlead, htext]
  exact exists_takes_scientific hdigits (hvalue ▸ hfits) (by omega)
    (fun _ => by rw [hvalue, hplaces]; exact hscale) negative d

/-! ## Doubles -/

/-- **The text of a positive double** is a number. -/
theorem exists_takes_magnitude {x : Float} {sign : Bool} {s : Spacing}
    (h : Parts.ofDouble x = .finite sign s) (negative : Bool) (d : Nat) :
    ∃ y, Takes Ends (numberBody negative) d (Style.json.magnitude s).toList (.float y) := by
  obtain ⟨hpos, hfits, -⟩ := Spacing.shortest_bounds (Number.Parts.ofDouble_finite h).1
  unfold Style.magnitude
  extract_lets dec lead
  split
  · rename_i hpositional
    have hlead : lead ≤ 15 := by
      have hboth := (Bool.and_eq_true _ _).mp hpositional
      exact of_decide_eq_true hboth.2
    exact exists_takes_positional hpos hfits hlead negative d
  · exact exists_takes_exponent hpos hfits (DataClient.Number.shortest_exponent_le h)
      (DataClient.Number.exists_scale_shortest h) negative d

theorem head_of_takes_numberBody {text : List Char} {v : Number}
    (h : Takes Ends (numberBody negative) d text v) :
    ∃ x xs, text = x :: xs ∧ Text.isDigit x = true := by
  obtain ⟨o, hread⟩ := h 0 [] .nil
  rw [List.append_nil] at hread
  obtain ⟨head, c, hhead, hbody⟩ := bind_eq_ok.1 hread
  have htext (x : Char) (hx : head = some x) : ∃ xs, text = x :: xs := by
    cases text with
    | nil =>
      cases hhead
      cases hx
    | cons y ys =>
      cases hhead
      cases hx
      exact ⟨ys, rfl⟩
  split at hbody
  · exact absurd hbody (refuses_failHere _ _ _ _)
  · obtain ⟨xs, rfl⟩ := htext '0' rfl
    exact ⟨'0', xs, rfl, rfl⟩
  · rename_i x _
    obtain ⟨xs, rfl⟩ := htext x rfl
    exact ⟨x, xs, rfl, of_ite_eq_ok (fun _ _ _ h => by cases h) hbody⟩

/-- **A finite double is read back as a double**, up to how it is rounded. -/
theorem exists_reads_double {x : Float} (hx : DataClient.Number.isFiniteDouble x = true) (n d : Nat) :
    ∃ y, Reads (documentFrom (n + 1)) d (.number (.float x)) (.number (.float y)) := by
  have hwritten : (Number.write (.float x)).toList = (Style.json.write (Parts.ofDouble x)).toList := by
    show (if DataClient.Number.isFiniteDouble x then _ else _ : String).toList = _
    rw [if_pos hx]
  suffices h : ∃ (negative : Bool) (text : List Char) (y : Float),
      (Style.json.write (Parts.ofDouble x)).toList = (if negative then ['-'] else []) ++ text ∧
      Takes Ends (numberBody negative) d text (.float y) by
    obtain ⟨negative, text, y, htext, htakes⟩ := h
    refine ⟨y, fun l level => ?_⟩
    rw [written, hwritten, htext]
    exact decodes_document_number htakes (head_of_takes_numberBody htakes)
  unfold DataClient.Number.isFiniteDouble at hx
  cases hparts : Parts.ofDouble x with
  | nan =>
    rw [hparts] at hx
    cases hx
  | infinite sign =>
    rw [hparts] at hx
    cases hx
  | zero sign =>
    have hzero : ∀ c ∈ ['0'], Text.isDigit c = true := by
      intro c hc
      rw [List.mem_singleton.1 hc]
      rfl
    obtain ⟨y, hy⟩ :=
      exists_takes_point hzero (fun _ => rfl) hzero (List.cons_ne_nil _ _) (by decide) sign d
    refine ⟨sign, _, y, ?_, hy⟩
    cases sign <;> rfl
  | finite sign s =>
    obtain ⟨y, hy⟩ := exists_takes_magnitude hparts sign d
    refine ⟨sign, _, y, ?_, hy⟩
    rw [Style.write, String.toList_append]
    cases sign <;> rfl

/-- **A double without a finite value is read back as null.** -/
theorem reads_infinite {x : Float} (hx : DataClient.Number.isFiniteDouble x = false) (n d : Nat) :
    Reads (documentFrom (n + 1)) d (.number (.float x)) .null := by
  intro l level
  have hwritten : written l level (.number (.float x)) = written l level .null := by
    show (if DataClient.Number.isFiniteDouble x then _ else _ : String).toList = _
    rw [if_neg (by rw [hx]; exact Bool.false_ne_true)]
    rfl
  rw [hwritten]
  exact reads_document_null l level

end DataClient.Json.Reader
