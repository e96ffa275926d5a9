import DataClient.Json.Writer
import DataClient.Proofs.Json.Objects

/-!
# Strings and integers read back

What the writer makes of a string or of an integer is read as that string and that integer, with any
spaces before it and in front of whatever may follow a value (`Decodes`). Strings are read back
character by character, through every escape, and integers digit by digit.
-/

set_option autoImplicit false

namespace DataClient.Json.Reader

variable {α β : Type}

/-! ## Sources of values -/

/-- A value may end here: the text does, or goes on with a delimiter. -/
def Ends (rest : List Char) : Prop := ∀ x, rest.head? = some x → isDelimiter x = true

theorem Delimited.ends {rest : List Char} (h : Delimited rest) : Ends rest := by
  obtain ⟨x, t, rfl, hx⟩ := h
  rintro y ⟨⟩
  exact hx

theorem Ends.nil : Ends [] := fun _ h => by cases h

theorem Ends.spaces {s : List Char} (hs : Spaces s) : Ends s := by
  intro x hx
  rw [isDelimiter, hs x (List.mem_of_mem_head? hx), Bool.true_or, Bool.true_or, Bool.true_or]

/-- `r` reads `a` from `source`, whatever spaces there are before it; `source` itself begins with no
space. -/
structure Decodes (r : Reader α) (d : Nat) (source : List Char) (a : α) : Prop where
  starts : ∃ x t, source = x :: t ∧ isDelimiter x = false
  takes : ∀ sp, Spaces sp → Takes Ends r d (sp ++ source) a

theorem isSpace_of_isDelimiter_eq_false {x : Char} (h : isDelimiter x = false) : isSpace x = false := by
  by_contra hx
  have hspace : isSpace x = true := by simpa using hx
  rw [isDelimiter, hspace, Bool.true_or, Bool.true_or, Bool.true_or] at h
  cases h

section Decodes

variable {d : Nat} {source t : List Char} {x : Char} {a : α}

theorem Decodes.look {cause : Cause} {f : Char → Reader α} (hx : isDelimiter x = false)
    (h : Takes Ends (f x) d (x :: t) a) : Decodes (skipSpacesTo cause >>= f) d (x :: t) a :=
  ⟨⟨x, t, rfl, hx⟩, fun _ hsp => Takes.spaced hsp (isSpace_of_isDelimiter_eq_false hx) h⟩

theorem Decodes.located {r : Reader α} (h : Decodes r d source a) :
    Decodes (Reader.located r) d source a :=
  ⟨h.starts, fun sp hsp => (h.takes sp hsp).located⟩

theorem Decodes.then_pure {r : Reader α} {g : α → β} (h : Decodes r d source a) :
    Decodes (r >>= fun a => Pure.pure (g a)) d source (g a) :=
  ⟨h.starts, fun sp hsp => (h.takes sp hsp).then_pure⟩

end Decodes

theorem takes_skip (x : Char) (d : Nat) : Takes (fun _ => True) skip d [x] () :=
  fun _ _ _ => ⟨_, rfl⟩

/-- What follows the character that has been looked at. -/
theorem Takes.after_skip {F : List Char → Prop} {f : Unit → Reader α} {d : Nat} {x : Char}
    {t : List Char} {a : α} (h : Takes F (f ()) d t a) : Takes F (skip >>= f) d (x :: t) a :=
  (takes_skip x d).bind h fun _ _ => trivial

theorem Takes.if_pos {F : List Char → Prop} {c : Prop} [Decidable c] {x y : Reader α} {d : Nat}
    {s : List Char} {a : α} (hc : c) (h : Takes F x d s a) : Takes F (if c then x else y) d s a := by
  rw [ite_cond_eq_true _ _ (eq_true hc)]
  exact h

/-! ## Strings -/

section Strings

theorem hexValue?_hexDigit : ∀ n < 16, Text.hexValue? (Text.hexDigit n) = some n := by decide

theorem stringFrom_writeChar (d : Nat) (x : Char) (read : List Char) (o : Nat) (cs : List Char) :
    ∃ o', stringFrom true d .plain read o (writeChar x ++ cs)
      = stringFrom true d .plain (x :: read) o' cs := by
  unfold writeChar
  split
  · exact ⟨o + 1 + 1, by simp [stringFrom, shortEscape?]⟩
  · exact ⟨o + 1 + 1, by simp [stringFrom, shortEscape?]⟩
  · exact ⟨o + 1 + 1, by simp [stringFrom, shortEscape?]⟩
  · exact ⟨o + 1 + 1, by simp [stringFrom, shortEscape?]⟩
  · exact ⟨o + 1 + 1, by simp [stringFrom, shortEscape?]⟩
  · exact ⟨o + 1 + 1, by simp [stringFrom, shortEscape?]⟩
  · exact ⟨o + 1 + 1, by simp [stringFrom, shortEscape?]⟩
  · rename_i hquote hslash _ _ _ _ _
    split
    · rename_i hcontrol
      have hhigh := hexValue?_hexDigit (x.toNat / 16) (by omega)
      have hlow := hexValue?_hexDigit (x.toNat % 16) (by omega)
      have hzero : Text.hexValue? '0' = some 0 := by decide
      have hvalue : x.toNat / 16 * 16 + x.toNat % 16 = x.toNat := by omega
      have hsurrogate : ¬ (0xDC00 ≤ x.toNat ∧ x.toNat ≤ 0xDFFF) ∧ ¬ (0xD800 ≤ x.toNat ∧ x.toNat ≤ 0xDBFF) := by
        omega
      exact ⟨o + 1 + 1 + 1 + 1 + 1 + 1, by
        simp [stringFrom, hhigh, hlow, hzero, hvalue, finishEscape, hsurrogate, Char.ofNat_toNat]⟩
    · rename_i hcontrol
      exact ⟨o + x.utf8Size, by
        simp [stringFrom, hcontrol, show x ≠ '"' from hquote, show x ≠ '\\' from hslash]⟩

/-- **A written string is read back.** -/
theorem takes_stringBody (s : String) (d : Nat) :
    Takes (fun _ => True) stringBody d (s.toList.flatMap writeChar ++ ['"']) s := by
  have hall (cs read : List Char) (o : Nat) (rest : List Char) :
      ∃ o', stringFrom true d .plain read o (cs.flatMap writeChar ++ '"' :: rest)
        = .ok (read.reverse ++ cs) ⟨o', rest, d⟩ := by
    induction cs generalizing read o with
    | nil => exact ⟨o + 1, by simp [stringFrom]⟩
    | cons x cs ih =>
      obtain ⟨o₁, h₁⟩ := stringFrom_writeChar d x read o (cs.flatMap writeChar ++ '"' :: rest)
      obtain ⟨o₂, h₂⟩ := ih (x :: read) o₁
      refine ⟨o₂, ?_⟩
      rw [List.flatMap_cons, List.append_assoc, h₁, h₂, List.reverse_cons, List.append_assoc]
      rfl
  intro o rest _
  obtain ⟨o', h'⟩ := hall s.toList [] o rest
  refine ⟨o', ?_⟩
  unfold stringBody
  dsimp only
  rw [List.append_assoc, List.singleton_append, h', List.reverse_nil, List.nil_append]
  exact congrArg (EStateM.Result.ok · _) String.ofList_toList

theorem toList_writeString (s : String) :
    (writeString s).toList = '"' :: (s.toList.flatMap writeChar ++ ['"']) := by
  rw [writeString, String.toList_ofList]
  rfl

theorem decodes_stringAs (expected s : String) (d : Nat) :
    Decodes (stringAs expected) d (writeString s).toList s := by
  rw [toList_writeString]
  exact Decodes.located (.look rfl
    (Takes.after_skip (f := fun _ => stringBody) ((takes_stringBody s d).mono fun _ _ => trivial)))

theorem decodes_string (s : String) (d : Nat) : Decodes string d (writeString s).toList s :=
  decodes_stringAs _ s d

end Strings

/-! ## Integers -/

section Integers

theorem isDigit_of_mem_toDigits {n : Nat} {x : Char} (h : x ∈ Nat.toDigits 10 n) :
    Text.isDigit x = true := by
  have hx := Nat.isDigit_of_mem_toDigits (by decide) (by decide) h
  simpa [Char.isDigit, Text.isDigit, Char.le_def] using hx

theorem isDelimiter_of_isDigit {x : Char} (h : Text.isDigit x = true) : isDelimiter x = false := by
  by_contra hx
  rw [isDigit_of_isDelimiter x (by simpa using hx)] at h
  cases h

theorem exists_toDigits_cons (n : Nat) :
    ∃ x xs, Nat.toDigits 10 n = x :: xs ∧ (x = '0' → n = 0 ∧ xs = []) := by
  induction n using Nat.strongRecOn with
  | ind n ih =>
    by_cases hn : n < 10
    · refine ⟨n.digitChar, [], Nat.toDigits_of_lt_base hn, fun hzero => ⟨?_, rfl⟩⟩
      have hall : ∀ n < 10, n.digitChar = '0' → n = 0 := by decide
      exact hall n hn hzero
    · obtain ⟨x, xs, hxs, hzero⟩ := ih (n / 10) (by omega)
      refine ⟨x, xs ++ [(n % 10).digitChar], ?_, fun h => ?_⟩
      · rw [Nat.toDigits_of_base_le (by decide) (by omega), hxs]
        rfl
      · have := (hzero h).1
        omega

theorem ofDigitChars_cons_digitValue (x : Char) (ds : List Char) (n : Nat) :
    Nat.ofDigitChars 10 (x :: ds) n = Nat.ofDigitChars 10 ds (n * 10 + Text.digitValue x) := by
  rw [Nat.ofDigitChars_cons, Nat.mul_comm]
  rfl

theorem le_ofDigitChars (ds : List Char) (n : Nat) : n ≤ Nat.ofDigitChars 10 ds n := by
  induction ds generalizing n with
  | nil => exact Nat.le_refl n
  | cons x ds ih =>
    rw [Nat.ofDigitChars_cons]
    exact Nat.le_trans (by omega) (ih _)

/-- Digits that stay within 64 bits are all taken into the significand. -/
theorem accumulate_eq {ds : List Char} {n : Nat} (h : Nat.ofDigitChars 10 ds n < 0x10000000000000000) :
    accumulate n ds = (Nat.ofDigitChars 10 ds n, []) := by
  induction ds generalizing n with
  | nil => rfl
  | cons x ds ih =>
    rw [ofDigitChars_cons_digitValue] at h ⊢
    have hfits : overflows n (Text.digitValue x) = false := by
      have := le_ofDigitChars ds (n * 10 + Text.digitValue x)
      rw [overflows, decide_eq_false_iff_not]
      omega
    rw [accumulate, hfits, if_neg Bool.false_ne_true]
    exact ih h

theorem takes_digits {ds : List Char} (h : ∀ x ∈ ds, Text.isDigit x = true) (d : Nat) :
    Takes (fun rest => ∀ x, rest.head? = some x → Text.isDigit x = false) digits d ds ds := by
  intro o rest hrest
  obtain ⟨htake, hdrop⟩ := takeWhile_append_of_head? h hrest
  refine ⟨o + ds.length, ?_⟩
  unfold digits
  dsimp only
  rw [htake, hdrop]

theorem Ends.not_digit {rest : List Char} (h : Ends rest) :
    ∀ x, rest.head? = some x → Text.isDigit x = false :=
  fun x hx => isDigit_of_isDelimiter x (h x hx)

/-- What is done at the end of a value does not depend on what ends it. -/
theorem takes_of_ends {r : Reader α} {d : Nat} {a : α} (hnil : ∀ o, r ⟨o, [], d⟩ = .ok a ⟨o, [], d⟩)
    (h : ∀ o t x, isDelimiter x = true → r ⟨o, x :: t, d⟩ = .ok a ⟨o, x :: t, d⟩) :
    Takes Ends r d [] a := by
  intro o rest hrest
  refine ⟨o, ?_⟩
  cases rest with
  | nil => exact hnil o
  | cons x t => exact h o t x (hrest x rfl)

/-- What a number is without fraction and exponent. -/
def integer (negative : Bool) (n : Nat) : Number :=
  if negative then .negative (Int64.ofInt (-n)) else .natural n.toUInt64

/-- The integers that need no double. -/
def FitsInteger (negative : Bool) (n : Nat) : Prop :=
  if negative then 0 < n ∧ n ≤ 0x8000000000000000 else n < 0x10000000000000000

/-- What follows digits that fit a word is nothing: the number is all there. -/
theorem takes_numberTail_nil {negative : Bool} {n : Nat} {v : Number}
    (h : (if !negative then (pure (.natural n.toUInt64) : Reader Number)
      else if 0 < n ∧ n ≤ 0x8000000000000000 then pure (.negative (Int64.ofInt (-n)))
      else pure (.float (-n.toUInt64.toFloat))) = pure v) (d : Nat) :
    Takes Ends (numberTail negative n) d [] v := by
  have hnumber (c : Cursor) (hc : numberTail negative n c = (if !negative then
      (pure (.natural n.toUInt64) : Reader Number)
      else if 0 < n ∧ n ≤ 0x8000000000000000 then pure (.negative (Int64.ofInt (-n)))
      else pure (.float (-n.toUInt64.toFloat))) c) : numberTail negative n c = .ok v c := by
    rw [hc, h]
    rfl
  exact takes_of_ends (fun o => hnumber _ rfl) fun o t =>
    forall_delimiter.2 ⟨hnumber _ rfl, hnumber _ rfl, hnumber _ rfl, hnumber _ rfl, hnumber _ rfl,
      hnumber _ rfl, hnumber _ rfl⟩

theorem takes_numberTail {negative : Bool} {n : Nat} (h : FitsInteger negative n) (d : Nat) :
    Takes Ends (numberTail negative n) d [] (integer negative n) := by
  apply takes_numberTail_nil
  cases negative with
  | false => rfl
  | true => exact if_pos h

theorem takes_numberBody_digits {negative : Bool} {x : Char} {xs tail : List Char} {v : Number} {d : Nat}
    (hdigits : ∀ y ∈ x :: xs, Text.isDigit y = true) (hzero : x = '0' → xs = [])
    (hfits : Nat.ofDigitChars 10 (x :: xs) 0 < 0x10000000000000000)
    (hstop : ∀ rest, Ends rest → ∀ y, (tail ++ rest).head? = some y → Text.isDigit y = false)
    (h : Takes Ends (numberTail negative (Nat.ofDigitChars 10 (x :: xs) 0)) d tail v) :
    Takes Ends (numberBody negative) d (x :: (xs ++ tail)) v := by
  have hnext : Takes (fun _ => True) next d [x] (some x) := fun o rest _ => ⟨_, rfl⟩
  refine hnext.bind ?_ fun _ _ => trivial
  split
  · rename_i h'
    cases h'
  · rename_i h'
    cases h'
    obtain rfl := hzero rfl
    intro o rest hrest
    obtain ⟨o', h'⟩ := h o rest hrest
    have hhead := hstop rest hrest
    refine ⟨o', bind_eq_ok.2 ⟨(tail ++ rest).head?, ⟨o, tail ++ rest, d⟩, rfl, ?_⟩⟩
    cases htail : tail ++ rest with
    | nil =>
      rw [htail] at h'
      exact h'
    | cons y t =>
      rw [htail] at h' hhead
      have hy : Text.isDigit y = false := hhead y rfl
      simp only [List.head?_cons, hy, Bool.false_eq_true, if_false]
      exact h'
  · rename_i h'
    cases h'
    have hvalue : Nat.ofDigitChars 10 xs (Text.digitValue x) = Nat.ofDigitChars 10 (x :: xs) 0 := by
      rw [ofDigitChars_cons_digitValue, Nat.zero_mul, Nat.zero_add]
    refine .if_pos (hdigits x List.mem_cons_self) ?_
    refine (takes_digits (fun y hy => hdigits y (List.mem_cons_of_mem x hy)) d).bind ?_ hstop
    rw [accumulate_eq (hvalue ▸ hfits), hvalue]
    exact h

/-- **A written integer is read back behind its sign.** -/
theorem takes_numberBody {negative : Bool} {n : Nat} (h : FitsInteger negative n) (d : Nat) :
    Takes Ends (numberBody negative) d (Nat.toDigits 10 n) (integer negative n) := by
  have hn : n < 0x10000000000000000 := by
    cases negative with
    | false => exact h
    | true => exact Nat.lt_of_le_of_lt h.2 (by decide)
  obtain ⟨x, xs, hxs, hzero⟩ := exists_toDigits_cons n
  have hvalue : Nat.ofDigitChars 10 (x :: xs) 0 = n := hxs ▸ Nat.ofDigitChars_ten_toDigits
  have htake : Takes Ends (numberBody negative) d (x :: (xs ++ [])) (integer negative n) :=
    takes_numberBody_digits (fun y hy => isDigit_of_mem_toDigits (hxs ▸ hy)) (fun h => (hzero h).2)
      (hvalue ▸ hn) (fun rest hrest => hrest.not_digit) (by rw [hvalue]; exact takes_numberTail h d)
  rwa [List.append_nil, ← hxs] at htake

/-- **A written integer is read back**, and handed to what checks it. -/
theorem decodes_number {negative : Bool} {n : Nat} (h : FitsInteger negative n) {expected : String}
    {accept : Number → Except Cause α} {a : α} (ha : accept (integer negative n) = .ok a) (d : Nat) :
    Decodes (number expected accept) d ((if negative then ['-'] else []) ++ Nat.toDigits 10 n) a := by
  unfold number
  extract_lets checked
  have hchecked : Takes Ends (numberBody negative >>= checked) d (Nat.toDigits 10 n) a := by
    rw [← List.append_nil (Nat.toDigits 10 n)]
    refine (takes_numberBody h d).bind ?_ fun rest h => h
    unfold checked
    rw [ha]
    exact .pure _ _ _
  refine Decodes.located ?_
  cases negative with
  | true => exact .look rfl (.after_skip hchecked)
  | false =>
    obtain ⟨x, xs, hxs, -⟩ := exists_toDigits_cons n
    have hx : Text.isDigit x = true := isDigit_of_mem_toDigits (hxs ▸ List.mem_cons_self)
    rw [hxs] at hchecked ⊢
    refine .look (isDelimiter_of_isDigit hx) ?_
    split
    · cases hx
    · exact .if_pos hx hchecked

theorem toInt_ofInt_neg {n : Nat} (h : n ≤ 0x8000000000000000) :
    (Int64.ofInt (-n)).toInt = -n :=
  Int64.toInt_ofInt_of_le (by omega) (by omega)

theorem toList_write_integer {negative : Bool} {n : Nat} (h : FitsInteger negative n) :
    (integer negative n).write.toList = (if negative then ['-'] else []) ++ Nat.toDigits 10 n := by
  cases negative with
  | false =>
    have hn : n.toUInt64.toNat = n := UInt64.toNat_ofNat_of_lt' h
    show (Nat.repr n.toUInt64.toNat).toList = Nat.toDigits 10 n
    rw [hn, Nat.toList_repr]
  | true =>
    obtain ⟨m, rfl⟩ := Nat.exists_eq_succ_of_ne_zero (Nat.pos_iff_ne_zero.1 h.1)
    show (toString (Int64.ofInt (-(m.succ : Nat))).toInt).toList = '-' :: Nat.toDigits 10 m.succ
    rw [toInt_ofInt_neg h.2]
    show ("-" ++ Nat.repr m.succ).toList = _
    rw [String.toList_append, Nat.toList_repr]
    rfl

theorem ofInt64_eq (n : Int64) :
    FitsInteger (n < 0) n.toInt.natAbs ∧ ofInt64 n = .number (integer (n < 0) n.toInt.natAbs) := by
  have hle := n.le_toInt
  have hlt := n.toInt_lt
  have hsign : n < 0 ↔ n.toInt < 0 := Int64.lt_iff_toInt_lt
  by_cases hn : n < 0
  · have hneg := hsign.1 hn
    have habs : -(n.toInt.natAbs : Int) = n.toInt := by omega
    constructor
    · simp only [FitsInteger, hn, decide_true, if_true]
      omega
    · simp only [ofInt64, integer, hn, decide_true, if_true, habs, Int64.ofInt_toInt]
  · have hpos : 0 ≤ n.toInt := Int.not_lt.1 fun h => hn (hsign.2 h)
    have habs : n.toInt.toNat = n.toInt.natAbs := by omega
    constructor
    · simp only [FitsInteger, hn, decide_false, Bool.false_eq_true, if_false]
      omega
    · simp only [ofInt64, integer, hn, decide_false, Bool.false_eq_true, if_false, habs]

/-- **A written signed integer is read back.** -/
theorem decodes_int64 (n : Int64) (d : Nat) : Decodes int64 d (ofInt64 n).compact.toList n := by
  obtain ⟨hfits, hwrite⟩ := ofInt64_eq n
  have hle := n.le_toInt
  have hlt := n.toInt_lt
  have hsign : n < 0 ↔ n.toInt < 0 := Int64.lt_iff_toInt_lt
  rw [hwrite, show compact (.number (integer (n < 0) n.toInt.natAbs))
    = (integer (n < 0) n.toInt.natAbs).write from rfl, toList_write_integer hfits]
  refine decodes_number hfits ?_ d
  by_cases hn : n < 0
  · have hneg := hsign.1 hn
    have habs : -(n.toInt.natAbs : Int) = n.toInt := by omega
    simp only [integer, hn, decide_true, if_true, habs, Int64.ofInt_toInt]
  · have hpos : 0 ≤ n.toInt := Int.not_lt.1 fun h => hn (hsign.2 h)
    have habs : (n.toInt.natAbs : Int) = n.toInt := by omega
    have hsmall : n.toInt.natAbs < 0x8000000000000000 := by omega
    have hnat : n.toInt.natAbs.toUInt64.toNat = n.toInt.natAbs := 
      UInt64.toNat_ofNat_of_lt' (Nat.lt_trans hsmall (by decide))
    have hback : Int64.ofNat n.toInt.natAbs = n := by
      rw [← Int64.ofInt_eq_ofNat, habs, Int64.ofInt_toInt]
    simp only [integer, hn, decide_false, Bool.false_eq_true, if_false, hnat, hsmall, if_true, hback]

end Integers

end DataClient.Json.Reader
