import DataClient.Time.Calendar
import Mathlib.Tactic.IntervalCases

/-!
# Texts of timestamps

A written timestamp determines the milliseconds (`writeMillis_injective`). The date of a day determines
the day (`Date.days_ofDays`), the text of a date or of a clock time determines its fields, and an
instant without a written date ends in a digit where all others end in their zone.
-/

set_option autoImplicit false

namespace DataClient.Time

/-! ## Days and dates -/

/-- No year of an era begins behind the days that it is made from, and none is longer than a leap
year. -/
theorem yearOfEra_bounds {dayOfEra cycle century last yearOfEra : Nat} (hday : dayOfEra < 146097)
    (hcycle : dayOfEra / 1460 = cycle) (hcentury : dayOfEra / 36524 = century)
    (hlast : dayOfEra / 146096 = last) (hyear : (dayOfEra - cycle + century - last) / 365 = yearOfEra) :
    yearOfEra < 400 ∧ 365 * yearOfEra + yearOfEra / 4 - yearOfEra / 100 ≤ dayOfEra ∧
      dayOfEra - (365 * yearOfEra + yearOfEra / 4 - yearOfEra / 100) < 366 := by
  -- The estimate of the year corrects the leap days by cycles of four years and by centuries, of
  -- which the last day of an era would make a fifth.
  have hleap : yearOfEra / 4 ≤ cycle ∧ cycle ≤ yearOfEra / 4 + 1 := by omega
  have hcommon : yearOfEra / 100 = century - last := by
    have hlast' : last = century / 4 := by omega
    have hfive : century < 5 := by omega
    subst hlast'
    interval_cases century <;> omega
  exact ⟨by omega, by omega, by omega⟩

theorem marchMonth_bounds {dayOfYear marchMonth : Nat} (hday : dayOfYear < 366)
    (hmonth : (5 * dayOfYear + 2) / 153 = marchMonth) :
    marchMonth < 12 ∧ (153 * marchMonth + 2) / 5 ≤ dayOfYear ∧
      dayOfYear - (153 * marchMonth + 2) / 5 < 31 := by
  have hlt : marchMonth < 12 := by omega
  exact ⟨hlt, by omega, by omega⟩

/-- A day taken apart into era, year, month from March on and day of the month. -/
theorem Date.exists_ofDays (days : Int) : ∃ (era : Int) (yearOfEra marchMonth day : Nat),
    yearOfEra < 400 ∧ marchMonth < 12 ∧ day < 31 ∧
    days + 719468 = era * 146097
      + (365 * yearOfEra + yearOfEra / 4 - yearOfEra / 100 + ((153 * marchMonth + 2) / 5 + day) : Nat) ∧
    Date.ofDays days = ⟨yearOfEra + era * 400 + (if marchMonth < 10 then 0 else 1),
      if marchMonth < 10 then marchMonth + 3 else marchMonth - 9, day + 1⟩ := by
  unfold Date.ofDays
  extract_lets z era dayOfEra yearOfEra dayOfYear marchMonth day month year
  have hdayOfEra : (dayOfEra : Int) = z - era * 146097 ∧ dayOfEra < 146097 := by
    have hera : era = z / 146097 := Int.fdiv_eq_ediv_of_nonneg z (by decide)
    unfold dayOfEra
    omega
  obtain ⟨hyear, hstart, hdayOfYear⟩ := yearOfEra_bounds hdayOfEra.2 rfl rfl rfl
    (show _ = yearOfEra from rfl)
  obtain ⟨hmonth, hfirst, hday⟩ := marchMonth_bounds hdayOfYear (show _ = marchMonth from rfl)
  refine ⟨era, yearOfEra, marchMonth, dayOfYear - (153 * marchMonth + 2) / 5, hyear, hmonth, hday,
    by omega, ?_⟩
  -- January and February belong to the year before when years begin in March.
  have hwrap : (if month ≤ 2 then 1 else 0 : Int) = if marchMonth < 10 then 0 else 1 := by
    unfold month
    split <;> split <;> omega
  unfold year
  rw [hwrap]

/-- The days from the first of January 1970 to a date. -/
def Date.days (d : Date) : Int :=
  let year := d.year - (if d.month ≤ 2 then 1 else 0)
  let era := year.fdiv 400
  let yearOfEra := (year - era * 400).toNat
  let marchMonth := (d.month + 9) % 12
  era * 146097
    + (365 * yearOfEra + yearOfEra / 4 - yearOfEra / 100 + ((153 * marchMonth + 2) / 5 + (d.day - 1)) : Nat)
    - 719468

/-- **The date of a day determines the day.** -/
theorem Date.days_ofDays (days : Int) : (Date.ofDays days).days = days := by
  obtain ⟨era, yearOfEra, marchMonth, day, hyear, hmonth, -, hdays, hdate⟩ := Date.exists_ofDays days
  have hmarch : ((if marchMonth < 10 then marchMonth + 3 else marchMonth - 9) + 9) % 12 = marchMonth := by
    split <;> omega
  have hwrap : (if (if marchMonth < 10 then marchMonth + 3 else marchMonth - 9) ≤ 2 then 1 else 0 : Int)
      = if marchMonth < 10 then 0 else 1 := by
    split <;> split <;> omega
  have hera : ((yearOfEra : Int) + era * 400).fdiv 400 = era := by
    rw [Int.fdiv_eq_ediv_of_nonneg _ (by decide)]
    omega
  rw [hdate]
  unfold Date.days
  simp only [hmarch, hwrap, Int.add_sub_cancel, hera, Nat.add_sub_cancel]
  omega

theorem Date.ofDays_injective {a b : Int} (h : Date.ofDays a = Date.ofDays b) : a = b := by
  rw [← Date.days_ofDays a, h, Date.days_ofDays]

theorem Date.ofDays_lt (days : Int) : (Date.ofDays days).month < 100 ∧ (Date.ofDays days).day < 100 := by
  obtain ⟨era, yearOfEra, marchMonth, day, -, hmonth, hday, -, hdate⟩ := Date.exists_ofDays days
  rw [hdate]
  dsimp only
  constructor
  · split <;> omega
  · omega

/-! ## Texts of fields -/

/-- Texts that end in parts of one length agree in both halves. -/
theorem append_inj_of_length {a b s t : String} (h : a ++ s = b ++ t) (hlength : s.length = t.length) :
    a = b ∧ s = t := by
  have hlists : a.toList ++ s.toList = b.toList ++ t.toList := by
    rw [← String.toList_append, h, String.toList_append]
  obtain ⟨hl, hr⟩ := List.append_inj' hlists (by rwa [String.length_toList, String.length_toList])
  exact ⟨String.toList_inj.1 hl, String.toList_inj.1 hr⟩

theorem ofDigitChars_padZeros (width n : Nat) :
    Nat.ofDigitChars 10 (Text.padZeros width (Nat.repr n)).toList 0 = n := by
  have hzeros (k : Nat) (ds : List Char) :
      Nat.ofDigitChars 10 (List.replicate k '0' ++ ds) 0 = Nat.ofDigitChars 10 ds 0 := by
    induction k with
    | zero => rfl
    | succ k ih => exact ih
  rw [Text.padZeros, String.toList_append, String.toList_ofList, hzeros, Nat.toList_repr,
    Nat.ofDigitChars_ten_toDigits]

theorem padZeros_injective {width m n : Nat}
    (h : Text.padZeros width (Nat.repr m) = Text.padZeros width (Nat.repr n)) : m = n := by
  rw [← ofDigitChars_padZeros width m, h, ofDigitChars_padZeros]

theorem length_padZeros {width n : Nat} (hwidth : 0 < width) (hn : n < 10 ^ width) :
    (Text.padZeros width (Nat.repr n)).length = width := by
  have hle : (Nat.repr n).length ≤ width := by
    rw [← String.length_toList, Nat.toList_repr]
    exact (Nat.length_toDigits_le_iff (by decide) hwidth).2 hn
  rw [Text.padZeros, String.length_append, String.length_ofList, List.length_replicate]
  omega

theorem length_twoDigits {n : Nat} (h : n < 100) : (twoDigits n).length = 2 :=
  length_padZeros (by decide) h

theorem head_padZeros (width n : Nat) :
    ∃ x xs, (Text.padZeros width (Nat.repr n)).toList = x :: xs ∧ x.isDigit = true := by
  rw [Text.padZeros, String.toList_append, String.toList_ofList, Nat.toList_repr]
  cases width - (Nat.repr n).length with
  | zero =>
    obtain ⟨x, xs, hxs⟩ := List.exists_cons_of_ne_nil (Nat.toDigits_ne_nil (b := 10) (n := n))
    rw [hxs]
    exact ⟨x, xs, rfl, Nat.isDigit_of_mem_toDigits (by decide) (by decide) (hxs ▸ List.mem_cons_self)⟩
  | succ k => exact ⟨'0', _, rfl, rfl⟩

/-- The number that digits with a sign or without one stand for. -/
def signedValue : List Char → Int
  | '-' :: ds => -(Nat.ofDigitChars 10 ds 0 : Nat)
  | '+' :: ds => Nat.ofDigitChars 10 ds 0
  | ds => Nat.ofDigitChars 10 ds 0

theorem signedValue_of_isDigit {x : Char} (hx : x.isDigit = true) (xs : List Char) :
    signedValue (x :: xs) = (Nat.ofDigitChars 10 (x :: xs) 0 : Nat) := by
  unfold signedValue
  split
  · rename_i heq
    cases heq
    cases hx
  · rename_i heq
    cases heq
    cases hx
  · rfl

theorem signedValue_padZeros (width n : Nat) :
    signedValue (Text.padZeros width (Nat.repr n)).toList = n := by
  obtain ⟨x, xs, hxs, hx⟩ := head_padZeros width n
  rw [hxs, signedValue_of_isDigit hx, ← hxs, ofDigitChars_padZeros]

theorem signedValue_minus (width n : Nat) :
    signedValue ("-" ++ Text.padZeros width (Nat.repr n)).toList = -n := by
  rw [String.toList_append]
  show -((Nat.ofDigitChars 10 (Text.padZeros width (Nat.repr n)).toList 0 : Nat) : Int) = -n
  rw [ofDigitChars_padZeros]

theorem signedValue_plus (width n : Nat) :
    signedValue ("+" ++ Text.padZeros width (Nat.repr n)).toList = n := by
  rw [String.toList_append]
  show ((Nat.ofDigitChars 10 (Text.padZeros width (Nat.repr n)).toList 0 : Nat) : Int) = n
  rw [ofDigitChars_padZeros]

theorem signedValue_writeYear (year : Int) : signedValue (writeYear year).toList = year := by
  unfold writeYear
  split
  · rw [signedValue_padZeros]
    omega
  · split
    · rw [signedValue_minus]
      omega
    · rw [signedValue_plus]
      omega

theorem padZeros_zero (s : String) : Text.padZeros 0 s = s := by
  rw [Text.padZeros, Nat.zero_sub]
  exact String.empty_append

theorem signedValue_toString (n : Int) : signedValue (toString n).toList = n := by
  cases n with
  | ofNat n =>
    have h := signedValue_padZeros 0 n
    rwa [padZeros_zero] at h
  | negSucc n =>
    have h := signedValue_minus 0 (n + 1)
    rwa [padZeros_zero] at h

theorem writeYear_injective {a b : Int} (h : writeYear a = writeYear b) : a = b := by
  rw [← signedValue_writeYear a, h, signedValue_writeYear]

/-- A text followed by a separator and two digits determines both. -/
theorem twoDigits_inj {a b separator : String} {m n : Nat} (hm : m < 100) (hn : n < 100)
    (h : a ++ separator ++ twoDigits m = b ++ separator ++ twoDigits n) : a = b ∧ m = n := by
  obtain ⟨hfront, hdigits⟩ := append_inj_of_length h (by rw [length_twoDigits hm, length_twoDigits hn])
  exact ⟨(append_inj_of_length hfront rfl).1, padZeros_injective hdigits⟩

theorem Date.write_injective {a b : Int} (h : (Date.ofDays a).write = (Date.ofDays b).write) : a = b := by
  obtain ⟨hmonth, hday⟩ := Date.ofDays_lt a
  obtain ⟨hmonth', hday'⟩ := Date.ofDays_lt b
  obtain ⟨hfront, hdays⟩ := twoDigits_inj hday hday' h
  obtain ⟨hyear, hmonths⟩ := twoDigits_inj hmonth hmonth' hfront
  refine Date.ofDays_injective ?_
  generalize Date.ofDays a = d at *
  generalize Date.ofDays b = e at *
  cases d
  cases e
  cases writeYear_injective hyear
  cases hdays
  cases hmonths
  rfl

theorem length_writeClock {second : Nat} (h : second < 86400) : (writeClock second).length = 8 := by
  unfold writeClock
  simp only [String.length_append]
  rw [length_twoDigits (by omega), length_twoDigits (by omega), length_twoDigits (by omega)]
  rfl

theorem writeClock_injective {a b : Nat} (ha : a < 86400) (hb : b < 86400)
    (h : writeClock a = writeClock b) : a = b := by
  obtain ⟨hfront, hseconds⟩ := twoDigits_inj (by omega) (by omega) h
  obtain ⟨hhours, hminutes⟩ := twoDigits_inj (by omega) (by omega) hfront
  have hhours' : a / 3600 = b / 3600 := padZeros_injective hhours
  omega

/-! ## Timestamps -/

/-- An instant in milliseconds, taken apart into days, seconds and milliseconds. -/
theorem ofUnits_millis (ms : Int) :
    ∃ (days : Int) (second milli : Nat), second < 86400 ∧ milli < 1000 ∧
      ms = (days * 86400 + second) * 1000 + milli ∧
      (Instant.ofUnits 1000 ms).seconds.fdiv 86400 = days ∧
      (Instant.ofUnits 1000 ms).secondOfDay = second ∧
      (Instant.ofUnits 1000 ms).nanos / 1000000 = milli := by
  have hseconds : ms.fdiv (1000 : Nat) = ms / 1000 := Int.fdiv_eq_ediv_of_nonneg ms (by decide)
  refine ⟨ms / 1000 / 86400, (ms / 1000 % 86400).toNat, (ms % 1000).toNat, by omega, by omega, by omega,
    ?_, ?_, ?_⟩
  · show (ms.fdiv (1000 : Nat)).fdiv 86400 = _
    rw [hseconds, Int.fdiv_eq_ediv_of_nonneg _ (by decide)]
  · show ((ms.fdiv (1000 : Nat)).fmod 86400).toNat = _
    rw [hseconds, Int.fmod_eq_emod_of_nonneg _ (by decide)]
  · show (ms - ms.fdiv (1000 : Nat) * (1000 : Nat)).toNat * 1000000 / 1000000 = _
    rw [hseconds, Nat.mul_div_cancel _ (by decide)]
    congr 1
    omega

theorem writeMillis_of_date {ms : Int64} {date : Date}
    (h : (Instant.ofUnits 1000 ms.toInt).date? = some date) :
    ∃ (days : Int) (second milli : Nat), second < 86400 ∧ milli < 1000 ∧
      ms.toInt = (days * 86400 + second) * 1000 + milli ∧
      writeMillis ms = (Date.ofDays days).write ++ "T" ++ writeClock second ++ "."
        ++ Text.padZeros 3 (Nat.repr milli) ++ "Z" := by
  obtain ⟨days, second, milli, hsecond, hmilli, hms, hdays, hclock, hnanos⟩ := ofUnits_millis ms.toInt
  have hdate : date = Date.ofDays days := by
    rw [Instant.date?, hdays, Date.ofDays?] at h
    split at h
    · exact (Option.some.inj h).symm
    · cases h
  refine ⟨days, second, milli, hsecond, hmilli, hms, ?_⟩
  unfold writeMillis
  extract_lets i
  unfold i
  rw [h, hclock, hnanos, hdate]

theorem writeMillis_of_no_date {ms : Int64} (h : (Instant.ofUnits 1000 ms.toInt).date? = none) :
    writeMillis ms = toString ms.toInt := by
  unfold writeMillis
  extract_lets i
  unfold i
  rw [h]

theorem toString_ne_zone (n : Int) (s : String) : toString n ≠ s ++ "Z" := by
  have hdigits (n : Nat) : 'Z' ∉ (Nat.repr n).toList := by
    rw [Nat.toList_repr]
    intro hmem
    cases Nat.isDigit_of_mem_toDigits (by decide) (by decide) hmem
  intro h
  have hmem : 'Z' ∈ (toString n).toList := by
    rw [h, String.toList_append]
    exact List.mem_append_right _ List.mem_cons_self
  cases n with
  | ofNat n => exact hdigits n hmem
  | negSucc n =>
    rw [show toString (Int.negSucc n) = "-" ++ Nat.repr (n + 1) from rfl, String.toList_append] at hmem
    rcases List.mem_append.1 hmem with hsign | hnumber
    · cases List.mem_singleton.1 hsign
    · exact hdigits _ hnumber

/-- **The text of a timestamp determines it**, with a written date or without one. -/
theorem writeMillis_injective {a b : Int64} (h : writeMillis a = writeMillis b) : a = b := by
  rw [← Int64.toInt_inj]
  cases ha : (Instant.ofUnits 1000 a.toInt).date? with
  | none =>
    rw [writeMillis_of_no_date ha] at h
    cases hb : (Instant.ofUnits 1000 b.toInt).date? with
    | none =>
      rw [writeMillis_of_no_date hb] at h
      rw [← signedValue_toString a.toInt, h, signedValue_toString]
    | some date =>
      obtain ⟨days, second, milli, -, -, -, htext⟩ := writeMillis_of_date hb
      rw [htext] at h
      exact absurd h (toString_ne_zone _ _)
  | some date =>
    obtain ⟨days, second, milli, hsecond, hmilli, hms, htext⟩ := writeMillis_of_date ha
    rw [htext] at h
    cases hb : (Instant.ofUnits 1000 b.toInt).date? with
    | none =>
      rw [writeMillis_of_no_date hb] at h
      exact absurd h.symm (toString_ne_zone _ _)
    | some date' =>
      obtain ⟨days', second', milli', hsecond', hmilli', hms', htext'⟩ := writeMillis_of_date hb
      rw [htext'] at h
      obtain ⟨hfront, -⟩ := append_inj_of_length h rfl
      obtain ⟨hfront, hmillis⟩ := append_inj_of_length hfront
        (by rw [length_padZeros (by decide) hmilli, length_padZeros (by decide) hmilli'])
      obtain ⟨hfront, -⟩ := append_inj_of_length hfront rfl
      obtain ⟨hfront, hclock⟩ := append_inj_of_length hfront
        (by rw [length_writeClock hsecond, length_writeClock hsecond'])
      obtain ⟨hdate, -⟩ := append_inj_of_length hfront rfl
      rw [hms, hms', Date.write_injective hdate, writeClock_injective hsecond hsecond' hclock,
        padZeros_injective hmillis]

end DataClient.Time
