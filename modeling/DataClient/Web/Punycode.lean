/-!
# Labels beyond ASCII

A label of a domain is written in ASCII as its ASCII characters followed by numbers that say where
each of the others is inserted, the smallest first. The numbers have digits to base thirty-six with
thresholds that adapt to the numbers before.
-/

set_option autoImplicit false

namespace DataClient.Web.Punycode

/-- A digit below thirty-six: letters, then decimal digits. -/
def digitChar (d : Nat) : Char := if d < 26 then Char.ofNat (0x61 + d) else Char.ofNat (0x16 + d)

def digitValue? (c : Char) : Option Nat :=
  let n := c.toNat
  if 0x61 ≤ n ∧ n ≤ 0x7A then some (n - 0x61)
  else if 0x41 ≤ n ∧ n ≤ 0x5A then some (n - 0x41)
  else if 0x30 ≤ n ∧ n ≤ 0x39 then some (n - 0x16)
  else none

/-- The digits below this one at a place end a number. -/
def threshold (place bias : Nat) : Nat := min 26 (max 1 (place - bias))

theorem threshold_pos (place bias : Nat) : 0 < threshold place bias := by
  unfold threshold; omega

/-- The bias that a remaining delta leads to, from the given place on. -/
def settle (place delta : Nat) : Nat :=
  if 455 < delta then settle (place + 36) (delta / 35) else place + 36 * delta / (delta + 38)
termination_by delta
decreasing_by exact Nat.div_lt_self (by omega) (by omega)

/-- The bias after a delta with which there are so many characters. -/
def adapt (delta count : Nat) (first : Bool) : Nat :=
  let delta := if first then delta / 700 else delta / 2
  settle 0 (delta + delta / count)

/-- The digits of a number, from the given place on. -/
def writeNumber (bias place n : Nat) : List Char :=
  let t := threshold place bias
  if n < t then [digitChar n]
  else digitChar (t + (n - t) % (36 - t)) :: writeNumber bias (place + 36) ((n - t) / (36 - t))
termination_by n
decreasing_by
  have := threshold_pos place bias
  exact Nat.lt_of_le_of_lt (Nat.div_le_self _ _) (by omega)

/-- The state of writing and of reading: how many characters there are, the next delta, and the
bias. -/
structure Progress where
  count : Nat
  delta : Nat
  bias : Nat
  first : Bool

/-- The state before any number. -/
def Progress.start (count : Nat) : Progress := ⟨count, 0, 72, true⟩

/-- The state after a number that ends at the current delta. -/
def Progress.after (p : Progress) : Progress :=
  ⟨p.count + 1, 0, adapt p.delta (p.count + 1) p.first, false⟩

/-- Writes one number for each place where `c` stands. -/
def writeOccurrences (c : Nat) : Progress → List Char → Progress × List Char
  | p, [] => (p, [])
  | p, x :: xs =>
    if x.toNat < c then writeOccurrences c { p with delta := p.delta + 1 } xs
    else if x.toNat = c then
      let (q, rest) := writeOccurrences c p.after xs
      (q, writeNumber p.bias 36 p.delta ++ rest)
    else writeOccurrences c p xs

/-- Writes the numbers of the characters given in rising order, all from `lowest` on. -/
def writeInsertions (label : List Char) : Nat → Progress → List Nat → List Char
  | _, _, [] => []
  | lowest, p, c :: cs =>
    let p := { p with delta := p.delta + (c - lowest) * (p.count + 1) }
    let (q, out) := writeOccurrences c p label
    out ++ writeInsertions label (c + 1) { q with delta := q.delta + 1 } cs

/-- Puts a number in its place among numbers in rising order, unless it is there. -/
def insertRising (x : Nat) : List Nat → List Nat
  | [] => [x]
  | y :: ys => if x < y then x :: y :: ys else if x = y then y :: ys else y :: insertRising x ys

/-- A label in ASCII. -/
def encode (label : List Char) : List Char :=
  let (basic, others) := label.partition fun c => c.toNat < 0x80
  let rising := others.foldl (fun cs c => insertRising c.toNat cs) []
  basic ++ (if basic.isEmpty then [] else ['-'])
    ++ writeInsertions label 0x80 (Progress.start basic.length) rising

/-- Reads one number: its value and what is left. -/
def readNumber (bias : Nat) : Nat → Nat → Nat → List Char → Option (Nat × List Char)
  | _, _, _, [] => none
  | place, weight, n, c :: cs => do
    let d ← digitValue? c
    let t := threshold place bias
    let n := n + d * weight
    if d < t then some (n, cs) else readNumber bias (place + 36) (weight * (36 - t)) n cs

theorem readNumber_length {bias place weight n m : Nat} {cs rest : List Char}
    (h : readNumber bias place weight n cs = some (m, rest)) : rest.length < cs.length := by
  induction cs generalizing place weight n with
  | nil => simp [readNumber] at h
  | cons c cs ih =>
    simp only [readNumber, Option.bind_eq_bind, Option.bind_eq_some_iff] at h
    obtain ⟨d, _, h⟩ := h
    split at h
    · simp only [Option.some.injEq, Prod.mk.injEq] at h
      simp [← h.2]
    · have := ih h
      simp only [List.length_cons]
      omega

/-- Reads the insertions into a label; `position` and `lowest` are where the one before was made. -/
def readInsertions (label : List Char) (position lowest : Nat) (p : Progress) (cs : List Char) :
    Option (List Char) :=
  if cs.isEmpty then some label
  else
    match h : readNumber p.bias 36 1 0 cs with
    | none => none
    | some (n, rest) =>
      let total := position + n
      let c := lowest + total / (p.count + 1)
      if c < 0x110000 ∧ ¬ (0xD800 ≤ c ∧ c < 0xE000) then
        let place := total % (p.count + 1)
        readInsertions (label.take place ++ Char.ofNat c :: label.drop place) (place + 1) c
          { p with delta := n }.after rest
      else none
termination_by cs.length
decreasing_by exact readNumber_length h

/-- The label that a text in ASCII stands for. -/
def decode? (cs : List Char) : Option (List Char) :=
  let behind := (cs.reverse.takeWhile (· != '-')).reverse
  let basic := if cs.contains '-' then cs.take (cs.length - behind.length - 1) else []
  let numbers := if cs.contains '-' then behind else cs
  readInsertions basic 0 0x80 (Progress.start basic.length) numbers

end DataClient.Web.Punycode
