import DataClient.Proofs.Bytes.Words
import DataClient.Arrow.Load

/-!
# Numbers in messages

The lengths that messages declare are signed words of eight bytes. A length that is not negative is
therefore the count it is taken for, and one that is negative is taken for a count of more than half
of all words.
-/

set_option autoImplicit false

namespace DataClient.Arrow

/-- A number that a signed word of eight bytes can mean. -/
def IsWord (i : Int) : Prop := -0x8000000000000000 ≤ i ∧ i < 0x8000000000000000

theorem Flat.isWord_int (t : Flat) (member : Nat) : IsWord (t.int member 8 0) := by
  have zero : IsWord 0 := ⟨by decide, by decide⟩
  unfold Flat.int
  split
  · rename_i p _
    cases h : Bytes.int? t.buffer p 8 with
    | none => exact zero
    | some i => exact Bytes.int?_bounds h
  · exact zero

theorem Message.isWord_bodyLength {b : ByteArray} {m : Message} (h : Message.ofBytes? b = some m) :
    IsWord m.bodyLength := by
  unfold Message.ofBytes? at h
  split at h
  · injection h with h
    rw [← h]
    exact Flat.isWord_int _ 3
  · cases h

theorem Header.isWord_length {t : Flat} {h : BatchHeader} (heq : Header.ofFlat t = .batch h) :
    IsWord h.length := by
  unfold Header.ofFlat at heq
  split at heq
  case h_4 =>
    injection heq with heq
    rw [← heq]
    exact Flat.isWord_int _ 0
  all_goals cases heq

theorem Message.isWord_length {b : ByteArray} {m : Message} {h : BatchHeader}
    (hm : Message.ofBytes? b = some m) (heq : m.header = .batch h) : IsWord h.length := by
  unfold Message.ofBytes? at hm
  split at hm
  · injection hm with hm
    rw [← hm] at heq
    exact Header.isWord_length heq
  · cases hm

theorem Load.countOf_of_nonneg {i : Int} (hi : IsWord i) (h : 0 ≤ i) :
    (Load.countOf i : Int) = i := by
  have hall : Nat.pow 2 64 = 0x10000000000000000 := by decide
  unfold Load.countOf Bytes.unsigned
  rw [hall]
  have := hi.2
  omega

theorem Load.countOf_of_neg {i : Int} (hi : IsWord i) (h : i < 0) :
    0x8000000000000000 ≤ Load.countOf i := by
  have hall : Nat.pow 2 64 = 0x10000000000000000 := by decide
  unfold Load.countOf Bytes.unsigned
  rw [hall]
  have := hi.1
  omega

/-! ## Metadata -/

/-- A sound buffer begins with the distance to its root. -/
theorem Verify.le_size_of_root {kind : TableKind} {b : ByteArray} (h : Verify.root kind b = true) :
    4 ≤ b.size := by
  refine Decidable.byContradiction fun hlt => ?_
  have hinside : Verify.inside b 0 4 = fun _ => none := by
    unfold Verify.inside guard
    rw [if_neg (by omega)]
    rfl
  have hnone : Verify.distance b 0 = fun _ => none := by
    unfold Verify.distance Verify.scalar
    rw [hinside]
    rfl
  unfold Verify.root at h
  rw [hnone] at h
  cases h

theorem Message.le_size {b : ByteArray} {m : Message} (h : Message.ofBytes? b = some m) :
    4 ≤ b.size := by
  unfold Message.ofBytes? at h
  split at h
  · exact Verify.le_size_of_root ‹_›
  · cases h

end DataClient.Arrow
