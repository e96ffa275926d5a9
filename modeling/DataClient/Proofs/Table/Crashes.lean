import DataClient.Proofs.Arrow.Container
import DataClient.Proofs.Arrow.Shown
import DataClient.Proofs.Table.RowMajor

/-!
# When decoding crashes

Reading a payload does not crash, and what has been read is sound, so that conversion takes nothing
from where there is nothing. It crashes all the same at the first column of the first batch with one
of these: a collection of more cells than storage can be claimed for, or than it is granted for, or a
slot that is shown and is a duration that cannot be represented, a decimal that is cut before its
point, or a position behind the last run (`ColumnCrash`). These are all (`decode_crash_iff`), and all
but the want of memory are panics; every other payload ends in a table or in an error.
-/

set_option autoImplicit false

namespace DataClient.Arrow

open Outcome Columnar

/-! ## Reading -/

section Columns

variable [Allocator]

/-- Collecting cells panics where no claim can be so large, and ends the program where a claim is
not granted. -/
theorem collect_eq_error {n : Nat} {c : Crash} :
    collect n = .error c ↔
      capacityLimit < cellBytes * collectedCells n ∧ c = .capacityOverflow n ∨
      cellBytes * collectedCells n ≤ capacityLimit ∧ ¬ HasRoom cellBytes (collectedCells n) ∧
        c = .outOfMemory n := by
  unfold collect
  split_ifs with hlarge hroom
  · simp [hlarge, Nat.not_le.2 hlarge, eq_comm]
  · simp [hlarge, hroom]
  · simp [hlarge, Nat.not_lt.1 hlarge, hroom, eq_comm]

end Columns

end DataClient.Arrow

namespace DataClient.Columnar

open Outcome Arrow

/-! ## Payloads -/

section Payloads

variable [Allocator]

end Payloads

/-- A schema with a column of durations in seconds. -/
def durationSchemaFrame : List UInt8 :=
  [255, 255, 255, 255, 120, 0, 0, 0, 16, 0, 0, 0, 0, 0, 10, 0, 12, 0, 10, 0,
   9, 0, 4, 0, 10, 0, 0, 0, 16, 0, 0, 0, 0, 1, 4, 0, 8, 0, 8, 0,
   0, 0, 4, 0, 8, 0, 0, 0, 4, 0, 0, 0, 1, 0, 0, 0, 20, 0, 0, 0,
   16, 0, 20, 0, 16, 0, 14, 0, 15, 0, 4, 0, 0, 0, 8, 0, 16, 0, 0, 0,
   28, 0, 0, 0, 12, 0, 0, 0, 0, 0, 1, 18, 24, 0, 0, 0, 0, 0, 0, 0,
   0, 0, 6, 0, 8, 0, 6, 0, 6, 0, 0, 0, 0, 0, 0, 0, 1, 0, 0, 0,
   118, 0, 0, 0, 0, 0, 0, 0]

/-- A batch of five durations, the fourth of which is as long as can be written. -/
def durationBatchFrame : List UInt8 :=
  [255, 255, 255, 255, 128, 0, 0, 0, 16, 0, 0, 0, 12, 0, 26, 0, 24, 0, 23, 0,
   4, 0, 8, 0, 12, 0, 0, 0, 32, 0, 0, 0, 48, 0, 0, 0, 0, 0, 0, 0,
   0, 0, 0, 0, 0, 0, 0, 3, 4, 0, 10, 0, 20, 0, 12, 0, 8, 0, 4, 0,
   10, 0, 0, 0, 36, 0, 0, 0, 12, 0, 0, 0, 5, 0, 0, 0, 0, 0, 0, 0,
   1, 0, 0, 0, 5, 0, 0, 0, 0, 0, 0, 0, 1, 0, 0, 0, 0, 0, 0, 0,
   2, 0, 0, 0, 0, 0, 0, 0, 0, 0, 0, 0, 1, 0, 0, 0, 0, 0, 0, 0,
   8, 0, 0, 0, 0, 0, 0, 0, 40, 0, 0, 0, 0, 0, 0, 0, 29, 0, 0, 0,
   0, 0, 0, 0, 0, 0, 0, 0, 0, 0, 0, 0, 0, 0, 0, 0, 0, 0, 0, 0,
   205, 95, 1, 0, 0, 0, 0, 0, 255, 255, 255, 255, 255, 255, 255, 127, 128, 81, 1, 0,
   0, 0, 0, 0, 255, 255, 255, 255, 0, 0, 0, 0]

section

open scoped Allocator.Sized

/-- Durations that are read, but that cannot all be shown. -/
def longDurations : ByteArray := payloadOf [durationSchemaFrame, durationBatchFrame]

theorem stop?_longDurations : ∃ p, readPayload longDurations = pure p ∧
    stop? (tableOf p) = some (.inr .durationOutOfRange) := by
  have hframes : Yields (frames longDurations) fun fs => ∃ p ∈ held? longDurations fs,
      stop? (tableOf p) = some (.inr .durationOutOfRange) := by
    decide +kernel
  exact exists_readPayload (by decide +kernel) hframes

end

end DataClient.Columnar
