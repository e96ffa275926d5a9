import DataClient.Query.Submission
import Mathlib.Tactic.SplitIfs

/-!
# What an answer is made of

An exchange leaves nothing, a response of a status that is no success, or a successful one. An answer
is made of it in one way each: a transport error, a server error with the text of the body, or what
the body decodes to. So the tag of an error tells how far the exchange came.
-/

set_option autoImplicit false

namespace DataClient

theorem Response.isSuccess_iff {r : Response} :
    r.isSuccess = true ↔ 200 ≤ r.status ∧ r.status ≤ 299 := by
  unfold isSuccess
  rw [Bool.and_eq_true, decide_eq_true_eq, decide_eq_true_eq]
  omega

namespace Query

variable {format : ResultFormat} {x : Except TransportError Response}

/-- The answer that is made of a body. -/
def ofBody : Except Crash (Except DecodeError Table) → Answer := Except.map (·.mapError .decode)

theorem ofBody_eq_table_iff {d : Except Crash (Except DecodeError Table)} {t : Table} :
    ofBody d = .ok (.ok t) ↔ d = .ok (.ok t) := by
  match d with
  | .error crash => simp [ofBody, Except.map]
  | .ok (.error e) => simp [ofBody, Except.map, Except.mapError]
  | .ok (.ok u) => simp [ofBody, Except.map, Except.mapError]

theorem ofBody_eq_error_iff {d : Except Crash (Except DecodeError Table)} {e : QueryError} :
    ofBody d = .ok (.error e) ↔ ∃ fault, d = .ok (.error fault) ∧ e = .decode fault := by
  match d with
  | .error crash => simp [ofBody, Except.map]
  | .ok (.error fault) => simp [ofBody, Except.map, Except.mapError, eq_comm]
  | .ok (.ok u) => simp [ofBody, Except.map, Except.mapError]

theorem classify_of_success [Allocator] {r : Response} (h : r.isSuccess = true) :
    classify format r = ofBody (decode r format) := if_pos h

theorem classify_of_failure [Allocator] {r : Response} (h : r.isSuccess ≠ true) :
    classify format r = .ok (.error (.server r.status (Text.trim r.text))) := if_neg h

/-- A table is an answer only where the whole body of a successful response decodes to it. -/
theorem answer_eq_table_iff [Allocator] {t : Table} :
    answer format x = .ok (.ok t) ↔
      ∃ r, x = .ok r ∧ r.isSuccess = true ∧ decode r format = .ok (.ok t) := by
  cases x with
  | error e => simp [answer]
  | ok r =>
    by_cases hr : r.isSuccess = true
    · simp [answer, classify_of_success hr, ofBody_eq_table_iff, hr]
    · simp [answer, classify_of_failure hr, hr]

/-- An error tells how far the exchange came. -/
theorem answer_eq_error_iff [Allocator] {e : QueryError} :
    answer format x = .ok (.error e) ↔
      (∃ fault, x = .error fault ∧ e = .transport fault) ∨
      (∃ r, x = .ok r ∧ r.isSuccess ≠ true ∧ e = .server r.status (Text.trim r.text)) ∨
      ∃ r fault, x = .ok r ∧ r.isSuccess = true ∧ decode r format = .ok (.error fault) ∧
        e = .decode fault := by
  cases x with
  | error fault => simp [answer, @eq_comm _ e]
  | ok r =>
    by_cases hr : r.isSuccess = true
    · simp [answer, classify_of_success hr, ofBody_eq_error_iff, hr]
    · simp [answer, classify_of_failure hr, hr, @eq_comm _ e]

theorem tag_iff [Allocator] {e : QueryError} (h : answer format x = .ok (.error e)) :
    (e.tag = "transport" ↔ ∃ fault, x = .error fault) ∧
    (e.tag = "server" ↔ ∃ r, x = .ok r ∧ r.isSuccess ≠ true) ∧
    (e.tag = "decode" ↔ ∃ r, x = .ok r ∧ r.isSuccess = true) := by
  rcases answer_eq_error_iff.1 h with
    ⟨fault, rfl, rfl⟩ | ⟨r, rfl, hr, rfl⟩ | ⟨r, fault, rfl, hr, -, rfl⟩
  · simp [QueryError.tag]
  · simp [QueryError.tag, hr]
  · simp [QueryError.tag, hr]

end Query

/-! ## Bodies in either mode -/

/-- The text of a body does not depend on the mode it is handed back in. -/
@[simp] theorem Response.text_read (mode : BodyMode) (status : Nat) (contentType : Option String)
    (body : ByteArray) :
    Response.text ⟨status, contentType, mode.read body⟩ = Text.ofBytesLossy body := by
  cases mode <;> rfl

end DataClient
