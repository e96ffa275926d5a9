import DataClient.Proofs.Query.Race
import Mathlib.Data.List.Induction

/-!
# Calls that share a service

A run of a session interleaves the looks at its calls in any order. Nothing but the record of requests
is shared, and no call reads it, so a call comes to what it comes to alone (`Session.getElem?_run`).
The record grows by one request at the first look at a call that has not been cancelled by then, and
by nothing else; so it holds one request for each such call, in the order of their first looks.
-/

set_option autoImplicit false

namespace DataClient

/-- Whether a call that is looked at at some instants sends its request: at the first of them, unless
it is cancelled by then. -/
def Call.Sends (c : Call) (nows : List Nat) : Prop :=
  ∃ now, nows.head? = some now ∧ c.isCancelled now = false

theorem Call.sends_append_iff {c : Call} {nows : List Nat} {now : Nat} :
    c.Sends (nows ++ [now]) ↔ c.Sends nows ∨ nows = [] ∧ c.isCancelled now = false := by
  cases nows <;> simp [Sends]

/-- A call that is looked at sends its request, or it is cancelled at its first look. -/
theorem Call.sends_or_cancelled (c : Call) (stub : Stub) {nows : List Nat} (h : nows ≠ []) :
    c.Sends nows ∨ ∃ now, nows.head? = some now ∧ c.isCancelled now = true ∧
      c.watch stub nows .idle = .ended now (.error .cancelled) := by
  cases nows with
  | nil => exact absurd rfl h
  | cons now nows =>
    by_cases hc : c.isCancelled now = true
    · exact .inr ⟨now, rfl, hc, by rw [watch_cons, look_idle, if_pos hc, watch_ended]⟩
    · exact .inl ⟨now, rfl, by simpa using hc⟩

namespace Session

/-- The requests that were received are those of the calls that sent theirs, each once, in some
order. -/
structure Logged (calls : List Call) (looks : List (Nat × Nat)) (log : List Request)
    (order : List (Fin calls.length)) : Prop where
  once : order.Nodup
  mem_iff : ∀ i, i ∈ order ↔ calls[i].Sends (looksAt i looks)
  log_eq : log = order.map fun i => calls[i].request

theorem looksAt_append_singleton (index : Nat) (looks : List (Nat × Nat)) (l : Nat × Nat) :
    looksAt index (looks ++ [l]) =
      if l.1 = index then looksAt index looks ++ [l.2] else looksAt index looks := by
  rw [looksAt_append, looksAt_cons, looksAt_nil]
  split_ifs
  · rfl
  · exact List.append_nil _

theorem log_look (s : Session) (index now : Nat) :
    (s.look index now).log =
      s.log ++ (s.calls[index]?.bind fun (c, p) => (c.look s.stub now p).2).toList := by
  unfold look
  cases s.calls[index]? with
  | none => exact (List.append_nil _).symm
  | some cp => rfl

variable {stub : Stub} {calls : List Call} {looks : List (Nat × Nat)} {log : List Request}
  {order : List (Fin calls.length)}

theorem getElem?_run_ofCalls (stub : Stub) (looks : List (Nat × Nat)) (i : Fin calls.length) :
    ((ofCalls stub calls).run looks).calls[i.val]? =
      some (calls[i], calls[i].watch stub (looksAt i looks) .idle) := by
  rw [getElem?_run]
  simp

/-- A look adds the request of the call that is looked at, if this is the first look at it and the
call has not been cancelled. -/
theorem sent_eq (stub : Stub) (looks : List (Nat × Nat)) (i : Fin calls.length) (now : Nat) :
    (calls[i].look stub now (calls[i].watch stub (looksAt i looks) .idle)).2 =
      if looksAt i looks = [] ∧ calls[i].isCancelled now = false then some calls[i].request
      else none := by
  rw [Call.look_snd]
  cases hw : calls[i].watch stub (looksAt i looks) .idle with
  | idle =>
    have hfirst := (Call.watch_eq_idle_iff calls[i] stub).1 hw
    cases hc : calls[i].isCancelled now <;> simp [hfirst.1]
  | waiting | ended =>
    have hlater : looksAt i looks ≠ [] := by
      intro hnil
      rw [hnil] at hw
      cases hw
    simp [hlater]

/-- Nobody who has sent sends again, and who sends is recorded. The step lemma of `exists_logged`. -/
theorem Logged.look (h : Logged calls looks log order) (i : Fin calls.length) (now : Nat) :
    ∃ order', Logged calls (looks ++ [(i.val, now)])
      (log ++ (if looksAt i looks = [] ∧ calls[i].isCancelled now = false
        then some calls[i].request else none).toList) order' := by
  have hothers : ∀ j, j ≠ i → looksAt j (looks ++ [(i.val, now)]) = looksAt j looks := by
    intro j hj
    rw [looksAt_append_singleton, if_neg fun he => hj (Fin.ext he.symm)]
  have hown : looksAt i (looks ++ [(i.val, now)]) = looksAt i looks ++ [now] := by
    rw [looksAt_append_singleton, if_pos rfl]
  by_cases hsend : looksAt i looks = [] ∧ calls[i].isCancelled now = false
  · -- The first look: `i` is not in the order yet and comes behind all others.
    have hnew : i ∉ order := by
      rw [h.mem_iff, hsend.1]
      rintro ⟨_, hnone, -⟩
      cases hnone
    refine ⟨order ++ [i], ?_, fun j => ?_, ?_⟩
    · refine List.nodup_append.2 ⟨h.once, List.pairwise_singleton _ i, fun a ha b hb => ?_⟩
      rw [List.mem_singleton.1 hb]
      exact fun he => hnew (he ▸ ha)
    · by_cases hj : j = i
      · subst hj
        rw [hown, Call.sends_append_iff]
        exact iff_of_true (List.mem_append_right order (List.mem_singleton_self j)) (.inr hsend)
      · rw [hothers j hj, ← h.mem_iff]
        simp [hj]
    · rw [if_pos hsend, h.log_eq, List.map_append]
      rfl
  · refine ⟨order, h.once, fun j => ?_, ?_⟩
    · by_cases hj : j = i
      · subst hj
        rw [hown, Call.sends_append_iff, or_iff_left hsend]
        exact h.mem_iff j
      · rw [hothers j hj]
        exact h.mem_iff j
    · rw [if_neg hsend]
      exact (List.append_nil log).trans h.log_eq

/-- **The record of requests.** However looks are interleaved, it holds exactly one request for each
call that was not cancelled by its first look. -/
theorem exists_logged (stub : Stub) (calls : List Call) (looks : List (Nat × Nat)) :
    ∃ order, Logged calls looks ((ofCalls stub calls).run looks).log order := by
  -- From the end, since the record grows there.
  induction looks using List.reverseRecOn with
  | nil => exact ⟨[], List.nodup_nil, fun i => by simp [Call.Sends], rfl⟩
  | append_singleton looks l ih =>
    obtain ⟨order, h⟩ := ih
    obtain ⟨index, now⟩ := l
    have hrun : (ofCalls stub calls).run (looks ++ [(index, now)]) =
        ((ofCalls stub calls).run looks).look index now := run_append _ looks [(index, now)]
    rw [hrun, log_look, run_stub, stub_ofCalls]
    by_cases hindex : index < calls.length
    · have hcall := getElem?_run_ofCalls stub looks ⟨index, hindex⟩
      obtain ⟨order', h'⟩ := h.look ⟨index, hindex⟩ now
      rw [← sent_eq stub] at h'
      rw [hcall]
      exact ⟨order', h'⟩
    · -- A look past the last call does nothing.
      have hnone : ((ofCalls stub calls).run looks).calls[index]? = none := by
        rw [List.getElem?_eq_none_iff, length_calls_run, calls_ofCalls, List.length_map]
        exact Nat.le_of_not_lt hindex
      rw [hnone]
      refine ⟨order, h.once, fun i => ?_, (List.append_nil _).trans h.log_eq⟩
      have hne : index ≠ i := fun he => hindex (he ▸ i.isLt)
      rw [looksAt_append_singleton, if_neg hne]
      exact h.mem_iff i

/-- **Calls are independent.** However the looks at them are interleaved, each call comes to what the
same looks make of it alone, and on a clock to what it comes to when it is performed alone. The
record holds one request, built from its own text, submission and timeout, for each call that was
looked at and not cancelled by its first look; a call that ended without a request was. -/
theorem calls_independent (stub : Stub) (calls : List Call) (looks : List (Nat × Nat)) :
    (∀ i : Fin calls.length, ∃ p,
      ((ofCalls stub calls).run looks).calls[i.val]? = some (calls[i], p) ∧
      ((ofCalls stub [calls[i]]).run ((looksAt i looks).map fun now => (0, now))).calls =
        [(calls[i], p)] ∧
      (calls[i].Timely stub (looksAt i looks) →
        ((ofCalls stub []).perform calls[i]).calls = [(calls[i], p)])) ∧
    ∃ order : List (Fin calls.length), order.Nodup ∧
      ((ofCalls stub calls).run looks).log =
        order.map (fun i =>
          Query.request calls[i].sql calls[i].submission calls[i].timeout) ∧
      (∀ i, i ∈ order ↔
        ∃ now, (looksAt i looks).head? = some now ∧ calls[i].isCancelled now = false) ∧
      ∀ (i : Fin calls.length) (instant : Nat) (result : Except TransportError Response),
        ((ofCalls stub calls).run looks).calls[i.val]? =
          some (calls[i], .ended instant result) →
        i ∈ order ∨ (looksAt i looks).head? = some instant ∧
          calls[i].isCancelled instant = true ∧ result = .error .cancelled := by
  constructor
  · intro i
    refine ⟨_, getElem?_run_ofCalls stub looks i, ?_, fun h => ?_⟩
    · apply List.ext_getElem?
      intro j
      rw [getElem?_run]
      cases j with
      | zero => simp
      | succ j => simp
    · rw [calls[i].calls_perform stub, h.watch_eq]
  · obtain ⟨order, h⟩ := exists_logged stub calls looks
    refine ⟨order, h.once, h.log_eq, h.mem_iff, fun i instant result hended => ?_⟩
    rw [getElem?_run_ofCalls, Option.some.injEq, Prod.mk.injEq] at hended
    have hlooked : looksAt i looks ≠ [] := by
      intro hnil
      rw [hnil] at hended
      cases hended.2
    rcases calls[i].sends_or_cancelled stub hlooked with hsends | ⟨now, hnow, hcancel, hend⟩
    · exact .inl ((h.mem_iff i).2 hsends)
    · rw [hend] at hended
      cases hended.2
      exact .inr ⟨hnow, hcancel, rfl⟩

/-- Three calls of which one times out, one waits for the reply and one is cancelled before it begins.
The first of them is looked at in time, so it comes to what it comes to alone. -/
theorem calls_independent_timeout :
    let stub : Stub := { Stub.empty with delay := some 5 }
    let c : Call := ⟨"SELECT 0", .post, some 2, none, 0⟩
    let others : List Call :=
      [⟨"SELECT 1", .get .json, none, some 7, 0⟩, ⟨"SELECT 2", .post, none, some 0, 0⟩]
    let looks := [(1, 0), (2, 0), (0, 0), (0, 2), (1, 2), (1, 5)]
    c.Timely stub (looksAt 0 looks) ∧
    ∃ p, ((ofCalls stub (c :: others)).run looks).calls[0]? = some (c, p) ∧
      ((ofCalls stub []).perform c).calls = [(c, p)] := by
  intro stub c others looks
  have h : c.Timely stub [0, 2] := {
    sorted := by decide
    starts := rfl
    alarms := by
      intro alarm halarm
      rcases (c.mem_instants stub).1 halarm with rfl | ⟨k, hk | hk | hk, rfl⟩
      · exact .inl (by decide)
      · cases hk
        exact .inl (by decide)
      · cases hk
      · cases hk
        exact .inr (by decide : 2 < 5) }
  obtain ⟨p, hp, -, halone⟩ := (calls_independent stub (c :: others) looks).1 0
  exact ⟨h, p, hp, halone h⟩

end Session

end DataClient
