import DataClient.Proofs.Query.Answer
import DataClient.Proofs.Query.Session

/-!
# How the race of a call ends

A call waits for the reply, for its timeout and for being cancelled. Which of them ends it depends on
three times only: the delay of the reply, the timeout, and the cancellation (`Call.finish`). The
timeout is watched twice, by the call and by the service that it is forwarded to, but the service is
never later, so the timer of the call decides nothing (`Call.due_of_isOverdue`). What is left is a
race of two, the delivery and the cancellation, and the cancellation is looked at first.
-/

set_option autoImplicit false

namespace DataClient

/-- Whether a call ended before an instant. -/
def Progress.EndedBefore (now : Nat) : Progress → Prop
  | .ended instant _ => instant < now
  | _ => False

namespace Call

variable (c : Call) (stub : Stub)

/-! ## The times that decide -/

/-- How long a call waits, if replies are delayed: until the reply, or until the timeout if that is
earlier. -/
def patience : Option Nat := stub.delay.map fun delay => c.timeout.elim delay (min delay)

/-- How long after it is made a call is cancelled: at once, or while it waits, the last instant of
waiting included. -/
def cancelledAfter? : Option Nat :=
  c.cancelAfter.filter fun k => k = 0 || (c.patience stub).any (k ≤ ·)

/-- How long after it is made a call times out, if the delay is longer than that. -/
def timedOutAfter? : Option Nat := c.timeout.filter fun t => stub.delay.any (t < ·)

/-- How a call ends: how long after it is made, and with what. -/
def finish : Nat × Except TransportError Response :=
  match c.cancelledAfter? stub, c.timedOutAfter? stub with
  | some k, _ => (k, .error .cancelled)
  | none, some t => (t, .error .timeout)
  | none, none => (stub.delay.getD 0, stub.reply c.request)

/-- The instants of a clock that looks at a call when it is made and then, without going back, at
every alarm that is left to it. It may look in between. -/
structure Timely (nows : List Nat) : Prop where
  sorted : nows.Pairwise (· ≤ ·)
  starts : nows.head? = some c.start
  alarms : ∀ alarm ∈ c.instants stub,
    alarm ∈ nows ∨ (c.watch stub nows .idle).EndedBefore alarm

/-! ## One timeout -/

theorem patience_of_timedOut {t : Nat} (h : c.timedOutAfter? stub = some t) :
    c.patience stub = some t := by
  obtain ⟨ht, hlt⟩ := Option.filter_eq_some_iff.1 h
  obtain ⟨delay, hd, hlt⟩ := (Option.any_eq_true _ _).1 hlt
  rw [decide_eq_true_eq] at hlt
  simp [patience, hd, ht, Nat.min_eq_right (Nat.le_of_lt hlt)]

theorem patience_of_not_timedOut (h : c.timedOutAfter? stub = none) :
    c.patience stub = stub.delay := by
  cases hd : stub.delay with
  | none => simp [patience, hd]
  | some delay =>
    cases ht : c.timeout with
    | none => simp [patience, hd, ht]
    | some t =>
      have hle : delay ≤ t := by simpa [timedOutAfter?, hd, ht] using h
      simp [patience, hd, ht, Nat.min_eq_left hle]

@[simp] theorem request_timeout : c.request.timeout = c.timeout := by
  unfold request Query.request Request.withTimeout
  rfl

theorem deliver_eq :
    stub.deliver c.request =
      match c.timedOutAfter? stub with
      | some t => ⟨t, .error .timeout⟩
      | none => ⟨stub.delay.getD 0, stub.reply c.request⟩ := by
  unfold Stub.deliver
  rw [request_timeout]
  cases hd : stub.delay with
  | none => cases ht : c.timeout <;> simp [timedOutAfter?, hd, ht]
  | some delay =>
    cases ht : c.timeout with
    | none => simp [timedOutAfter?, hd, ht]
    | some timeout =>
      by_cases h : timeout < delay <;> simp [timedOutAfter?, hd, ht, h, Option.filter_some]

theorem deliver_after : (stub.deliver c.request).after = (c.patience stub).getD 0 := by
  rw [deliver_eq]
  cases h : c.timedOutAfter? stub with
  | some t => rw [c.patience_of_timedOut stub h, Option.getD_some]
  | none => rw [c.patience_of_not_timedOut stub h]

/-- **The two watches over the timeout agree.** Whenever a call has reached its own timeout, the
service has answered, so the timer of the call never decides. -/
theorem due_of_isOverdue {since now : Nat} (h : c.isOverdue since now = true) :
    since + (stub.deliver c.request).after ≤ now := by
  rw [deliver_after]
  cases ht : c.timeout with
  | none => simp [isOverdue, ht] at h
  | some t =>
    have hover : since + t ≤ now := by simpa [isOverdue, ht] using h
    cases hd : stub.delay with
    | none =>
      simp only [patience, hd, Option.map_none, Option.getD_none]
      omega
    | some delay =>
      have hmin : min delay t ≤ t := Nat.min_le_right delay t
      simp only [patience, hd, ht, Option.map_some, Option.getD_some, Option.elim_some]
      omega

theorem await_eq (since now : Nat) :
    c.await stub since now =
      if since + (stub.deliver c.request).after ≤ now then
        .ended now (stub.deliver c.request).result
      else .waiting since := by
  unfold await
  dsimp only
  by_cases hdue : since + (stub.deliver c.request).after ≤ now
  · rw [if_pos hdue, if_pos hdue]
  · have hover : ¬ c.isOverdue since now = true := fun h => hdue (c.due_of_isOverdue stub h)
    rw [if_neg hdue, if_neg hdue, if_neg hover]

/-! ## Two racers -/

theorem cancelledAfter?_eq :
    c.cancelledAfter? stub = c.cancelAfter.filter (· ≤ (stub.deliver c.request).after) := by
  unfold cancelledAfter?
  rw [deliver_after]
  congr 1
  funext k
  cases c.patience stub with
  | none => simp
  | some limit =>
    rw [Bool.eq_iff_iff]
    simp only [Option.any_some, Option.getD_some, Bool.or_eq_true, decide_eq_true_eq]
    omega

/-- A call ends by being cancelled, or else with what is delivered. -/
theorem finish_cases :
    (∃ k, c.cancelAfter = some k ∧ k ≤ (stub.deliver c.request).after ∧
      c.finish stub = (k, .error .cancelled)) ∨
    ((∀ k, c.cancelAfter = some k → (stub.deliver c.request).after < k) ∧
      c.finish stub = ((stub.deliver c.request).after, (stub.deliver c.request).result)) := by
  cases hc : c.cancelledAfter? stub with
  | some k =>
    have hk := hc
    rw [cancelledAfter?_eq, Option.filter_eq_some_iff, decide_eq_true_eq] at hk
    exact .inl ⟨k, hk.1, hk.2, by simp [finish, hc]⟩
  | none =>
    refine .inr ⟨fun k hk => ?_, ?_⟩
    · rw [cancelledAfter?_eq, Option.filter_eq_none_iff] at hc
      simpa using hc k hk
    · rw [deliver_eq]
      unfold finish
      rw [hc]
      cases c.timedOutAfter? stub <;> rfl

theorem isCancelled_iff {now : Nat} :
    c.isCancelled now = true ↔ ∃ k, c.cancelAfter = some k ∧ c.start + k ≤ now := by
  unfold isCancelled
  cases c.cancelAfter <;> simp

theorem look_before {now : Nat} (h : now < c.start + (c.finish stub).1) :
    c.look stub now (.waiting c.start) = (.waiting c.start, none) := by
  have hpending : ¬ c.isCancelled now = true ∧
      ¬ c.start + (stub.deliver c.request).after ≤ now := by
    rw [isCancelled_iff]
    rcases c.finish_cases stub with ⟨k, hk, hle, hfin⟩ | ⟨hlate, hfin⟩
    · rw [hfin] at h
      simp only [hk, Option.some.injEq, exists_eq_left'] at h ⊢
      omega
    · rw [hfin] at h
      simp only at h
      refine ⟨?_, by omega⟩
      rintro ⟨k, hk, hle⟩
      have := hlate k hk
      omega
  rw [look_waiting, if_neg hpending.1, await_eq, if_neg hpending.2]

/-- From its end on, a look at a call that waits ends it; at its end, with what it ends with. -/
theorem look_ends {now : Nat} (h : c.start + (c.finish stub).1 ≤ now) :
    ∃ result, c.look stub now (.waiting c.start) = (.ended now result, none) ∧
      (now = c.start + (c.finish stub).1 → result = (c.finish stub).2) := by
  rcases c.finish_cases stub with ⟨k, hk, hle, hfin⟩ | ⟨hlate, hfin⟩
  · rw [hfin] at h ⊢
    have hcancel : c.isCancelled now = true := c.isCancelled_iff.2 ⟨k, hk, h⟩
    exact ⟨_, by rw [look_waiting, if_pos hcancel], fun _ => rfl⟩
  · rw [hfin] at h ⊢
    by_cases hcancel : c.isCancelled now = true
    · -- The cancellation is behind the delivery, so this look is behind the end.
      refine ⟨_, by rw [look_waiting, if_pos hcancel], fun hnow => ?_⟩
      obtain ⟨k, hk, hle⟩ := c.isCancelled_iff.1 hcancel
      have := hlate k hk
      simp only at hnow
      omega
    · exact ⟨_, by rw [look_waiting, if_neg hcancel, await_eq, if_pos h], fun _ => rfl⟩

/-! ## On a clock -/

/-- The first look leads where a look at a waiting call leads, since nothing has been waited for. -/
theorem look_start : (c.look stub c.start .idle).1 = (c.look stub c.start (.waiting c.start)).1 := by
  rw [look_idle, look_waiting]
  split_ifs <;> rfl

theorem watch_before {nows : List Nat} (h : ∀ now ∈ nows, now < c.start + (c.finish stub).1) :
    c.watch stub nows (.waiting c.start) = .waiting c.start := by
  induction nows with
  | nil => rfl
  | cons now nows ih =>
    rw [watch_cons, c.look_before stub (h now List.mem_cons_self)]
    exact ih fun later hl => h later (List.mem_cons_of_mem now hl)

theorem watch_end {before : List Nat} (h : ∀ now ∈ before, now < c.start + (c.finish stub).1)
    (behind : List Nat) :
    c.watch stub (before ++ (c.start + (c.finish stub).1) :: behind) (.waiting c.start) =
      .ended (c.start + (c.finish stub).1) (c.finish stub).2 := by
  obtain ⟨result, hlook, hresult⟩ := c.look_ends stub (Nat.le_refl _)
  rw [watch_append, c.watch_before stub h, watch_cons, hlook, hresult rfl]
  exact c.watch_ended stub behind _ _

-- Looks behind the end may find another result, so only the instant is bounded here.
theorem le_of_watch_ended {nows : List Nat} {instant : Nat}
    {result : Except TransportError Response}
    (h : c.watch stub nows (.waiting c.start) = .ended instant result) :
    c.start + (c.finish stub).1 ≤ instant := by
  induction nows with
  | nil => cases h
  | cons now nows ih =>
    rw [watch_cons] at h
    by_cases hnow : now < c.start + (c.finish stub).1
    · rw [c.look_before stub hnow] at h
      exact ih h
    · obtain ⟨_, hlook, -⟩ := c.look_ends stub (Nat.le_of_not_lt hnow)
      rw [hlook, watch_ended] at h
      cases h
      exact Nat.le_of_not_lt hnow

theorem mem_instants {a : Nat} :
    a ∈ c.instants stub ↔ a = c.start ∨ ∃ k,
      (c.timeout = some k ∨ c.cancelAfter = some k ∨ stub.delay = some k) ∧ a = c.start + k := by
  unfold instants
  rw [List.mem_cons, List.mem_mergeSort, List.mem_map]
  simp only [List.mem_append, Option.mem_toList, or_assoc, eq_comm]

theorem end_mem_instants : c.start + (c.finish stub).1 ∈ c.instants stub := by
  rw [mem_instants]
  rcases c.finish_cases stub with ⟨k, hk, -, hfin⟩ | ⟨-, hfin⟩
  · exact .inr ⟨k, .inr (.inl hk), by rw [hfin]⟩
  · rw [hfin, deliver_eq]
    cases ht : c.timedOutAfter? stub with
    | some t => exact .inr ⟨t, .inl (Option.filter_eq_some_iff.1 ht).1, rfl⟩
    | none =>
      cases hd : stub.delay with
      | none => exact .inl rfl
      | some delay => exact .inr ⟨delay, .inr (.inr rfl), rfl⟩

/-- The clock of a call that is made alone is one that looks at it in time. -/
theorem timely_instants : c.Timely stub (c.instants stub) where
  sorted := by
    refine List.pairwise_cons.2 ⟨fun a ha => ?_, ?_⟩
    · rw [List.mem_mergeSort, List.mem_map] at ha
      obtain ⟨k, -, rfl⟩ := ha
      exact Nat.le_add_right c.start k
    · refine (List.pairwise_mergeSort ?_ ?_ _).imp of_decide_eq_true
      · intro x y z hxy hyz
        simp only [decide_eq_true_eq] at hxy hyz ⊢
        omega
      · intro x y
        simp only [Bool.or_eq_true, decide_eq_true_eq]
        omega
  starts := rfl
  alarms := fun _ h => .inl h

namespace Timely

variable {c stub} {nows : List Nat} (h : c.Timely stub nows)

include h

theorem eq_cons : ∃ later, nows = c.start :: later ∧ ∀ now ∈ nows, c.start ≤ now := by
  obtain ⟨later, rfl⟩ := List.head?_eq_some_iff.1 h.starts
  refine ⟨later, rfl, fun now hnow => ?_⟩
  rcases List.mem_cons.1 hnow with rfl | hlater
  · exact Nat.le_refl _
  · exact (List.pairwise_cons.1 h.sorted).1 now hlater

/-- On a clock, a call is as good as waiting when it is first looked at. -/
theorem watch_idle {seen : List Nat} (hseen : seen <+: nows) (hne : seen ≠ []) :
    c.watch stub seen .idle = c.watch stub seen (.waiting c.start) := by
  obtain ⟨later, rfl, -⟩ := h.eq_cons
  cases seen with
  | nil => exact absurd rfl hne
  | cons now seen =>
    obtain ⟨rfl, -⟩ := List.cons_prefix_cons.1 hseen
    rw [watch_cons, watch_cons, look_start]

theorem end_mem : c.start + (c.finish stub).1 ∈ nows := by
  rcases h.alarms _ (c.end_mem_instants stub) with hmem | hended
  · exact hmem
  · -- What ended before its end would have ended too early.
    exfalso
    obtain ⟨later, rfl, -⟩ := h.eq_cons
    rw [h.watch_idle List.prefix_rfl (List.cons_ne_nil _ _)] at hended
    cases hw : c.watch stub (c.start :: later) (.waiting c.start) with
    | idle | waiting =>
      rw [hw] at hended
      exact hended
    | ended instant result =>
      rw [hw] at hended
      have hle := c.le_of_watch_ended stub hw
      have hlt : instant < c.start + (c.finish stub).1 := hended
      omega

/-- On a clock, a call has not ended before its end, and has ended from then on. -/
theorem split : ∃ before behind, nows = before ++ (c.start + (c.finish stub).1) :: behind ∧
    (∀ seen, seen <+: before → ∀ instant result, c.watch stub seen .idle ≠ .ended instant result) ∧
    ∀ seen, seen <+: behind →
      c.watch stub (before ++ (c.start + (c.finish stub).1) :: seen) .idle =
        .ended (c.start + (c.finish stub).1) (c.finish stub).2 := by
  obtain ⟨before, behind, heq, hnot⟩ := List.eq_append_cons_of_mem h.end_mem
  have hbefore : ∀ now ∈ before, now < c.start + (c.finish stub).1 := by
    intro now hnow
    have hle : now ≤ c.start + (c.finish stub).1 := by
      have hsorted := h.sorted
      rw [heq] at hsorted
      exact (List.pairwise_append.1 hsorted).2.2 now hnow _ List.mem_cons_self
    have hne : now ≠ c.start + (c.finish stub).1 := fun he => hnot (he ▸ hnow)
    omega
  refine ⟨before, behind, heq, fun seen hseen instant result => ?_, fun seen hseen => ?_⟩
  · cases seen with
    | nil => exact Progress.noConfusion
    | cons now seen =>
      have hpre : now :: seen <+: nows := by
        rw [heq]
        exact hseen.trans (List.prefix_append before _)
      rw [h.watch_idle hpre (List.cons_ne_nil now seen), c.watch_before stub]
      · exact Progress.noConfusion
      · exact fun later hl => hbefore later (hseen.subset hl)
  · have hpre : before ++ (c.start + (c.finish stub).1) :: seen <+: nows := by
      rw [heq]
      exact (List.prefix_append_right_inj before).2 (List.cons_prefix_cons.2 ⟨rfl, hseen⟩)
    rw [h.watch_idle hpre (by simp)]
    exact c.watch_end stub hbefore seen

theorem watch_eq :
    c.watch stub nows .idle = .ended (c.start + (c.finish stub).1) (c.finish stub).2 := by
  obtain ⟨before, behind, rfl, -, hend⟩ := h.split
  exact hend behind List.prefix_rfl

end Timely

theorem calls_perform :
    ((Session.ofCalls stub []).perform c).calls =
      [(c, .ended (c.start + (c.finish stub).1) (c.finish stub).2)] := by
  rw [Session.calls_perform, Session.calls_ofCalls, Session.stub_ofCalls,
    (c.timely_instants stub).watch_eq]
  rfl

variable {c stub}

theorem answer?_eq_none [Allocator] {p : Progress} (h : ∀ instant result, p ≠ .ended instant result) :
    c.answer? p = none := by
  cases p with
  | idle | waiting => rfl
  | ended instant result => exact absurd rfl (h instant result)

/-- A table is made of a whole body, which only the reply has. -/
theorem exists_body_of_table [Allocator] {instant : Nat} {t : Table}
    (h : c.answer? (.ended instant (c.finish stub).2) = some (.ok (.ok t))) :
    ∃ r, stub.reply c.request = .ok r ∧ c.finish stub = (stub.delay.getD 0, .ok r) ∧
      r.isSuccess = true ∧ Query.decode r c.submission.format = .ok (.ok t) := by
  unfold finish at h ⊢
  cases hc : c.cancelledAfter? stub with
  | some k =>
    rw [hc] at h
    cases h
  | none =>
    cases ht : c.timedOutAfter? stub with
    | some k =>
      rw [hc, ht] at h
      cases h
    | none =>
      rw [hc, ht] at h
      obtain ⟨r, hr, hbody⟩ := Query.answer_eq_table_iff.1 (Option.some.inj h)
      exact ⟨r, hr, congrArg (Prod.mk _) hr, hbody⟩

/-- **A call ends once, at an instant and with an answer that its three times decide.** Until then it
has no answer, whatever looks at it and how often. The timer of the call and the timer of the service
agree, and there is no table but that of a whole body. -/
theorem ends_once [Allocator] (c : Call) (stub : Stub) :
    ((Session.ofCalls stub []).perform c).calls =
      [(c, .ended (c.start + (c.finish stub).1) (c.finish stub).2)] ∧
    (∀ nows, c.Timely stub nows →
      ∃ before behind, nows = before ++ (c.start + (c.finish stub).1) :: behind ∧
        (∀ seen, seen <+: before → c.answer? (c.watch stub seen .idle) = none) ∧
        ∀ seen, seen <+: behind →
          c.watch stub (before ++ (c.start + (c.finish stub).1) :: seen) .idle =
            .ended (c.start + (c.finish stub).1) (c.finish stub).2) ∧
    (∀ instant, c.answer? (.ended instant (c.finish stub).2) =
      some (match c.cancelledAfter? stub, c.timedOutAfter? stub with
        | some _, _ => .ok (.error (.transport .cancelled))
        | none, some _ => .ok (.error (.transport .timeout))
        | none, none => Query.answer c.submission.format (stub.reply c.request))) ∧
    (∀ since now, c.isOverdue since now = true →
      since + (stub.deliver c.request).after ≤ now) ∧
    (∀ t, c.timedOutAfter? stub = some t → stub.deliver c.request = ⟨t, .error .timeout⟩) ∧
    ∀ instant t, c.answer? (.ended instant (c.finish stub).2) = some (.ok (.ok t)) →
      ∃ r, stub.reply c.request = .ok r ∧ c.finish stub = (stub.delay.getD 0, .ok r) ∧
        r.isSuccess = true ∧ Query.decode r c.submission.format = .ok (.ok t) := by
  refine ⟨c.calls_perform stub, fun nows h => ?_, fun instant => ?_,
    fun since now => c.due_of_isOverdue stub, fun t ht => ?_,
    fun instant t => exists_body_of_table⟩
  · obtain ⟨before, behind, heq, hbefore, hend⟩ := h.split
    exact ⟨before, behind, heq, fun seen hseen => answer?_eq_none (hbefore seen hseen), hend⟩
  · unfold finish
    cases c.cancelledAfter? stub with
    | some k => rfl
    | none => cases c.timedOutAfter? stub <;> rfl
  · rw [deliver_eq, ht]

section

open scoped Allocator.Sized

/-- The delay and the timeout end together, before the cancellation: the reply is delivered. The
clock looks once too often, and does not go on to the cancellation. -/
theorem ends_once_tie :
    let stub : Stub := { Stub.empty with delay := some 5 }
    let c : Call := ⟨"SELECT 1", .post, some 5, some 7, 2⟩
    c.Timely stub [2, 4, 7] ∧
    ∃ before behind, [2, 4, 7] = before ++ 7 :: behind ∧
      (∀ seen, seen <+: before → c.answer? (c.watch stub seen .idle) = none) ∧
      ∀ seen, seen <+: behind → c.watch stub (before ++ 7 :: seen) .idle =
        .ended 7 (.ok ⟨404, none, .binary ByteArray.empty⟩) := by
  intro stub c
  have h : c.Timely stub [2, 4, 7] := {
    sorted := by decide
    starts := rfl
    alarms := by
      intro alarm halarm
      rcases (c.mem_instants stub).1 halarm with rfl | ⟨k, hk | hk | hk, rfl⟩
      · exact .inl (by decide)
      · cases hk
        exact .inl (by decide)
      · cases hk
        exact .inr (by decide : 7 < 9)
      · cases hk
        exact .inl (by decide) }
  exact ⟨h, (ends_once c stub).2.1 _ h⟩

end

end Call

end DataClient
