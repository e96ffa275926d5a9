import DataClient.Query.Call
import Mathlib.Tactic.SplitIfs

/-!
# Runs of a session

A session looks at one of its calls, then at one of its calls again, and so on. A look changes
nothing about the other calls, so what a call comes to is decided by the looks at this call alone, in
their order: it is what `Call.watch` makes of their instants (`Session.getElem?_run`).
-/

set_option autoImplicit false

namespace DataClient

namespace Call

variable (c : Call) (stub : Stub)

/-- What a call comes to that is looked at at one instant after another. -/
def watch (nows : List Nat) (p : Progress) : Progress :=
  nows.foldl (fun p now => (c.look stub now p).1) p

@[simp] theorem watch_nil (p : Progress) : c.watch stub [] p = p := rfl

@[simp] theorem watch_cons (now : Nat) (nows : List Nat) (p : Progress) :
    c.watch stub (now :: nows) p = c.watch stub nows (c.look stub now p).1 := rfl

theorem watch_append (nows later : List Nat) (p : Progress) :
    c.watch stub (nows ++ later) p = c.watch stub later (c.watch stub nows p) :=
  List.foldl_append

@[simp] theorem watch_ended (nows : List Nat) (instant : Nat)
    (result : Except TransportError Response) :
    c.watch stub nows (.ended instant result) = .ended instant result := by
  induction nows with
  | nil => rfl
  | cons now nows ih => exact ih

theorem look_idle (now : Nat) :
    c.look stub now .idle =
      if c.isCancelled now then (.ended now (.error .cancelled), none)
      else (c.await stub now now, some c.request) := rfl

theorem look_waiting (since now : Nat) :
    c.look stub now (.waiting since) =
      if c.isCancelled now then (.ended now (.error .cancelled), none)
      else (c.await stub since now, none) := rfl

/-- The first look at a call sends its request, unless the call is cancelled by then. No other look
sends anything. -/
theorem look_snd (now : Nat) (p : Progress) :
    (c.look stub now p).2 =
      match p with
      | .idle => if c.isCancelled now then none else some c.request
      | _ => none := by
  cases p with
  | idle =>
    rw [look_idle]
    split_ifs <;> rfl
  | waiting since =>
    rw [look_waiting]
    split_ifs <;> rfl
  | ended => rfl

theorem await_ne_idle (since now : Nat) : c.await stub since now ≠ .idle := by
  unfold await
  dsimp only
  split_ifs <;> simp

theorem look_fst_ne_idle (now : Nat) (p : Progress) : (c.look stub now p).1 ≠ .idle := by
  cases p with
  | idle =>
    rw [look_idle]
    split_ifs
    · simp
    · exact c.await_ne_idle stub now now
  | waiting since =>
    rw [look_waiting]
    split_ifs
    · simp
    · exact c.await_ne_idle stub since now
  | ended => exact Progress.noConfusion

theorem watch_eq_idle_iff {nows : List Nat} {p : Progress} :
    c.watch stub nows p = .idle ↔ nows = [] ∧ p = .idle := by
  induction nows generalizing p with
  | nil => simp
  | cons now nows ih =>
    rw [watch_cons, ih]
    simp [c.look_fst_ne_idle stub now p]

end Call

namespace Session

/-- The instants of the looks at one of the calls. -/
def looksAt (index : Nat) (looks : List (Nat × Nat)) : List Nat :=
  looks.filterMap fun l => if l.1 = index then some l.2 else none

@[simp] theorem looksAt_nil (index : Nat) : looksAt index [] = [] := rfl

theorem looksAt_cons (index : Nat) (l : Nat × Nat) (looks : List (Nat × Nat)) :
    looksAt index (l :: looks) =
      if l.1 = index then l.2 :: looksAt index looks else looksAt index looks := by
  unfold looksAt
  rw [List.filterMap_cons]
  split_ifs <;> rfl

theorem looksAt_append (index : Nat) (looks later : List (Nat × Nat)) :
    looksAt index (looks ++ later) = looksAt index looks ++ looksAt index later :=
  List.filterMap_append

@[simp] theorem looksAt_map_same (index : Nat) (nows : List Nat) :
    looksAt index (nows.map fun now => (index, now)) = nows := by
  induction nows with
  | nil => rfl
  | cons now nows ih => rw [List.map_cons, looksAt_cons, if_pos rfl, ih]

theorem looksAt_map_other {index other : Nat} (h : other ≠ index) (nows : List Nat) :
    looksAt index (nows.map fun now => (other, now)) = [] := by
  induction nows with
  | nil => rfl
  | cons now nows ih => rw [List.map_cons, looksAt_cons, if_neg h, ih]

variable (s : Session)

@[simp] theorem look_stub (index now : Nat) : (s.look index now).stub = s.stub := by
  unfold look
  split <;> rfl

@[simp] theorem run_stub (looks : List (Nat × Nat)) : (s.run looks).stub = s.stub := by
  induction looks generalizing s with
  | nil => rfl
  | cons l looks ih => exact (ih (s.look l.1 l.2)).trans (s.look_stub l.1 l.2)

theorem run_append (looks later : List (Nat × Nat)) :
    s.run (looks ++ later) = (s.run looks).run later :=
  List.foldl_append

theorem getElem?_look (index now i : Nat) :
    (s.look index now).calls[i]? =
      if index = i then s.calls[i]?.map fun (c, p) => (c, (c.look s.stub now p).1)
      else s.calls[i]? := by
  unfold look
  cases h : s.calls[index]? with
  | none =>
    by_cases hi : index = i
    · subst hi
      simp [h]
    · rw [if_neg hi]
  | some cp =>
    by_cases hi : index = i
    · subst hi
      have hlt : index < s.calls.length := (List.getElem?_eq_some_iff.1 h).1
      rw [if_pos rfl, h]
      exact List.getElem?_set_self hlt
    · rw [if_neg hi]
      exact List.getElem?_set_ne hi

@[simp] theorem length_calls_look (index now : Nat) :
    (s.look index now).calls.length = s.calls.length := by
  unfold look
  split <;> simp

@[simp] theorem length_calls_run (looks : List (Nat × Nat)) :
    (s.run looks).calls.length = s.calls.length := by
  induction looks generalizing s with
  | nil => rfl
  | cons l looks ih => exact (ih (s.look l.1 l.2)).trans (s.length_calls_look l.1 l.2)

/-- **Each call goes its own way.** What a call comes to in a session is what the looks at this call
make of it. -/
theorem getElem?_run (looks : List (Nat × Nat)) (i : Nat) :
    (s.run looks).calls[i]? =
      s.calls[i]?.map fun (c, p) => (c, c.watch s.stub (looksAt i looks) p) := by
  -- A look at call `i` is the first look of its projection; a look at another call is in no
  -- projection of `i` and leaves it alone.
  induction looks generalizing s with
  | nil => simp [run]
  | cons l looks ih =>
    have hstep : s.run (l :: looks) = (s.look l.1 l.2).run looks := rfl
    rw [hstep, ih, getElem?_look, look_stub, looksAt_cons]
    split_ifs with h
    · rw [Option.map_map]
      rfl
    · rfl

/-- A call that is made after others changes nothing about them, and nothing about it depends on
them. -/
theorem calls_perform (c : Call) :
    (s.perform c).calls =
      s.calls ++ [(c, c.watch s.stub (c.instants s.stub) .idle)] := by
  -- All looks are at the call that is added, behind the last of the others.
  apply List.ext_getElem?
  intro i
  rw [perform, getElem?_run]
  rcases Nat.lt_trichotomy i s.calls.length with h | rfl | h
  · rw [looksAt_map_other (Nat.ne_of_gt h), List.getElem?_append_left h,
      List.getElem?_append_left h]
    simp
  · simp
  · have hout (cp : Call × Progress) : (s.calls ++ [cp])[i]? = none := by
      rw [List.getElem?_eq_none_iff, List.length_append]
      exact h
    rw [hout, hout]
    rfl

@[simp] theorem calls_ofCalls (stub : Stub) (calls : List Call) :
    (ofCalls stub calls).calls = calls.map fun c => (c, Progress.idle) := rfl

@[simp] theorem stub_ofCalls (stub : Stub) (calls : List Call) :
    (ofCalls stub calls).stub = stub := rfl

end Session

end DataClient
