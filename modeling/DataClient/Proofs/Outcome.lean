import DataClient.Arrow.Frame

/-!
# Outcomes

Checks and conversions have three ways to end: with a result, with an error of the payload, or with
a crash. A sequence of steps ends with a result only if every step does, and it crashes only if one
of its steps crashes; these two facts are all that later proofs use of the layers.
-/

set_option autoImplicit false

namespace DataClient.Outcome

variable {ε κ α β : Type}

@[simp] theorem pure_inj {a b : α} : (pure a : ExceptT ε (Except κ) α) = pure b ↔ a = b := by
  constructor
  · intro h
    injection h with h
    injection h
  · intro h
    rw [h]

/-- A sequence ends with a result exactly if both of its steps do. -/
theorem bind_eq_pure {x : ExceptT ε (Except κ) α} {f : α → ExceptT ε (Except κ) β} {r : β} :
    x >>= f = pure r ↔ ∃ a, x = pure a ∧ f a = pure r := by
  constructor
  · intro h
    match x, h with
    | .error c, h => exact absurd h (by intro h; cases h)
    | .ok (.error e), h => exact absurd h (by intro h; cases h)
    | .ok (.ok a), h => exact ⟨a, rfl, h⟩
  · rintro ⟨a, rfl, h⟩
    exact h

/-- The same of steps that do not crash. -/
theorem bind_eq_ok {x : Except ε α} {f : α → Except ε β} {r : β} :
    x >>= f = .ok r ↔ ∃ a, x = .ok a ∧ f a = .ok r := by
  cases x with
  | error e => exact ⟨fun h => (by cases h), fun ⟨_, h, _⟩ => (by cases h)⟩
  | ok a => exact ⟨fun h => ⟨a, rfl, h⟩, fun ⟨_, h, hf⟩ => (by cases h; exact hf)⟩

theorem bind_eq_error {x : Except ε α} {f : α → Except ε β} {e : ε} :
    x >>= f = .error e ↔ x = .error e ∨ ∃ a, x = .ok a ∧ f a = .error e := by
  cases x with
  | error _ =>
    constructor
    · intro h
      cases h
      exact .inl rfl
    · rintro (h | ⟨_, h, _⟩) <;> cases h
      rfl
  | ok a =>
    constructor
    · exact fun h => .inr ⟨a, rfl, h⟩
    · rintro (h | ⟨_, h, hf⟩) <;> cases h
      exact hf

/-- A sequence that begins with a check ends with a result only if the check passes. -/
theorem check_eq_ok {c : Prop} [Decidable c] {e : ε} {f : PUnit → Except ε α} {r : α} :
    (if c then throw e >>= f else f ⟨⟩) = .ok r ↔ ¬ c ∧ f ⟨⟩ = .ok r := by
  by_cases hc : c
  · rw [if_pos hc]
    exact ⟨fun h => (by cases h), fun h => absurd hc h.1⟩
  · rw [if_neg hc]
    exact ⟨fun h => ⟨hc, h⟩, fun h => h.2⟩

theorem mapError_eq_ok {ε' : Type} {g : ε → ε'} {x : Except ε α} {a : α} :
    x.mapError g = .ok a ↔ x = .ok a := by
  cases x with
  | error e => exact ⟨fun h => (by cases h), fun h => (by cases h)⟩
  | ok b => exact ⟨fun h => (by cases h; rfl), fun h => (by cases h; rfl)⟩

theorem map_eq_ok {f : α → β} {x : Except ε α} {b : β} : x.map f = .ok b ↔ ∃ a, x = .ok a ∧ f a = b := by
  cases x with
  | error e => exact ⟨fun h => (by cases h), fun ⟨_, h, _⟩ => (by cases h)⟩
  | ok a => exact ⟨fun h => ⟨a, rfl, Except.ok.inj h⟩, fun ⟨_, h, hf⟩ => (by cases h; rw [← hf]; rfl)⟩

theorem mapError_eq_error {ε' : Type} {g : ε → ε'} {x : Except ε α} {e : ε'} :
    x.mapError g = .error e ↔ ∃ d, x = .error d ∧ g d = e := by
  cases x with
  | error d =>
    constructor
    · intro h
      cases h
      exact ⟨d, rfl, rfl⟩
    · rintro ⟨_, h, rfl⟩
      cases h
      rfl
  | ok b => exact ⟨fun h => (by cases h), fun ⟨_, h, _⟩ => (by cases h)⟩

theorem toOption_eq_some {x : Except ε α} {a : α} : x.toOption = some a ↔ x = .ok a := by
  cases x with
  | error e => exact ⟨fun h => (by cases h), fun h => (by cases h)⟩
  | ok b => exact ⟨fun h => (by cases h; rfl), fun h => (by cases h; rfl)⟩

/-- It ends with a result of a property. -/
def Yields (x : ExceptT ε (Except κ) α) (p : α → Prop) : Prop := ∃ a, x = pure a ∧ p a

instance (x : ExceptT ε (Except κ) α) (p : α → Prop) [DecidablePred p] : Decidable (Yields x p) :=
  match x with
  | .error _ => .isFalse fun ⟨_, h, _⟩ => nomatch h
  | .ok (.error _) => .isFalse fun ⟨_, h, _⟩ => nomatch h
  | .ok (.ok a) =>
    if h : p a then .isTrue ⟨a, rfl, h⟩
    else .isFalse fun ⟨_, ha, hp⟩ => h (pure_inj.1 ha ▸ hp)

/-- It does not crash. -/
def Safe (x : ExceptT ε (Except κ) α) : Prop := ∃ r, x.run = .ok r

theorem Safe.pure (a : α) : Safe (pure a : ExceptT ε (Except κ) α) := ⟨.ok a, rfl⟩

/-- A sequence does not crash if its first step does not, nor its second after any result of the
first. -/
theorem Safe.bind {x : ExceptT ε (Except κ) α} {f : α → ExceptT ε (Except κ) β} (hx : Safe x)
    (hf : ∀ a, x = Pure.pure a → Safe (f a)) : Safe (x >>= f) := by
  obtain ⟨r, hr⟩ := hx
  cases r with
  | error e =>
    have hx : x = .ok (.error e) := hr
    exact ⟨.error e, by rw [hx]; rfl⟩
  | ok a =>
    have hx : x = .ok (.ok a) := hr
    obtain ⟨s, hs⟩ := hf a hx
    exact ⟨s, by rw [hx]; exact hs⟩

/-- Why a sequence of steps ends without a result: an error of the payload, or a crash. -/
def stop? : ExceptT ε (Except κ) α → Option (ε ⊕ κ)
  | .error c => some (.inr c)
  | .ok (.error e) => some (.inl e)
  | .ok (.ok _) => none

@[simp] theorem stop?_pure (a : α) : stop? (pure a : ExceptT ε (Except κ) α) = none := rfl

theorem stop?_eq_none {x : ExceptT ε (Except κ) α} : stop? x = none ↔ ∃ a, x = pure a := by
  constructor
  · intro h
    match x, h with
    | .ok (.ok a), _ => exact ⟨a, rfl⟩
  · rintro ⟨a, rfl⟩
    rfl

/-- Steps stop where the first of them does, if the others stop in one way after any result of the
first. -/
theorem stop?_bind {x : ExceptT ε (Except κ) α} {f : α → ExceptT ε (Except κ) β}
    {s : Option (ε ⊕ κ)} (h : ∀ a, x = pure a → stop? (f a) = s) :
    stop? (x >>= f) = (stop? x).or s := by
  match x, h with
  | .error c, _ => rfl
  | .ok (.error e), _ => rfl
  | .ok (.ok a), h => exact h a rfl

end DataClient.Outcome

namespace DataClient.Arrow.Checked

variable {α : Type}

theorem refuse_ne_pure {e : PayloadFault} {a : α} : (refuse e : Checked α) ≠ pure a := by
  intro h
  injection h with h
  cases h

/-- A step that is taken unless there is a reason to refuse. -/
theorem ite_refuse_eq_pure {p : Prop} [Decidable p] {e : PayloadFault} {x : Checked α} {a : α} :
    (if p then refuse e else x) = pure a ↔ ¬ p ∧ x = pure a := by
  by_cases hp : p
  · rw [if_pos hp]
    exact ⟨fun h => absurd h refuse_ne_pure, fun h => absurd hp h.1⟩
  · rw [if_neg hp, and_iff_right hp]

/-- A step that is taken only if there is a reason for it. -/
theorem ite_else_refuse_eq_pure {p : Prop} [Decidable p] {e : PayloadFault} {x : Checked α} {a : α} :
    (if p then x else refuse e) = pure a ↔ p ∧ x = pure a := by
  by_cases hp : p
  · rw [if_pos hp, and_iff_right hp]
  · rw [if_neg hp]
    exact ⟨fun h => absurd h refuse_ne_pure, fun h => absurd h.1 hp⟩

theorem safe_refuse (e : PayloadFault) : Outcome.Safe (refuse e : Checked α) := ⟨.error e, rfl⟩

/-- A check that does not crash either refuses the payload or goes on. -/
theorem refuse_or_pure {x : Checked α} (h : Outcome.Safe x) :
    (∃ e, x = refuse e) ∨ ∃ a, x = pure a := by
  obtain ⟨r, hr⟩ := h
  cases r with
  | error e => exact .inl ⟨e, hr⟩
  | ok a => exact .inr ⟨a, hr⟩

end DataClient.Arrow.Checked
