import DataClient.Proofs.Json.Reader

/-!
# What readers take from a text

A reader takes a source if it reads a value from it and leaves everything behind it, wherever in a
text the source stands (`Takes`). What follows matters to a reader only through its first character,
and even that only as far as it may go on with the value: `Alike` says when two characters are the
same in this respect. A reader is local if it takes whatever it reads (`Local`), so that the text
around a value can be exchanged.

Loops are given as much fuel as there is text. `Paced` says that what a loop takes does not depend on
how much more text there is.
-/

set_option autoImplicit false

namespace DataClient.Json.Reader

variable {α β σ : Type}

/-! ## Sources -/

/-- `r` reads `a` from `source` and leaves what follows, if that is as `F` says. -/
def Takes (F : List Char → Prop) (r : Reader α) (d : Nat) (source : List Char) (a : α) : Prop :=
  ∀ o rest, F rest → ∃ o', r ⟨o, source ++ rest, d⟩ = .ok a ⟨o', rest, d⟩

theorem bind_eq_ok {x : Reader α} {f : α → Reader β} {c c' : Cursor} {b : β} :
    (x >>= f) c = .ok b c' ↔ ∃ a c₁, x c = .ok a c₁ ∧ f a c₁ = .ok b c' := by
  change EStateM.bind x f c = .ok b c' ↔ _
  unfold EStateM.bind
  constructor
  · intro h
    split at h
    · rename_i a c₁ ha
      exact ⟨a, c₁, ha, h⟩
    · cases h
  · rintro ⟨a, c₁, ha, h⟩
    rw [ha]
    exact h

theorem located_eq_ok {x : Reader α} {c c' : Cursor} {a : α} :
    Reader.located x c = .ok a c' ↔ x c = .ok a c' := by
  unfold Reader.located
  split
  · rename_i h
    rw [h]
    exact ⟨fun h => (by cases h), fun h => (by cases h)⟩
  · exact Iff.rfl

/-- Nothing is ever read. -/
def Refuses (r : Reader α) : Prop := ∀ c a c', r c ≠ .ok a c'

theorem Refuses.bind {x : Reader α} {f : α → Reader β} (hf : ∀ a, Refuses (f a)) :
    Refuses (x >>= f) := by
  intro c b c' h
  obtain ⟨a, c₁, -, ha⟩ := bind_eq_ok.1 h
  exact hf a c₁ b c' ha

theorem Refuses.bind_left {x : Reader α} {f : α → Reader β} (hx : Refuses x) : Refuses (x >>= f) := by
  intro c b c' h
  obtain ⟨a, c₁, ha, -⟩ := bind_eq_ok.1 h
  exact hx c a c₁ ha

theorem refuses_failHere (cause : Cause) : Refuses (failHere cause : Reader α) :=
  fun _ _ _ h => by cases h

theorem refuses_failNext (cause : Cause) : Refuses (failNext cause : Reader α) :=
  fun _ _ _ h => by cases h

theorem refuses_failShape (cause : Cause) : Refuses (failShape cause : Reader α) :=
  fun _ _ _ h => by cases h

theorem refuses_unexpected (expected : String) : Refuses (unexpected expected : Reader α) :=
  fun c a c' h => ensures_unexpected (P := fun _ => False) c a c' h

/-- A step that is taken unless there is a reason to refuse. -/
theorem ite_eq_ok {p : Prop} [Decidable p] {x y : Reader α} {c c' : Cursor} {a : α}
    (hx : Refuses x) : (if p then x else y) c = .ok a c' ↔ ¬ p ∧ y c = .ok a c' := by
  by_cases hp : p
  · rw [if_pos hp]
    exact ⟨fun h => absurd h (hx c a c'), fun h => absurd hp h.1⟩
  · rw [if_neg hp, and_iff_right hp]

/-- A step that is taken only if there is a reason for it. -/
theorem of_ite_eq_ok {p : Prop} [Decidable p] {x y : Reader α} {c c' : Cursor} {a : α}
    (hy : Refuses y) (h : (if p then x else y) c = .ok a c') : p := by
  by_contra hp
  rw [if_neg hp] at h
  exact hy c a c' h

section Takes

variable {F G : List Char → Prop} {x : Reader α} {f : α → Reader β} {d : Nat} {a : α} {b : β}
  {s t : List Char}

theorem Takes.mono (h : Takes F x d s a) (hFG : ∀ rest, G rest → F rest) : Takes G x d s a :=
  fun o rest hrest => h o rest (hFG rest hrest)

theorem Takes.pure (F : List Char → Prop) (d : Nat) (a : α) : Takes F (Pure.pure a) d [] a :=
  fun o _ _ => ⟨o, rfl⟩

/-- A sequence takes what its steps take, one behind the other. -/
theorem Takes.bind (hx : Takes F x d s a) (hf : Takes G (f a) d t b)
    (h : ∀ rest, G rest → F (t ++ rest)) : Takes G (x >>= f) d (s ++ t) b := by
  intro o rest hrest
  obtain ⟨o₁, h₁⟩ := hx o (t ++ rest) (h rest hrest)
  obtain ⟨o₂, h₂⟩ := hf o₁ rest hrest
  refine ⟨o₂, bind_eq_ok.2 ⟨a, _, ?_, h₂⟩⟩
  rw [List.append_assoc]
  exact h₁

theorem Takes.then_pure {g : α → β} (hx : Takes F x d s a) :
    Takes F (x >>= fun a => Pure.pure (g a)) d s (g a) := by
  intro o rest hrest
  obtain ⟨o', h'⟩ := hx o rest hrest
  exact ⟨o', bind_eq_ok.2 ⟨a, _, h', rfl⟩⟩

theorem Takes.located (h : Takes F x d s a) : Takes F (Reader.located x) d s a := by
  intro o rest hrest
  obtain ⟨o', h'⟩ := h o rest hrest
  exact ⟨o', located_eq_ok.2 h'⟩

end Takes

/-! ## Readers that take what they read -/

/-- The characters that stand between values. -/
def isDelimiter (x : Char) : Bool := isSpace x || x = ',' || x = ']' || x = '}'

/-- What follows a value may be exchanged: it is the same, or it delimits the value either way. -/
def Alike (h h' : Option Char) : Prop :=
  h = h' ∨ ∃ x y, h = some x ∧ h' = some y ∧ isDelimiter x = true ∧ isDelimiter y = true

theorem Alike.refl (h : Option Char) : Alike h h := .inl rfl

/-- What is read is taken from the front of the text, also where the text behind it is another one, as
far as `P` says so of the first characters behind it. -/
def Local (P : α → Option Char → Option Char → Prop) (r : Reader α) : Prop :=
  ∀ c a c', r c = .ok a c' → c'.depth = c.depth ∧ ∃ source, c.rest = source ++ c'.rest ∧
    Takes (fun rest => P a c'.rest.head? rest.head?) r c.depth source a

/-- The text may change behind the first character. -/
abbrev Fixed (r : Reader α) : Prop := Local (fun _ => Eq) r

/-- The text may change, if it delimits a value. -/
abbrev Closed (r : Reader α) : Prop := Local (fun _ => Alike) r

/-- A reader of values, for texts that begin with `h`: it is closed, and it takes something. -/
structure ReadsAt (h : Option Char) (r : Reader α) : Prop where
  closed : Closed r
  consumes : ∀ c a c', c.rest.head? = h → r c = .ok a c' → c'.rest.length < c.rest.length

/-- A reader of values. -/
def ReadsValue (r : Reader α) : Prop := ∀ h, ReadsAt h r

section Local

variable {P : α → Option Char → Option Char → Prop} {Q : β → Option Char → Option Char → Prop}
  {x : Reader α} {f : α → Reader β}

theorem Local.mono {P' : α → Option Char → Option Char → Prop} (h : Local P x)
    (hP : ∀ a h h', P' a h h' → P a h h') : Local P' x := by
  intro c a c' hx
  obtain ⟨hd, s, hs, ht⟩ := h c a c' hx
  exact ⟨hd, s, hs, ht.mono fun rest => hP a _ _⟩

theorem Closed.fixed (h : Closed x) : Fixed x := h.mono fun _ _ _ h => .inl h

/-- A reader that never succeeds. -/
theorem Local.of_refuses (h : Refuses x) : Local P x :=
  fun c a c' hx => absurd hx (h c a c')

theorem Local.pure {a : α} : Local P (Pure.pure a) := by
  intro c b c' h
  cases h
  exact ⟨rfl, [], rfl, .pure _ _ _⟩

theorem Local.ite {c : Prop} [Decidable c] {y : Reader α} (hx : c → Local P x) (hy : ¬ c → Local P y) :
    Local P (if c then x else y) := by
  by_cases hc : c
  · rw [if_pos hc]
    exact hx hc
  · rw [if_neg hc]
    exact hy hc

theorem Local.length_le (h : Local P x) {c c' : Cursor} {a : α} (hx : x c = .ok a c') :
    c'.rest.length ≤ c.rest.length := by
  obtain ⟨-, s, hs, -⟩ := h c a c' hx
  rw [hs, List.length_append]
  omega

/-- A sequence is local in the way of its second step, where the first does not look at more than the
second takes. -/
theorem Local.bind_of (hP : ∀ a h, P a h h) (hx : Local P x) (hf : ∀ a, Local Q (f a))
    (h : ∀ c a c₁ b c₂, x c = .ok a c₁ → f a c₁ = .ok b c₂ →
      c₂.rest.length < c₁.rest.length ∨ ∀ h h', Q b h h' → P a h h') : Local Q (x >>= f) := by
  intro c b c₂ hb
  obtain ⟨a, c₁, ha, hfa⟩ := bind_eq_ok.1 hb
  obtain ⟨hd₁, s, hs, hs'⟩ := hx c a c₁ ha
  obtain ⟨hd₂, t, ht, ht'⟩ := hf a c₁ b c₂ hfa
  refine ⟨hd₂.trans hd₁, s ++ t, by rw [hs, ht, List.append_assoc], ?_⟩
  rw [hd₁] at ht'
  refine hs'.bind ht' fun rest hrest => ?_
  cases t with
  | cons y t =>
    rw [ht]
    exact hP a _
  | nil =>
    rcases h c a c₁ b c₂ ha hfa with hlt | hQ
    · rw [ht] at hlt
      exact absurd hlt (Nat.lt_irrefl _)
    · rw [ht]
      exact hQ _ _ hrest

theorem Fixed.bind (hx : Fixed x) (hf : ∀ a, Fixed (f a)) : Fixed (x >>= f) :=
  hx.bind_of (fun _ _ => rfl) hf fun _ _ _ _ _ _ _ => .inr fun _ _ h => h

theorem Closed.bind (hx : Closed x) (hf : ∀ a, Closed (f a)) : Closed (x >>= f) :=
  hx.bind_of (fun _ => Alike.refl) hf fun _ _ _ _ _ _ _ => .inr fun _ _ h => h

theorem Local.located (h : Local P x) : Local P (Reader.located x) := by
  intro c a c' hx
  obtain ⟨hd, s, hs, ht⟩ := h c a c' (located_eq_ok.1 hx)
  exact ⟨hd, s, hs, ht.located⟩

/-- The first step tells the next character, and the second takes that at least. -/
theorem Fixed.look {head : α → Option Char} (hx : Fixed x)
    (hhead : ∀ c a c', x c = .ok a c' → c'.rest.head? = head a)
    (hf : ∀ a, ReadsAt (head a) (f a)) : ReadsValue (x >>= f) := by
  refine fun h => ⟨hx.bind_of (fun _ _ => rfl) (fun a => (hf a).closed) fun c a c₁ b c₂ ha hb =>
    .inl ((hf a).consumes c₁ b c₂ (hhead c a c₁ ha) hb), fun c b c₂ _ hb => ?_⟩
  obtain ⟨a, c₁, ha, hfa⟩ := bind_eq_ok.1 hb
  exact Nat.lt_of_lt_of_le ((hf a).consumes c₁ b c₂ (hhead c a c₁ ha) hfa) (hx.length_le ha)

section Values

variable {h : Option Char}

theorem ReadsAt.of_refuses (hx : Refuses x) : ReadsAt h x :=
  ⟨.of_refuses hx, fun c a c' _ ha => absurd ha (hx c a c')⟩

theorem ReadsAt.length_lt_of_bind (hx : ReadsAt h x) (hf : ∀ a, Local Q (f a)) {c c' : Cursor} {b : β}
    (hc : c.rest.head? = h) (hb : (x >>= f) c = .ok b c') : c'.rest.length < c.rest.length := by
  obtain ⟨a, c₁, ha, hfa⟩ := bind_eq_ok.1 hb
  exact Nat.lt_of_le_of_lt ((hf a).length_le hfa) (hx.consumes c a c₁ hc ha)

theorem ReadsAt.bind (hx : ReadsAt h x) (hf : ∀ a, Closed (f a)) : ReadsAt h (x >>= f) :=
  ⟨hx.closed.bind hf, fun _ _ _ hc hb => hx.length_lt_of_bind hf hc hb⟩

theorem ReadsAt.ite {c : Prop} [Decidable c] {y : Reader α} (hx : c → ReadsAt h x)
    (hy : ¬ c → ReadsAt h y) : ReadsAt h (if c then x else y) := by
  by_cases hc : c
  · rw [if_pos hc]
    exact hx hc
  · rw [if_neg hc]
    exact hy hc

/-- Only what is read matters, not how the rest is refused. -/
theorem ReadsAt.of_iff {y : Reader α} (hx : ReadsAt h x)
    (hxy : ∀ c a c', y c = .ok a c' ↔ x c = .ok a c') : ReadsAt h y := by
  refine ⟨fun c a c' ha => ?_, fun c a c' hc ha => hx.consumes c a c' hc ((hxy c a c').1 ha)⟩
  obtain ⟨hd, s, hs, ht⟩ := hx.closed c a c' ((hxy c a c').1 ha)
  refine ⟨hd, s, hs, fun o rest hrest => ?_⟩
  obtain ⟨o', h'⟩ := ht o rest hrest
  exact ⟨o', (hxy _ _ _).2 h'⟩

theorem ReadsValue.closed (hx : ReadsValue x) : Closed x := (hx none).closed

theorem ReadsValue.length_lt (hx : ReadsValue x) {c c' : Cursor} {a : α} (ha : x c = .ok a c') :
    c'.rest.length < c.rest.length :=
  (hx _).consumes c a c' rfl ha

theorem ReadsValue.bind (hx : ReadsValue x) (hf : ∀ a, Closed (f a)) : ReadsValue (x >>= f) :=
  fun h => (hx h).bind hf

theorem ReadsValue.located (hx : ReadsValue x) : ReadsValue (Reader.located x) :=
  fun _ => ⟨hx.closed.located, fun _ _ _ _ ha => hx.length_lt (located_eq_ok.1 ha)⟩

end Values

end Local

/-! ## Single characters -/

section Characters

variable {f : Option Char → Reader α}

theorem forall_delimiter {p : Char → Prop} : (∀ x, isDelimiter x = true → p x) ↔
    p ' ' ∧ p '\n' ∧ p '\t' ∧ p '\r' ∧ p ',' ∧ p ']' ∧ p '}' := by
  simp only [isDelimiter, isSpace, Bool.or_eq_true, decide_eq_true_eq, or_imp, forall_and,
    forall_eq, and_assoc]

/-- What is done next may depend on the next character, but not on which delimiter it is. -/
theorem closed_peek (hf : ∀ h, Closed (f h))
    (hsame : ∀ x, isDelimiter x = true → f (some x) = f (some ',')) : Closed (peek >>= f) := by
  intro c b c₂ hb
  obtain ⟨a, c₁, ha, hfa⟩ := bind_eq_ok.1 hb
  cases ha
  obtain ⟨hd, s, hs, ht⟩ := hf _ c b c₂ hfa
  refine ⟨hd, s, hs, fun o rest hrest => ?_⟩
  have hnext : f (s ++ rest).head? = f c.rest.head? := by
    rw [hs]
    cases s with
    | cons y s => rfl
    | nil =>
      rcases hrest with hsame' | ⟨x, y, hx, hy, hdx, hdy⟩
      · rw [List.nil_append, List.nil_append, hsame']
      · rw [List.nil_append, List.nil_append, hx, hy]
        exact (hsame y hdy).trans (hsame x hdx).symm
  obtain ⟨o', h'⟩ := ht o rest hrest
  refine ⟨o', bind_eq_ok.2 ⟨_, _, rfl, ?_⟩⟩
  rw [hnext]
  exact h'

theorem Alike.eq_none {h : Option Char} (h' : Alike none h) : h = none := by
  rcases h' with h' | ⟨x, y, hx, -⟩
  · exact h'.symm
  · cases hx

/-- What is read behind the next character is read without it. -/
theorem skip_bind_eq_ok {f : Unit → Reader α} {c c' : Cursor} {a : α} {x : Char} {t : List Char}
    (hrest : c.rest = x :: t) : (skip >>= f) c = .ok a c' ↔
      f () { c with offset := c.offset + x.utf8Size, rest := t } = .ok a c' := by
  obtain ⟨o, cs, d⟩ := c
  cases hrest
  rfl

theorem closed_skip : Closed skip := by
  intro c a c' h
  unfold skip at h
  split at h
  · rename_i hrest
    cases h
    refine ⟨rfl, [], rfl, fun o rest halike => ⟨o, ?_⟩⟩
    rw [hrest] at halike
    rw [List.head?_eq_none_iff.1 halike.eq_none]
    rfl
  · rename_i x xs hrest
    cases h
    exact ⟨rfl, [x], hrest, fun o rest _ => ⟨_, rfl⟩⟩

theorem readsAt_skip (x : Char) : ReadsAt (some x) skip := by
  refine ⟨closed_skip, fun c a c' hx h => ?_⟩
  unfold skip at h
  split at h
  · rename_i hrest
    rw [hrest] at hx
    cases hx
  · rename_i y xs hrest
    cases h
    rw [hrest]
    exact Nat.lt_succ_self _

theorem closed_next : Closed next := by
  rintro ⟨o, cs, d⟩ a c' h
  cases cs with
  | nil =>
    cases h
    refine ⟨rfl, [], rfl, fun o rest hrest => ⟨o, ?_⟩⟩
    rw [List.head?_eq_none_iff.1 hrest.eq_none]
    rfl
  | cons x xs =>
    cases h
    exact ⟨rfl, [x], rfl, fun o rest _ => ⟨_, rfl⟩⟩

/-- Where a reader fails at the end of the text, taking a character first takes something. -/
theorem readsValue_next (hnone : Refuses (f none)) (hf : ∀ h, Closed (f h)) :
    ReadsValue (next >>= f) := by
  refine fun h => ⟨closed_next.bind hf, ?_⟩
  rintro ⟨o, cs, d⟩ b c₂ - hb
  obtain ⟨a, c₁, ha, hfa⟩ := bind_eq_ok.1 hb
  cases cs with
  | nil =>
    cases ha
    exact absurd hfa (hnone _ _ _)
  | cons x xs =>
    cases ha
    exact Nat.lt_of_le_of_lt ((hf _).length_le hfa) (Nat.lt_succ_self _)

theorem closed_ident (cs : List Char) : Closed (ident cs) := by
  induction cs with
  | nil => exact .pure
  | cons x xs ih =>
    refine closed_next.bind fun h => ?_
    cases h with
    | none => exact .of_refuses (refuses_failHere _)
    | some y =>
      exact .ite (fun _ => ih) fun _ => .of_refuses fun _ _ _ h => by cases h

end Characters

/-! ## Spaces -/

/-- Spaces only. -/
def Spaces (cs : List Char) : Prop := ∀ x ∈ cs, isSpace x = true

theorem takeWhile_append_of_head? {p : Char → Bool} {s rest : List Char} (hs : ∀ x ∈ s, p x = true)
    (hrest : ∀ x, rest.head? = some x → p x = false) :
    (s ++ rest).takeWhile p = s ∧ (s ++ rest).dropWhile p = rest := by
  have hstop : rest.takeWhile p = [] ∧ rest.dropWhile p = rest := by
    cases rest with
    | nil => exact ⟨rfl, rfl⟩
    | cons x rest => simp [hrest x rfl]
  induction s with
  | nil => exact hstop
  | cons x s ih =>
    obtain ⟨hx, hs⟩ := List.forall_mem_cons.1 hs
    obtain ⟨htake, hdrop⟩ := ih hs
    simp [hx, htake, hdrop]

theorem skipSpaces_append {s rest : List Char} (hs : Spaces s)
    (hrest : ∀ x, rest.head? = some x → isSpace x = false) (o d : Nat) :
    skipSpaces ⟨o, s ++ rest, d⟩ = .ok rest.head? ⟨o + s.length, rest, d⟩ := by
  obtain ⟨htake, hdrop⟩ := takeWhile_append_of_head? hs hrest
  unfold skipSpaces
  dsimp only
  rw [htake, hdrop]

theorem skipSpaces_eq_ok {c c' : Cursor} {h : Option Char} (hc : skipSpaces c = .ok h c') :
    c'.depth = c.depth ∧ h = c'.rest.head? ∧ (∀ x, c'.rest.head? = some x → isSpace x = false) ∧
      ∃ s, Spaces s ∧ c.rest = s ++ c'.rest := by
  cases hc
  refine ⟨rfl, rfl, fun x hx => ?_, c.rest.takeWhile isSpace, fun x hx => ?_, ?_⟩
  · have hnot := List.head?_dropWhile_not isSpace c.rest
    rw [hx] at hnot
    simpa using hnot
  · exact List.all_eq_true.1 List.all_takeWhile x hx
  · exact (List.takeWhile_append_dropWhile).symm

theorem fixed_skipSpaces : Fixed skipSpaces := by
  intro c h c' hc
  obtain ⟨hd, rfl, hstop, s, hs, hrest⟩ := skipSpaces_eq_ok hc
  refine ⟨hd, s, hrest, fun o rest hsame => ⟨o + s.length, ?_⟩⟩
  dsimp only at hsame
  rw [hsame] at hstop ⊢
  exact skipSpaces_append hs hstop o c.depth

theorem skipSpacesTo_eq_ok {cause : Cause} {c c' : Cursor} {x : Char}
    (h : skipSpacesTo cause c = .ok x c') :
    c'.depth = c.depth ∧ isSpace x = false ∧ ∃ s t, Spaces s ∧ c.rest = s ++ x :: t ∧ c'.rest = x :: t := by
  obtain ⟨y, c₁, hy, h⟩ := bind_eq_ok.1 h
  obtain ⟨hd, rfl, hstop, s, hs, hrest⟩ := skipSpaces_eq_ok hy
  cases hcs : c₁.rest with
  | nil =>
    rw [hcs] at h
    cases h
  | cons z t =>
    rw [hcs] at h
    cases h
    exact ⟨hd, hstop _ (by rw [hcs]; rfl), s, t, hs, by rw [hrest, hcs], hcs⟩

theorem fixed_skipSpacesTo (cause : Cause) : Fixed (skipSpacesTo cause) := by
  refine fixed_skipSpaces.bind fun h => ?_
  cases h with
  | none => exact .of_refuses (refuses_failNext _)
  | some x => exact .pure

theorem head_of_skipSpacesTo {cause : Cause} {c c' : Cursor} {x : Char}
    (h : skipSpacesTo cause c = .ok x c') : c'.rest.head? = some x := by
  obtain ⟨-, -, s, t, -, -, hrest⟩ := skipSpacesTo_eq_ok h
  rw [hrest]
  rfl

section Spaced

variable {F : List Char → Prop} {d : Nat} {s t : List Char} {x : Char} {a : α}

theorem Takes.behind_spaces {f : Option Char → Reader α} (hs : Spaces s) (hx : isSpace x = false)
    (h : Takes F (f (some x)) d (x :: t) a) : Takes F (skipSpaces >>= f) d (s ++ x :: t) a := by
  intro o rest hrest
  obtain ⟨o', h'⟩ := h (o + s.length) rest hrest
  refine ⟨o', bind_eq_ok.2 ⟨some x, ⟨o + s.length, x :: t ++ rest, d⟩, ?_, h'⟩⟩
  rw [List.append_assoc, skipSpaces_append hs]
  · rfl
  · rintro y ⟨⟩
    exact hx

theorem Takes.spaced {cause : Cause} {f : Char → Reader α} (hs : Spaces s) (hx : isSpace x = false)
    (h : Takes F (f x) d (x :: t) a) : Takes F (skipSpacesTo cause >>= f) d (s ++ x :: t) a := by
  unfold skipSpacesTo
  rw [bind_assoc]
  exact .behind_spaces hs hx h

end Spaced

theorem readsValue_of_look {cause : Cause} {f : Char → Reader α} (hf : ∀ x, ReadsAt (some x) (f x)) :
    ReadsValue (skipSpacesTo cause >>= f) :=
  (fixed_skipSpacesTo cause).look (fun _ _ _ => head_of_skipSpacesTo) hf

/-! ## Strings -/

/-- What is read of a string, and how far it goes, does not depend on what follows nor on
the place. -/
theorem stringFrom_local {strict : Bool} {d : Nat} {mode : StringMode} {read cs ds : List Char} {o : Nat}
    {c' : Cursor} (h : stringFrom strict d mode read o cs = .ok ds c') :
    c'.depth = d ∧ ∃ s, cs = s ++ c'.rest ∧ ∀ d₁ o₁ rest,
      ∃ o', stringFrom strict d₁ mode read o₁ (s ++ rest) = .ok ds ⟨o', rest, d₁⟩ := by
  -- One more character in front, after which reading goes on at another place.
  have step {mode mode' : StringMode} {read read' xs : List Char} {x : Char} (k : Nat)
      (ih : c'.depth = d ∧ ∃ s, xs = s ++ c'.rest ∧ ∀ d₁ o₁ rest,
        ∃ o', stringFrom strict d₁ mode' read' o₁ (s ++ rest) = .ok ds ⟨o', rest, d₁⟩)
      (hstep : ∀ d₁ o₁ xs, stringFrom strict d₁ mode read o₁ (x :: xs)
        = stringFrom strict d₁ mode' read' (o₁ + k) xs) :
      c'.depth = d ∧ ∃ s, x :: xs = s ++ c'.rest ∧ ∀ d₁ o₁ rest,
        ∃ o', stringFrom strict d₁ mode read o₁ (s ++ rest) = .ok ds ⟨o', rest, d₁⟩ := by
    obtain ⟨hd, s, rfl, hs⟩ := ih
    refine ⟨hd, x :: s, rfl, fun d₁ o₁ rest => ?_⟩
    obtain ⟨o', h'⟩ := hs d₁ (o₁ + k) rest
    exact ⟨o', (hstep d₁ o₁ _).trans h'⟩
  fun_induction stringFrom strict d mode read o cs with
  | case2 read o xs =>
    cases h
    refine ⟨rfl, ['"'], rfl, fun d₁ o₁ rest => ⟨o₁ + 1, ?_⟩⟩
    simp [stringFrom]
  | case3 read o xs hx ih => exact step 1 (ih h) fun _ _ _ => by simp [stringFrom]
  | case5 read o x xs hquote hslash hcontrol ih =>
    exact step x.utf8Size (ih h) fun _ _ _ => by simp [stringFrom, hquote, hslash, hcontrol]
  | case6 read o xs ih => exact step 1 (ih h) fun _ _ _ => by simp [stringFrom]
  | case7 read o x xs hu y hy ih => exact step 1 (ih h) fun _ _ _ => by simp [stringFrom, hu, hy]
  | case12 left value high read o x xs n hn v hleft mode hmode ih =>
    exact step 1 (ih h) fun _ _ _ => by simp [stringFrom, hn, hleft, v, hmode]
  | case13 left value high read o x xs n hn v hleft mode y hmode ih =>
    exact step 1 (ih h) fun _ _ _ => by simp [stringFrom, hn, hleft, v, hmode]
  | case14 left value high read o x xs n hn v hleft ih =>
    exact step 1 (ih h) fun _ _ _ => by simp [stringFrom, hn, hleft, v]
  | case15 high read o xs ih => exact step 1 (ih h) fun _ _ _ => by simp [stringFrom]
  | case17 high read o xs ih => exact step 1 (ih h) fun _ _ _ => by simp [stringFrom]
  | _ => cases h

/-- A string ends with its quote, whatever stands behind it. -/
theorem stringBody_eq_ok {c c' : Cursor} {text : String} (h : stringBody c = .ok text c') :
    c'.depth = c.depth ∧ ∃ s, c.rest = s ++ c'.rest ∧ ∀ d, Takes (fun _ => True) stringBody d s text := by
  unfold stringBody at h
  split at h
  · rename_i cs c₁ hcs
    cases h
    obtain ⟨hd, s, hs, ht⟩ := stringFrom_local hcs
    refine ⟨hd, s, hs, fun d o rest _ => ?_⟩
    obtain ⟨o', h'⟩ := ht d o rest
    exact ⟨o', by rw [stringBody, h']⟩
  · cases h

theorem closed_stringBody : Closed stringBody := by
  intro c text c' h
  obtain ⟨hd, s, hs, htakes⟩ := stringBody_eq_ok h
  exact ⟨hd, s, hs, (htakes c.depth).mono fun _ _ => trivial⟩

theorem closed_skipString : Closed skipString := by
  intro c a c' h
  unfold skipString at h
  split at h
  · rename_i cs c₁ hcs
    cases h
    obtain ⟨hd, s, hs, ht⟩ := stringFrom_local hcs
    refine ⟨hd, s, hs, fun o rest _ => ?_⟩
    obtain ⟨o', h'⟩ := ht c.depth o rest
    exact ⟨o', by rw [skipString, h']⟩
  · cases h

/-! ## Numbers -/

section Numbers

theorem isDigit_of_isDelimiter : ∀ x, isDelimiter x = true → Text.isDigit x = false :=
  forall_delimiter.2 (by decide)

theorem closed_digits : Closed digits := by
  intro c ds c' h
  cases h
  have hstop (x : Char) (hx : (c.rest.dropWhile Text.isDigit).head? = some x) :
      Text.isDigit x = false := by
    have hnot := List.head?_dropWhile_not Text.isDigit c.rest
    rw [hx] at hnot
    exact hnot
  refine ⟨rfl, c.rest.takeWhile Text.isDigit, List.takeWhile_append_dropWhile.symm,
    fun o rest hrest => ?_⟩
  have hrest' (x : Char) (hx : rest.head? = some x) : Text.isDigit x = false := by
    rcases hrest with hsame | ⟨-, y, -, hy, -, hdelimiter⟩
    · exact hstop x (hsame.trans hx)
    · rw [hy] at hx
      cases hx
      exact isDigit_of_isDelimiter x hdelimiter
  obtain ⟨htake, hdrop⟩ := takeWhile_append_of_head?
    (List.all_eq_true.1 (List.all_takeWhile (l := c.rest))) hrest'
  refine ⟨o + (c.rest.takeWhile Text.isDigit).length, ?_⟩
  unfold digits
  dsimp only
  rw [htake, hdrop]

/-- The place where a step begins matters to its refusals only. -/
theorem Local.get {P : α → Option Char → Option Char → Prop} {f : Cursor → Reader α}
    (hf : ∀ c, Local P (f c)) (h : ∀ start start' c a c', f start c = .ok a c' → f start' c = .ok a c') :
    Local P (get >>= f) := by
  intro c a c' ha
  obtain ⟨start, c₁, hstart, ha⟩ := bind_eq_ok.1 ha
  cases hstart
  obtain ⟨hd, s, hs, ht⟩ := hf c c a c' ha
  refine ⟨hd, s, hs, fun o rest hrest => ?_⟩
  obtain ⟨o', h'⟩ := ht o rest hrest
  exact ⟨o', bind_eq_ok.2 ⟨_, _, rfl, h _ _ _ _ _ h'⟩⟩

theorem closed_float (negative : Bool) (significand : Nat) (exponent : Int) :
    Closed (float negative significand exponent) := by
  unfold float
  split
  · exact .pure
  · exact .of_refuses (refuses_failHere _)

theorem closed_exponentPart (negative : Bool) (significand : Nat) (starting : Int) :
    Closed (exponentPart negative significand starting) := by
  unfold exponentPart
  refine closed_skip.bind fun _ => closed_peek (fun sign => ?_)
    (forall_delimiter.2 ⟨rfl, rfl, rfl, rfl, rfl, rfl, rfl⟩)
  extract_lets digitsBehind
  have hdigits (negativeExponent : Bool) : Closed (digitsBehind negativeExponent) := by
    refine closed_peek (fun h => ?_) (forall_delimiter.2 ⟨rfl, rfl, rfl, rfl, rfl, rfl, rfl⟩)
    split
    · exact .of_refuses (refuses_failHere _)
    · refine .ite (fun _ => closed_skip.bind fun _ => .of_refuses fun _ _ _ h => by cases h) fun _ => ?_
      refine .get (fun start => closed_digits.bind fun ds => ?_) fun start start' c a c' ha => ?_
      · split
        · exact closed_float _ _ _
        · exact .ite (fun _ => .of_refuses fun _ _ _ h => by cases h) fun _ => .pure
      · obtain ⟨ds, c₁, hds, ha⟩ := bind_eq_ok.1 ha
        refine bind_eq_ok.2 ⟨ds, c₁, hds, ?_⟩
        cases hvalue : exponentValue 0 ds with
        | some e =>
          simp only [hvalue] at ha ⊢
          exact ha
        | none =>
          simp only [hvalue] at ha ⊢
          exact (ite_eq_ok fun _ _ _ h => by cases h).2
            ((ite_eq_ok fun _ _ _ h => by cases h).1 ha)
  split
  · exact closed_skip.bind fun _ => Closed.bind .pure hdigits
  · exact closed_skip.bind fun _ => Closed.bind .pure hdigits
  · exact Closed.bind .pure hdigits

theorem closed_exponentOrEnd (negative : Bool) (significand : Nat) (exponent : Int) :
    Closed (exponentOrEnd negative significand exponent) := by
  unfold exponentOrEnd
  refine closed_peek (fun h => ?_) (forall_delimiter.2 ⟨rfl, rfl, rfl, rfl, rfl, rfl, rfl⟩)
  split
  · exact closed_exponentPart _ _ _
  · exact closed_exponentPart _ _ _
  · exact closed_float _ _ _

theorem closed_fractionPart (negative : Bool) (significand : Nat) (exponent : Int) :
    Closed (fractionPart negative significand exponent) := by
  unfold fractionPart
  refine closed_skip.bind fun _ => closed_digits.bind fun ds => .ite (fun _ => ?_) fun _ => ?_
  · refine closed_peek (fun h => ?_) (forall_delimiter.2 ⟨rfl, rfl, rfl, rfl, rfl, rfl, rfl⟩)
    split <;> exact .of_refuses (refuses_failNext _)
  · exact closed_exponentOrEnd _ _ _

theorem closed_numberTail (negative : Bool) (significand : Nat) :
    Closed (numberTail negative significand) := by
  unfold numberTail
  refine closed_peek (fun h => ?_) (forall_delimiter.2 ⟨rfl, rfl, rfl, rfl, rfl, rfl, rfl⟩)
  split
  · exact (closed_fractionPart _ _ _).bind fun _ => .pure
  · exact (closed_exponentPart _ _ _).bind fun _ => .pure
  · exact (closed_exponentPart _ _ _).bind fun _ => .pure
  · exact .ite (fun _ => .pure) fun _ => .ite (fun _ => .pure) fun _ => .pure

theorem closed_longTail (negative : Bool) (significand dropped : Nat) :
    Closed (longTail negative significand dropped) := by
  unfold longTail
  refine closed_peek (fun h => ?_) (forall_delimiter.2 ⟨rfl, rfl, rfl, rfl, rfl, rfl, rfl⟩)
  split
  · exact (closed_fractionPart _ _ _).bind fun _ => .pure
  · exact (closed_exponentOrEnd _ _ _).bind fun _ => .pure

theorem readsValue_numberBody (negative : Bool) : ReadsValue (numberBody negative) := by
  unfold numberBody
  refine readsValue_next (refuses_failHere _) fun h => ?_
  split
  · exact .of_refuses (refuses_failHere _)
  · refine closed_peek (fun h => ?_) (forall_delimiter.2 ⟨rfl, rfl, rfl, rfl, rfl, rfl, rfl⟩)
    split
    · exact .ite (fun _ => .of_refuses (refuses_failNext _)) fun _ => closed_numberTail _ _
    · exact closed_numberTail _ _
  · refine .ite (fun _ => closed_digits.bind fun ds => .ite (fun _ => ?_) fun _ => ?_) fun _ => ?_
    · exact closed_numberTail _ _
    · exact closed_longTail _ _ _
    · exact .of_refuses fun _ _ _ h => by cases h

end Numbers

/-! ## Whole texts -/

theorem read_eq_ok {r : Reader α} {text : String} {a : α} :
    read r text = .ok a ↔ ∃ c, r ⟨0, text.toList, depthLimit⟩ = .ok a c ∧ Spaces c.rest := by
  unfold read
  extract_lets cs whole
  have hwhole {c : Cursor} {a : α} : (∃ c', whole c = .ok a c') ↔ ∃ c', r c = .ok a c' ∧ Spaces c'.rest := by
    constructor
    · rintro ⟨c', h⟩
      obtain ⟨b, c₁, hb, h⟩ := bind_eq_ok.1 h
      obtain ⟨next, c₂, hnext, h⟩ := bind_eq_ok.1 h
      obtain ⟨-, rfl, -, s, hs, hrest⟩ := skipSpaces_eq_ok hnext
      cases hcs : c₂.rest with
      | nil =>
        rw [hcs] at h hrest
        cases h
        exact ⟨c₁, hb, by rw [hrest, List.append_nil]; exact hs⟩
      | cons x xs =>
        rw [hcs] at h
        exact absurd h (refuses_failNext _ _ _ _)
    · rintro ⟨⟨o, cs, d⟩, h, hs⟩
      have hspaces : skipSpaces ⟨o, cs ++ [], d⟩ = .ok none ⟨o + cs.length, [], d⟩ :=
        skipSpaces_append hs (by simp) o d
      rw [List.append_nil] at hspaces
      exact ⟨_, bind_eq_ok.2 ⟨a, _, h, bind_eq_ok.2 ⟨none, _, hspaces, rfl⟩⟩⟩
  rw [← hwhole]
  split
  · rename_i b c h
    rw [h]
    exact ⟨fun h => (by cases h; exact ⟨c, rfl⟩), fun ⟨c', h⟩ => (by cases h; rfl)⟩
  · rename_i e c h
    rw [h]
    exact ⟨fun h => (by cases h), fun ⟨c', h⟩ => (by cases h)⟩

theorem read_of_takes {r : Reader α} {source trail : List Char} {a : α}
    (h : Takes (fun _ => True) r depthLimit source a) (htrail : Spaces trail) :
    read r (String.ofList (source ++ trail)) = .ok a := by
  obtain ⟨o, h⟩ := h 0 trail trivial
  rw [read_eq_ok, String.toList_ofList]
  exact ⟨_, h, htrail⟩

end DataClient.Json.Reader
