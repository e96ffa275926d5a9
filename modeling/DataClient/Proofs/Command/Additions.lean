import DataClient.Proofs.Command.Spoken

/-!
# Settings added to a command line

A command line that is understood stays understood when a setting is added to it, and everything
else that was read of it stays the same. The two readings go side by side: their states keep the
same values under every other key, and this is all that a later step can tell apart. Only the
setting itself is met by one reading alone.
-/

set_option autoImplicit false

namespace DataClient.Cli

open Outcome

variable {environment swapped : String → Option String} {level : Level} {words : String}
  {s s' t t' : State} {p q : Parameter} {key : String} {gs gs' : List Given}

/-! ## Values under other keys -/

/-- The same values are kept under every other key. -/
def Agree (key : String) (gs gs' : List Given) : Prop :=
  ∀ other, other ≠ key → lookup? other gs' = lookup? other gs

theorem Agree.refl (key : String) (gs : List Given) : Agree key gs gs := fun _ _ => rfl

theorem Agree.append (h : Agree key gs gs') (g : Given) : Agree key (gs ++ [g]) (gs' ++ [g]) := by
  intro other hother
  rw [lookup?_append, lookup?_append, h other hother]

theorem Agree.append_left (h : Agree key gs gs') {g : Given} (hg : g.key = key) :
    Agree key (gs ++ [g]) gs' := by
  intro other hother
  rw [lookup?_append_ne (fun hkey => hother (hkey.symm.trans hg)), h other hother]

theorem Agree.append_right (h : Agree key gs gs') {g : Given} (hg : g.key = key) :
    Agree key gs (gs' ++ [g]) := by
  intro other hother
  rw [lookup?_append_ne (fun hkey => hother (hkey.symm.trans hg)), h other hother]

/-! ## Two states side by side -/

theorem Parameter.Takes.unique {values : List String} {v w : String} (hv : p.Takes values v)
    (hw : p.Takes values w) : v = w := by
  unfold Takes at hv hw
  cases hrole : p.role <;> cases values <;> simp only [hrole] at hv hw
  · exact hv.1.trans hw.1.symm
  · exact hv.trans hw.symm
  · exact hv.trans hw.symm

theorem State.Settles.unique (h : s.Settles gs) (h' : s.Settles gs') : gs = gs' := by
  unfold State.Settles at h h'
  cases hpending : s.pending with
  | none =>
    rw [hpending] at h h'
    exact h.trans h'.symm
  | some pending =>
    rw [hpending] at h h'
    obtain ⟨v, hv, -, rfl⟩ := h
    obtain ⟨w, hw, -, rfl⟩ := h'
    rw [hv.unique hw]

/-- A state is beside another: wherever the one settles, so does the other, with the same values
under other keys; and if they wait, it is for the same value. -/
structure State.Beside (key : String) (s t : State) : Prop where
  position : t.position = s.position
  trailing : t.trailing = s.trailing
  awaiting : t.awaiting = s.awaiting
  settles : ∀ gs, s.Settles gs → ∃ gs', t.Settles gs' ∧ Agree key gs gs'
  waits : s.awaiting = true → ∃ q values, s.pending = some (q, values) ∧
    t.pending = some (q, values) ∧ q.key ≠ key ∧ Agree key s.given t.given

namespace State.Beside

theorem start (key : String) : State.start.Beside key State.start :=
  ⟨rfl, rfl, rfl, fun gs h => ⟨gs, h, Agree.refl key gs⟩, nofun⟩

theorem keeping (h : s.Beside key t) (hgs : Agree key gs gs') (g : Given) :
    (s.keeping gs g).Beside key (t.keeping gs' g) :=
  ⟨h.position, h.trailing, rfl,
    fun _ hs => ⟨gs' ++ [g], rfl, (show _ = gs ++ [g] from hs) ▸ hgs.append g⟩, nofun⟩

theorem waiting (h : s.Beside key t) (hgs : Agree key gs gs') (hwants : q.wantsValue = true)
    (hq : q.key ≠ key) : (s.waiting gs q).Beside key (t.waiting gs' q) :=
  ⟨h.position, h.trailing, rfl,
    fun _ ⟨value, ht, _⟩ => absurd ht (Parameter.not_takes_nil hwants value),
    fun _ => ⟨q, [], rfl, rfl, hq, hgs⟩⟩

/-- A pending value is kept in both states or in neither. -/
theorem settles_pending {values : List String} (hs : s.pending = some (q, values))
    (ht : t.pending = some (q, values)) (hq : q.key ≠ key) (hgs : Agree key s.given t.given)
    (h : s.Settles gs) : ∃ gs', t.Settles gs' ∧ Agree key gs gs' := by
  rw [Settles, hs] at h
  obtain ⟨v, hv, hfree, rfl⟩ := h
  refine ⟨t.given ++ [⟨q.key, v, .commandLine⟩], ?_, hgs.append _⟩
  rw [Settles, ht]
  exact ⟨v, hv, (hgs q.key hq).trans hfree, rfl⟩

theorem holding (h : s.Beside key t) (hgs : Agree key gs gs') (hq : q.key ≠ key) (text : String) :
    (s.holding gs q text).Beside key (t.holding gs' q text) :=
  ⟨congrArg (· + 1) h.position, h.trailing, rfl, fun _ => settles_pending rfl rfl hq hgs, nofun⟩

theorem option {value : Option String} (h : s.Beside key t) (hq : q.key ≠ key)
    (hs : s.option level q value = .ok s') :
    ∃ t', t.option level q value = .ok t' ∧ s'.Beside key t' := by
  obtain ⟨gs, hgs, hcases⟩ := option_eq_ok.1 hs
  obtain ⟨gs', hgs', hagree⟩ := h.settles gs hgs
  obtain ⟨hwants, rfl, rfl⟩ | ⟨hvalue, v, hv, hfree, rfl⟩ := hcases
  · exact ⟨t.waiting gs' q, option_eq_ok.2 ⟨gs', hgs', .inl ⟨hwants, rfl, rfl⟩⟩,
      h.waiting hagree hwants hq⟩
  · have hfree' := (hagree q.key hq).trans hfree
    exact ⟨t.keeping gs' _, option_eq_ok.2 ⟨gs', hgs', .inr ⟨hvalue, v, hv, hfree', rfl⟩⟩,
      h.keeping hagree _⟩

theorem shorts {cs : List Char} (hp : p.IsSetting) (ho : p.Offered level) (h : s.Beside p.key t)
    (hs : s.shorts level cs = .ok s') :
    ∃ t', t.shorts level cs = .ok t' ∧ s'.Beside p.key t' := by
  induction cs generalizing s t with
  | nil =>
    cases hs
    exact ⟨t, rfl, h⟩
  | cons c cs ih =>
    obtain ⟨q, hfind, hcases⟩ := shorts_cons_eq_ok.1 hs
    have hq := ho.ne_of_short hp hfind
    obtain ⟨hwants, hlast⟩ | ⟨hwants, u, hu, hrest⟩ := hcases
    · obtain ⟨t', ht', hbeside⟩ := h.option hq hlast
      exact ⟨t', shorts_cons_eq_ok.2 ⟨q, hfind, .inl ⟨hwants, ht'⟩⟩, hbeside⟩
    · obtain ⟨u', hu', hbeside⟩ := h.option hq hu
      obtain ⟨t', ht', hbeside'⟩ := ih hbeside hrest
      exact ⟨t', shorts_cons_eq_ok.2 ⟨q, hfind, .inr ⟨hwants, u', hu', ht'⟩⟩, hbeside'⟩

theorem operand {text : String} (hp : p.IsSetting) (ho : p.Offered level) (h : s.Beside p.key t)
    (hs : s.operand level text = .ok s') :
    ∃ t', t.operand level text = .ok t' ∧ s'.Beside p.key t' := by
  obtain ⟨q, gs, hq, hgs, rfl⟩ := operand_eq_ok.1 hs
  obtain ⟨gs', hgs', hagree⟩ := h.settles gs hgs
  refine ⟨t.holding gs' q text, operand_eq_ok.2 ⟨q, gs', h.position ▸ hq, hgs', rfl⟩, ?_⟩
  exact h.holding hagree (ho.ne_of_operand hp hq) text

/-- Every argument that does not name the setting is read in the same way. -/
theorem argument (hp : p.IsSetting) (ho : p.Offered level) (h : s.Beside p.key t) {text : String}
    (hname : ∀ value, Shape.of text ≠ .long p.key value) (hs : s.argument level text = .ok s') :
    ∃ t', t.argument level text = .ok t' ∧ s'.Beside p.key t' := by
  cases State.argument_eq_ok.1 hs with
  | behindEscape htrailing hs =>
    obtain ⟨t', ht', hbeside⟩ := h.operand hp ho hs
    exact ⟨t', State.argument_of_reads (.behindEscape (h.trailing.trans htrailing) ht'), hbeside⟩
  | escape htrailing hshape =>
    exact ⟨{ t with trailing := true },
      State.argument_of_reads (.escape (h.trailing.trans htrailing) hshape),
      h.position, rfl, h.awaiting, h.settles, h.waits⟩
  | @long n value q _ htrailing hshape hfind hs =>
    have hn : n ≠ p.key := fun hn => hname value (hn ▸ hshape)
    obtain ⟨t', ht', hbeside⟩ := h.option (ho.ne_of_long hp hfind hn) hs
    exact ⟨t', State.argument_of_reads (.long (h.trailing.trans htrailing) hshape hfind ht'), hbeside⟩
  | shorts htrailing hshape hs =>
    obtain ⟨t', ht', hbeside⟩ := h.shorts hp ho hs
    exact ⟨t', State.argument_of_reads (.shorts (h.trailing.trans htrailing) hshape ht'), hbeside⟩
  | value htrailing hshape hawaiting hpending =>
    obtain ⟨q, values, hs', ht', hq, hagree⟩ := h.waits hawaiting
    cases hs'.symm.trans hpending
    exact ⟨_, State.argument_of_reads (.value (h.trailing.trans htrailing) hshape
      (h.awaiting.trans hawaiting) ht'), h.position, h.trailing, rfl,
      fun _ => settles_pending rfl rfl hq hagree, fun h => absurd h Bool.false_ne_true⟩
  | operand htrailing hshape hfree hs =>
    obtain ⟨t', ht', hbeside⟩ := h.operand hp ho hs
    refine ⟨t', State.argument_of_reads (.operand (h.trailing.trans htrailing) hshape
      (fun hawaiting => ?_) ht'), hbeside⟩
    -- A state that waits has something pending, so the first one does not.
    rw [h.awaiting] at hawaiting
    obtain ⟨_, _, hpending, -⟩ := h.waits hawaiting
    exact absurd (hpending.symm.trans (hfree hawaiting)) (Option.some_ne_none _)

end State.Beside

/-! ## The end of a level -/

/-- Two environments differ at most in what they give a setting, and the second gives it a value of
its kind, if any. -/
structure Parameter.Swaps (p : Parameter) (environment swapped : String → Option String) :
    Prop where
  others : ∀ x, p.fromVariable ≠ some x → swapped x = environment x
  accepted : ∀ v, p.fromVariable.bind swapped = some v → p.Takes [v] v

theorem Parameter.Swaps.bind_eq (h : p.Swaps environment swapped) (ho : p.Offered level)
    (hq : q ∈ level.parameters) (hne : q.key ≠ p.key) :
    q.fromVariable.bind swapped = q.fromVariable.bind environment := by
  cases hx : q.fromVariable with
  | none => rfl
  | some x => exact h.others x fun hp => hne (congrArg _ (ho.variable_only hq hp hx))

/-- Of the setting itself, each side takes what its environment gives, if it has nothing yet. -/
theorem complete_agree {ps : List Parameter} (ho : p.Offered level) (hps : ps ⊆ level.parameters)
    (henv : p.Swaps environment swapped) (h : Agree p.key s.given t.given)
    (hs : s.complete level environment ps = .ok s') :
    ∃ t', t.complete level swapped ps = .ok t' ∧ Agree p.key s'.given t'.given := by
  induction ps generalizing s t with
  | nil =>
    cases hs
    exact ⟨t, rfl, h⟩
  | cons q ps ih =>
    obtain ⟨hq, hps⟩ := List.cons_subset.1 hps
    have hcons := State.complete_cons_eq_ok.1 hs
    by_cases hkey : q.key = p.key
    · obtain rfl := ho.only hq hkey
      obtain ⟨u, hu, hrest⟩ : ∃ u : State, Agree q.key u.given t.given ∧
          u.complete level environment ps = .ok s' := by
        obtain ⟨-, hrest⟩ | ⟨v, value, -, -, -, hrest⟩ := hcons
        · exact ⟨s, h, hrest⟩
        · exact ⟨_, h.append_left rfl, hrest⟩
      by_cases hskip : (lookup? q.key t.given).isSome = true ∨
          q.fromVariable.bind swapped = none
      · obtain ⟨t', ht', hagree⟩ := ih hps hu hrest
        exact ⟨t', State.complete_cons_eq_ok.2 (.inl ⟨hskip, ht'⟩), hagree⟩
      · obtain ⟨hfree, hsome⟩ := not_or.1 hskip
        obtain ⟨v, hv⟩ := Option.ne_none_iff_exists'.1 hsome
        obtain ⟨t', ht', hagree⟩ := ih hps (t := { t with given :=
          t.given ++ [⟨q.key, v, .environment⟩] }) (hu.append_right rfl) hrest
        refine ⟨t', State.complete_cons_eq_ok.2 (.inr ⟨v, v, hv, ?_, henv.accepted v hv, ht'⟩), hagree⟩
        simpa using hfree
    · rw [← henv.bind_eq ho hq hkey, ← h q.key hkey] at hcons
      obtain ⟨hskip, hrest⟩ | ⟨v, value, hv, hfree, ht, hrest⟩ := hcons
      · obtain ⟨t', ht', hagree⟩ := ih hps h hrest
        exact ⟨t', State.complete_cons_eq_ok.2 (.inl ⟨hskip, ht'⟩), hagree⟩
      · obtain ⟨t', ht', hagree⟩ := ih hps (t := { t with given :=
          t.given ++ [⟨q.key, value, .environment⟩] }) (h.append _) hrest
        exact ⟨t', State.complete_cons_eq_ok.2 (.inr ⟨v, value, hv, hfree, ht, ht'⟩), hagree⟩

theorem lookup?_eq_some {g : Given} (h : lookup? key gs = some g) : g ∈ gs ∧ g.key = key :=
  ⟨List.mem_of_find?_eq_some h, by simpa using List.find?_some h⟩

theorem lookup?_isSome {g : Given} (h : g ∈ gs) : (lookup? g.key gs).isSome = true :=
  List.find?_isSome.2 ⟨g, h, by simp⟩

/-- No parameter was given beside one that it stands in for. -/
theorem firstConflict?_eq_none_iff {ps : List Parameter} :
    firstConflict? ps gs = none ↔ ∀ key, (lookup? key gs).isSome = true →
      ∀ a, ps.find? (·.key == key) = some a → ∀ b ∈ ps, (lookup? b.key gs).isSome = true →
        a.instead ≠ some b.key ∧ b.instead ≠ some a.key := by
  have hone : ∀ g : Given,
      ((do
        let a ← ps.find? (·.key == g.key)
        let b ← ps.find? fun b => (lookup? b.key gs).isSome &&
          (a.instead == some b.key || b.instead == some a.key)
        return .conflict a.shown b.shown : Option Fault) = none) ↔
      ∀ a, ps.find? (·.key == g.key) = some a → ∀ b ∈ ps, (lookup? b.key gs).isSome = true →
        a.instead ≠ some b.key ∧ b.instead ≠ some a.key := by
    intro g
    cases ps.find? (·.key == g.key) with
    | none => simp
    | some a =>
      simp only [Option.bind_eq_bind, Option.bind_some, Option.bind_eq_none_iff, pure,
        reduceCtorEq, imp_false, Option.some.injEq, forall_eq']
      rw [← Option.eq_none_iff_forall_ne_some, List.find?_eq_none]
      simp
  unfold firstConflict?
  rw [List.findSome?_eq_none_iff]
  constructor
  · intro h key hkey
    obtain ⟨g, hg⟩ := Option.isSome_iff_exists.1 hkey
    obtain ⟨hmem, rfl⟩ := lookup?_eq_some hg
    exact (hone g).1 (h g hmem)
  · intro h g hg
    exact (hone g).2 (h g.key (lookup?_isSome hg))

theorem firstConflict?_agree (hp : p.IsSetting) (ho : p.Offered level)
    (hgs : Agree p.key gs gs') (h : firstConflict? level.parameters gs = none) :
    firstConflict? level.parameters gs' = none := by
  rw [firstConflict?_eq_none_iff] at h ⊢
  intro key hkey a ha b hb hbgiven
  have hmem : a ∈ level.parameters := List.mem_of_find?_eq_some ha
  have hakey : a.key = key := by simpa using List.find?_some ha
  by_cases hap : a.key = p.key
  · obtain rfl := ho.only hmem hap
    exact ⟨by rw [hp.alone]; nofun, ho.unreplaced hb⟩
  · by_cases hbp : b.key = p.key
    · obtain rfl := ho.only hb hbp
      exact ⟨ho.unreplaced hmem, by rw [hp.alone]; nofun⟩
    · rw [hgs key (hakey ▸ hap)] at hkey
      rw [hgs b.key hbp] at hbgiven
      exact h key hkey a ha b hb hbgiven

theorem isMissing_agree (hp : p.IsSetting) (ho : p.Offered level) (hgs : Agree p.key gs gs')
    (hq : q ∈ level.parameters) : isMissing gs' q = isMissing gs q := by
  unfold isMissing
  by_cases hkey : q.key = p.key
  · obtain rfl := ho.only hq hkey
    rw [hp.optional]
    rfl
  · rw [hgs q.key hkey]
    cases hinstead : q.instead with
    | none => rfl
    | some other =>
      have hother : other ≠ p.key := fun h => ho.unreplaced hq (h ▸ hinstead)
      simp only [hgs other hother]

/-- Two states side by side end a level with the same values under other keys. -/
theorem State.Beside.finish {called : Bool} (hp : p.IsSetting) (ho : p.Offered level)
    (henv : p.Swaps environment swapped) (h : s.Beside p.key t)
    (hs : s.finish level environment words called = .ok gs) :
    ∃ gs', t.finish level swapped words called = .ok gs' ∧ Agree p.key gs gs' := by
  obtain ⟨kept, s', hkept, hcomplete, hcalled, hconflict, hmissing, rfl⟩ := State.finish_eq_ok.1 hs
  obtain ⟨kept', hkept', hagree⟩ := h.settles kept hkept
  obtain ⟨t', ht', hagree'⟩ := complete_agree (t := { t with pending := none, given := kept' }) ho
    (List.Subset.refl _) henv hagree hcomplete
  have hmissing' : level.parameters.any (isMissing t'.given) = false := by
    rw [List.any_eq_false] at hmissing ⊢
    intro q hq
    rw [isMissing_agree hp ho hagree' hq]
    exact hmissing q hq
  exact ⟨t'.given, State.finish_eq_ok.2 ⟨kept', t', hkept', ht', hcalled,
    firstConflict?_agree hp ho hagree' hconflict, hmissing', rfl⟩, hagree'⟩

/-! ## All levels -/

/-- The same levels with the same values under other keys. -/
def Alike (key : String) (reading reading' : Reading) : Prop :=
  List.Forall₂ (fun l l' => l'.1 = l.1 ∧ Agree key l.2 l'.2) reading reading'

/-- No argument names the setting. -/
def Unnamed (p : Parameter) (arguments : List String) : Prop :=
  ∀ text ∈ arguments, ∀ value, Shape.of text ≠ .long p.key value

theorem unnamed_of_plain {arguments : List String}
    (h : ∀ text ∈ arguments, Shape.of text = .plain) : Unnamed p arguments := by
  intro text htext value hshape
  rw [h text htext] at hshape
  cases hshape

section Reading

variable {text : String} {rest arguments : List String} {reading : Reading}

theorem State.Beside.not_calls (h : s.Beside key t) (hs : ¬ s.Calls level text) :
    ¬ t.Calls level text := by
  unfold State.Calls
  rw [h.trailing, h.awaiting]
  exact hs

/-- What calls a command leads the two to the same level. -/
theorem State.Beside.call {below : Level} {inner inner' : Reading} (hp : p.IsSetting)
    (ho : p.Offered level) (henv : p.Swaps environment swapped) (h : s.Beside p.key t)
    (htrailing : s.trailing = false) (hawaiting : s.awaiting = false)
    (hbelow : level.find? text = some below)
    (hinner : readLevel swapped below (words ++ " " ++ text) .start rest = .ok inner')
    (halike : Alike p.key inner inner') (hgs : s.finish level environment words true = .ok gs) :
    ∃ reading', readLevel swapped level words t (text :: rest) = .ok reading' ∧
      Alike p.key ((level.name, gs) :: inner) reading' := by
  obtain ⟨gs', hgs', hagree⟩ := h.finish hp ho henv hgs
  refine ⟨(level.name, gs') :: inner', readLevel_cons_eq_ok.2 (.inl ⟨below, inner', gs',
    h.trailing.trans htrailing, h.awaiting.trans hawaiting, hbelow, hinner, hgs', rfl⟩),
    .cons ⟨rfl, hagree⟩ halike⟩

/-- Arguments that do not name the setting are read in the same way by two states side by side. -/
theorem readLevel_beside (hp : p.IsSetting) (ho : p.Offered level)
    (henv : p.Swaps environment swapped) (h : s.Beside p.key t)
    (hunnamed : Unnamed p arguments)
    (hs : readLevel environment level words s arguments = .ok reading) :
    ∃ reading', readLevel swapped level words t arguments = .ok reading' ∧
      Alike p.key reading reading' := by
  induction arguments generalizing level words s t reading with
  | nil =>
    obtain ⟨gs, hgs, hreading⟩ := bind_eq_ok.1 hs
    cases hreading
    obtain ⟨gs', hgs', hagree⟩ := h.finish hp ho henv hgs
    exact ⟨[(level.name, gs')], bind_eq_ok.2 ⟨gs', hgs', rfl⟩, .cons ⟨rfl, hagree⟩ .nil⟩
  | cons text rest ih =>
    obtain ⟨hname, hrest⟩ := List.forall_mem_cons.1 hunnamed
    obtain ⟨below, inner, gs, htrailing, hawaiting, hbelow, hinner, hgs, rfl⟩ |
      ⟨hcalls, s', hs', hread⟩ := readLevel_cons_eq_ok.1 hs
    · obtain ⟨inner', hinner', halike⟩ :=
        ih (ho.of_find? hbelow).2 (State.Beside.start p.key) hrest hinner
      exact h.call hp ho henv htrailing hawaiting hbelow hinner' halike hgs
    · obtain ⟨t', ht', hbeside⟩ := h.argument hp ho hname hs'
      obtain ⟨reading', hread', halike⟩ := ih ho hbeside hrest hread
      exact ⟨reading', readLevel_cons_eq_ok.2 (.inr ⟨h.not_calls hcalls, t', ht', hread'⟩), halike⟩

/-! ## One setting more -/

/-- How a setting is written on a command line, if it is. -/
inductive Spells (name : String) : Option String → List String → Prop
  | absent : Spells name none []
  | attached (v : String) : Spells name (some v) ["--" ++ name ++ "=" ++ v]
  | separate {v : String} (hv : Shape.of v = .plain) : Spells name (some v) ["--" ++ name, v]

/-- A level that can be read to its end settles, unless it waits. -/
theorem exists_settles (hawaiting : s.awaiting = false)
    (hs : readLevel environment level words s arguments = .ok reading) : ∃ gs, s.Settles gs := by
  induction arguments generalizing s with
  | nil =>
    obtain ⟨gs, hgs, -⟩ := bind_eq_ok.1 hs
    obtain ⟨kept, -, hkept, -⟩ := State.finish_eq_ok.1 hgs
    exact ⟨kept, hkept⟩
  | cons text rest ih =>
    obtain ⟨_, _, gs, -, -, -, -, hgs, -⟩ | ⟨-, s', hs', hread⟩ := readLevel_cons_eq_ok.1 hs
    · obtain ⟨kept, -, hkept, -⟩ := State.finish_eq_ok.1 hgs
      exact ⟨kept, hkept⟩
    · obtain ⟨-, -, rfl⟩ | ⟨hwaits, -⟩ | ⟨-, hgs⟩ := State.argument_cases hs'
      · exact ih (s := { s with trailing := true }) hawaiting hread
      · exact nomatch hawaiting.symm.trans hwaits
      · exact hgs

/-- What looks like an option calls no command. -/
theorem not_calls_of_long (ho : p.Offered level) {n : String} {value : Option String}
    (hshape : Shape.of text = .long n value) : ¬ s.Calls level text := by
  rintro ⟨-, -, hcommand⟩
  have hplain : Shape.of text = .plain := by
    rcases Bool.or_eq_true_iff.1 hcommand with hfind | hhelp
    · obtain ⟨below, hbelow⟩ := Option.isSome_iff_exists.1 hfind
      exact (ho.of_find? hbelow).1
    · obtain ⟨hname, -⟩ := Bool.and_eq_true_iff.1 hhelp
      rw [beq_iff_eq.1 hname]
      rfl
  rw [hplain] at hshape
  cases hshape

/-- A name ends with its text or at the first mark. -/
theorem cut_name {name : List Char} (rest : List Char) (hmark : '=' ∉ name)
    (hrest : rest.takeWhile (· != '=') = []) :
    (name ++ rest).takeWhile (· != '=') = name ∧ (name ++ rest).dropWhile (· != '=') = rest := by
  have hpos : ∀ d ∈ name, (d != '=') = true := by
    intro d hd
    simpa using fun h : d = '=' => hmark (h ▸ hd)
  have hsplit : rest.takeWhile (· != '=') ++ rest.dropWhile (· != '=') = rest :=
    List.takeWhile_append_dropWhile
  rw [hrest, List.nil_append] at hsplit
  rw [List.takeWhile_append_of_pos hpos, List.dropWhile_append_of_pos hpos, hrest, hsplit,
    List.append_nil]
  exact ⟨rfl, rfl⟩

theorem shape_attached (hp : p.IsSetting) (v : String) :
    Shape.of ("--" ++ p.key ++ "=" ++ v) = .long p.key (some v) := by
  obtain ⟨c, cs, hkey⟩ : ∃ c cs, p.key.toList = c :: cs :=
    List.exists_cons_of_ne_nil (by simpa using hp.named)
  obtain ⟨hname, hvalue⟩ := cut_name ('=' :: v.toList) (hkey ▸ hp.unmarked) (by simp)
  have htext : ("--" ++ p.key ++ "=" ++ v).toList = '-' :: '-' :: c :: (cs ++ '=' :: v.toList) := by
    simp [hkey]
  rw [List.cons_append] at hname hvalue
  simp only [Shape.of, htext, hname, hvalue]
  rw [← hkey, String.ofList_toList, String.ofList_toList]

theorem shape_separate (hp : p.IsSetting) : Shape.of ("--" ++ p.key) = .long p.key none := by
  obtain ⟨c, cs, hkey⟩ : ∃ c cs, p.key.toList = c :: cs :=
    List.exists_cons_of_ne_nil (by simpa using hp.named)
  obtain ⟨hname, hvalue⟩ := cut_name [] (hkey ▸ hp.unmarked) rfl
  have htext : ("--" ++ p.key).toList = '-' :: '-' :: c :: cs := by simp [hkey]
  rw [List.append_nil] at hname hvalue
  simp only [Shape.of, htext, hname, hvalue]
  rw [← hkey, String.ofList_toList]

/-- The setting keeps the value attached to it. -/
theorem argument_attached (hp : p.IsSetting) (ho : p.Offered level) (htrailing : t.trailing = false)
    (hgs : t.Settles gs) (hfree : lookup? p.key gs = none) {v : String} (hv : p.Takes [v] v) :
    t.argument level ("--" ++ p.key ++ "=" ++ v)
      = .ok (t.keeping gs ⟨p.key, v, .commandLine⟩) := by
  have hkeeps : t.option level p (some v) = .ok (t.keeping gs ⟨p.key, v, .commandLine⟩) :=
    State.option_eq_ok.2 ⟨gs, hgs, .inr ⟨hp.wants, v, hv, hfree, rfl⟩⟩
  exact State.argument_of_reads (.long htrailing (shape_attached hp v) ho.found hkeeps)

/-- The setting alone waits for its value. -/
theorem argument_separate (hp : p.IsSetting) (ho : p.Offered level) (htrailing : t.trailing = false)
    (hgs : t.Settles gs) : t.argument level ("--" ++ p.key) = .ok (t.waiting gs p) := by
  have hwaits : t.option level p none = .ok (t.waiting gs p) :=
    State.option_eq_ok.2 ⟨gs, hgs, .inl ⟨hp.wants, rfl, rfl⟩⟩
  exact State.argument_of_reads (.long htrailing (shape_separate hp) ho.found hwaits)

/-- The state after an option and the value behind it, which is not checked yet. -/
def State.supplied (t : State) (gs : List Given) (p : Parameter) (v : String) : State :=
  { t with given := gs, pending := some (p, [v]), awaiting := false }

theorem argument_supplied (htrailing : t.trailing = false) {v : String}
    (hv : Shape.of v = .plain) :
    (t.waiting gs p).argument level v = .ok (t.supplied gs p v) :=
  State.argument_of_reads (State.Reads.value (s := t.waiting gs p) htrailing hv rfl rfl)

namespace State.Beside

section OneSided

variable (h : s.Beside p.key t) (hawaiting : s.awaiting = false) (hgs : s.Settles gs)
  (hagree : Agree p.key gs gs')
include h hawaiting hgs hagree

/-- A value of the setting that one state alone keeps leaves the two side by side. -/
theorem keeping_right (v : String) : s.Beside p.key (t.keeping gs' ⟨p.key, v, .commandLine⟩) where
  position := h.position
  trailing := h.trailing
  awaiting := hawaiting.symm
  settles _ hs := ⟨_, rfl, hs.unique hgs ▸ hagree.append_right rfl⟩
  waits hwaits := absurd (hawaiting.symm.trans hwaits) Bool.false_ne_true

theorem supplied_right {v : String} (hfree : lookup? p.key gs' = none) (hv : p.Takes [v] v) :
    s.Beside p.key (t.supplied gs' p v) where
  position := h.position
  trailing := h.trailing
  awaiting := hawaiting.symm
  settles _ hs := ⟨_, ⟨v, hv, hfree, rfl⟩, hs.unique hgs ▸ hagree.append_right rfl⟩
  waits hwaits := absurd (hawaiting.symm.trans hwaits) Bool.false_ne_true

end OneSided

/-- A setting that is met by one of two states side by side leaves them side by side. -/
theorem spell {value : Option String} {form : List String} (hp : p.IsSetting)
    (ho : p.Offered level) (h : s.Beside p.key t) (htells : t.Tells level p [])
    (htrailing : s.trailing = false) (hawaiting : s.awaiting = false) (hgs : s.Settles gs)
    (hform : Spells p.key value form) (hvalue : ∀ v, value = some v → p.Takes [v] v) :
    ∃ t', s.Beside p.key t' ∧ ∀ rest, readLevel environment level words t (form ++ rest)
      = readLevel environment level words t' rest := by
  obtain ⟨gs', hgs', hagree⟩ := h.settles gs hgs
  have hfree : lookup? p.key gs' = none := by
    cases htells.settled gs' hgs' with
    | nothing h => exact h
  have hopen : t.trailing = false := h.trailing.trans htrailing
  cases hform with
  | absent => exact ⟨t, h, fun rest => rfl⟩
  | attached v =>
    refine ⟨_, h.keeping_right hawaiting hgs hagree v, fun rest => ?_⟩
    rw [List.singleton_append,
      readLevel_cons_of_not_calls (not_calls_of_long ho (shape_attached hp v)),
      argument_attached hp ho hopen hgs' hfree (hvalue v rfl)]
    rfl
  | @separate v hv =>
    refine ⟨_, h.supplied_right hawaiting hgs hagree hfree (hvalue v rfl), fun rest => ?_⟩
    have hcalls : ¬ (t.waiting gs' p).Calls level v :=
      fun hcalls => absurd hcalls.2.1.symm Bool.false_ne_true
    rw [List.cons_append, List.singleton_append,
      readLevel_cons_of_not_calls (not_calls_of_long ho (shape_separate hp)),
      argument_separate hp ho hopen hgs']
    exact (readLevel_cons_of_not_calls hcalls).trans (by rw [argument_supplied hopen hv]; rfl)

end State.Beside

/-- Arguments that neither name the setting nor end the options tell nothing about it. -/
theorem spoken_append {before : List String} (h : Unnamed p before)
    (hopen : ∀ text ∈ before, Shape.of text ≠ .escape) (after : List String) :
    spoken p.key (before ++ after) = spoken p.key after := by
  induction before with
  | nil => rfl
  | cons text rest ih =>
    obtain ⟨hname, hrest⟩ := List.forall_mem_cons.1 h
    obtain ⟨htext, hopen⟩ := List.forall_mem_cons.1 hopen
    rw [List.cons_append, spoken, ih hrest hopen]
    split
    · exact absurd ‹_› htext
    · rename_i n v hshape
      exact if_neg fun hn => hname (some v) (hshape.trans (by rw [hn]))
    · rename_i n hshape
      exact if_neg fun hn => hname none (hshape.trans (by rw [hn]))
    · rfl

theorem spoken_of_unnamed (h : Unnamed p arguments) : spoken p.key arguments = [] := by
  induction arguments with
  | nil => rfl
  | cons text rest ih =>
    obtain ⟨hname, hrest⟩ := List.forall_mem_cons.1 h
    by_cases htext : Shape.of text = .escape
    · simp [spoken, htext]
    · have hone : Unnamed p [text] := fun other hother => List.mem_singleton.1 hother ▸ hname
      exact (spoken_append hone (fun other hother => List.mem_singleton.1 hother ▸ htext) rest).trans
        (ih hrest)

theorem State.Beside.heard_eq_nil (h : s.Beside p.key t)
    (hname : ∀ value, Shape.of text ≠ .long p.key value) : t.heard p [text] = [] := by
  have hawaited : t.awaitedKey ≠ some p.key := by
    unfold State.awaitedKey
    rw [h.awaiting]
    cases hawaiting : s.awaiting with
    | false => exact nofun
    | true =>
      obtain ⟨q, values, -, hpending, hq, -⟩ := h.waits hawaiting
      simpa [hpending] using hq
  have hspoken : spoken p.key [text] = [] :=
    spoken_of_unnamed fun other hother => (List.mem_singleton.1 hother) ▸ hname
  simp [State.heard, hawaited, hspoken]

/-- Nothing is waited for where the arguments may end, if no value would be missed there. -/
theorem State.Beside.awaiting_eq_false (h : s.Beside p.key t) (htells : t.Tells level p [])
    (htrailing : s.trailing = false)
    (hfull : ∀ shown, readLevel environment level words s [] ≠ .error (.emptyValue shown)) :
    s.awaiting = false := by
  rw [Bool.eq_false_iff]
  intro hawaiting
  obtain ⟨q, values, hpending, hpending', -⟩ := h.waits hawaiting
  obtain ⟨r, -, hr, hwants, -⟩ :=
    htells.waits (h.awaiting.trans hawaiting) (h.trailing.trans htrailing)
  rw [← hpending', hr] at hpending
  refine hfull r.shown ?_
  rw [readLevel, State.finish, State.settle_of_waits hpending hwants]
  rfl

/-- The two readings part where the setting stands, at whatever level this is. -/
theorem readLevel_insert {value : Option String} {form before after : List String}
    (hp : p.IsSetting) (ho : p.Offered level) (henv : p.Swaps environment swapped)
    (h : s.Beside p.key t) (htells : t.Tells level p []) (htrailing : s.trailing = false)
    (hunnamed : Unnamed p (before ++ after)) (hopen : ∀ text ∈ before, Shape.of text ≠ .escape)
    (hfull : ∀ shown, readLevel environment level words s before ≠ .error (.emptyValue shown))
    (hform : Spells p.key value form) (hvalue : ∀ v, value = some v → p.Takes [v] v)
    (hs : readLevel environment level words s (before ++ after) = .ok reading) :
    ∃ reading', readLevel swapped level words t (before ++ form ++ after) = .ok reading' ∧
      Alike p.key reading reading' := by
  induction before generalizing level words s t reading with
  | nil =>
    have hawaiting := h.awaiting_eq_false htells htrailing hfull
    obtain ⟨gs, hgs⟩ := exists_settles hawaiting hs
    obtain ⟨t', hbeside, hread⟩ :=
      h.spell hp ho htells htrailing hawaiting hgs hform hvalue
    rw [List.nil_append, hread]
    exact readLevel_beside hp ho henv hbeside hunnamed hs
  | cons text before ih =>
    obtain ⟨hname, hrest⟩ := List.forall_mem_cons.1 hunnamed
    obtain ⟨htext, hopen⟩ := List.forall_mem_cons.1 hopen
    obtain ⟨below, inner, gs, -, hawaiting, hbelow, hinner, hgs, rfl⟩ |
      ⟨hcalls, s', hs', hread⟩ := readLevel_cons_eq_ok.1 hs
    · have hfull' : ∀ shown, readLevel environment below (words ++ " " ++ text) .start before
          ≠ .error (.emptyValue shown) := by
        intro shown hinner
        refine hfull shown ?_
        rw [readLevel_cons_of_find? htrailing hawaiting hbelow, hinner]
        rfl
      obtain ⟨inner', hinner', halike⟩ := ih (ho.of_find? hbelow).2 (State.Beside.start p.key)
        State.Tells.start rfl hrest hopen hfull' hinner
      exact h.call hp ho henv htrailing hawaiting hbelow hinner' halike hgs
    · have hfull' : ∀ shown, readLevel environment level words s' before
          ≠ .error (.emptyValue shown) := by
        intro shown hlack
        refine hfull shown ?_
        rw [readLevel_cons_of_not_calls hcalls, hs']
        exact hlack
      have htrailing' := (State.trailing_of_argument htext hs').trans htrailing
      obtain ⟨t', ht', hbeside⟩ := h.argument hp ho hname hs'
      have htells' : t'.Tells level p [] := by
        obtain ⟨told, htells', htold⟩ := htells.argument hp ho ht' []
        rw [h.heard_eq_nil hname, List.append_nil] at htold
        exact (List.append_eq_nil_iff.1 htold).1 ▸ htells'
      obtain ⟨reading', hread', halike⟩ :=
        ih ho hbeside htells' htrailing' hrest hopen hfull' hread
      exact ⟨reading', readLevel_cons_eq_ok.2 (.inr ⟨h.not_calls hcalls, t', ht', hread'⟩), halike⟩

theorem eq_of_shape_escape (h : Shape.of text = .escape) : text = "--" := by
  unfold Shape.of at h
  split at h
  · rename_i htext
    rw [← String.ofList_toList (s := text), htext]
  · split at h <;> cases h
  · cases h
  · cases h
  · cases h

/-- A setting is added to a line and its environment: on the line, behind arguments that neither
end the options nor lack a value at their end, or in the environment, or in both. The line did not
name it before. -/
structure Adds (p : Parameter) (level : Level) (environment swapped : String → Option String)
    (before after : List String) (value : Option String) (form : List String) : Prop where
  unnamed : Unnamed p (before ++ after)
  unended : "--" ∉ before
  full : ∀ shown, Cli.read environment level before ≠ .error (.emptyValue shown)
  spells : Spells p.key value form
  accepted : ∀ v, value = some v → p.Takes [v] v
  swaps : p.Swaps environment swapped

theorem Adds.not_escape {before after form : List String} {value : Option String}
    (h : Adds p level environment swapped before after value form) :
    ∀ text ∈ before, Shape.of text ≠ .escape :=
  fun _ htext hshape => h.unended (eq_of_shape_escape hshape ▸ htext)

/-- The line with the setting tells the setting and nothing else about it. -/
theorem Adds.spoken_eq {before after form : List String} {value : Option String} (hp : p.IsSetting)
    (h : Adds p level environment swapped before after value form) :
    spoken p.key (before ++ form ++ after) = value.toList := by
  obtain ⟨hbefore, hafter⟩ := List.forall_mem_append.1 h.unnamed
  rw [List.append_assoc, spoken_append hbefore h.not_escape]
  cases h.spells with
  | absent => exact spoken_of_unnamed hafter
  | attached v => simp [spoken, shape_attached hp, spoken_of_unnamed hafter]
  | separate hv => simp [spoken, shape_separate hp, hv, spoken_of_unnamed hafter]

/-- **A setting can be added.** A line that is understood is also understood with the setting, and
all but the setting is read of it as before. -/
theorem Adds.exists_read {before after form : List String} {value : Option String}
    (hp : p.IsSetting) (ho : p.Offered level)
    (h : Adds p level environment swapped before after value form)
    (hread : Cli.read environment level (before ++ after) = .ok reading) :
    ∃ reading', Cli.read swapped level (before ++ form ++ after) = .ok reading' ∧
      Alike p.key reading reading' ∧
      (globalValue? p.key reading').map (·.value) = value.or (p.fromVariable.bind swapped) := by
  obtain ⟨reading', hread', halike⟩ := readLevel_insert hp ho h.swaps (State.Beside.start p.key)
    State.Tells.start rfl h.unnamed h.not_escape h.full h.spells h.accepted hread
  have hvalue := (globalValue?_eq hp ho hread').1
  rw [h.spoken_eq hp] at hvalue
  refine ⟨reading', hread', halike, hvalue.trans ?_⟩
  cases value <;> rfl

end Reading

end DataClient.Cli
