import DataClient.Command.Grammar
import DataClient.Proofs.Outcome

/-!
# Steps in a level of a command line

What each step in a level needs and what it leaves, as equivalences. Every option and every operand
begins by settling what is pending, so the values that are kept by then, and not the state as a
whole, are what the later steps depend on.
-/

set_option autoImplicit false

namespace DataClient.Cli

open Outcome

/-! ## Values that are kept -/

theorem lookup?_append (key : String) (gs : List Given) (g : Given) :
    lookup? key (gs ++ [g]) = (lookup? key gs).or (if g.key = key then some g else none) := by
  unfold lookup?
  rw [List.find?_append]
  by_cases h : g.key = key
  · rw [if_pos h, List.find?_cons_of_pos (by simpa using h)]
  · rw [if_neg h, List.find?_cons_of_neg (by simpa using h), List.find?_nil]

theorem lookup?_append_ne {key : String} {g : Given} (h : g.key ≠ key) (gs : List Given) :
    lookup? key (gs ++ [g]) = lookup? key gs := by
  rw [lookup?_append, if_neg h, Option.or_none]

theorem lookup?_append_self {g : Given} {gs : List Given} (h : lookup? g.key gs = none) :
    lookup? g.key (gs ++ [g]) = some g := by
  rw [lookup?_append, h, if_pos rfl, Option.none_or]

/-! ## What a parameter takes -/

/-- Whether a value belongs to the parameter. -/
def Parameter.wantsValue (p : Parameter) : Bool :=
  match p.role with
  | .value _ => true
  | _ => false

/-- A parameter makes a value of the values that it is given, which is one of its kind. -/
def Parameter.Takes (p : Parameter) (values : List String) (value : String) : Prop :=
  match p.role, values with
  | .flag, _ => value = "true"
  | .value kind, v :: _ => value = v ∧ kind.check p.shown v = .ok ()
  | _, _ => False

theorem Parameter.wantsValue_iff {p : Parameter} :
    p.wantsValue = true ↔ ∃ kind, p.role = .value kind := by
  unfold wantsValue
  cases p.role <;> simp

theorem Parameter.not_takes_nil {p : Parameter} (h : p.wantsValue = true) (value : String) :
    ¬ p.Takes [] value := by
  obtain ⟨kind, hrole⟩ := wantsValue_iff.1 h
  simp [Takes, hrole]

theorem Parameter.Takes.eq {p : Parameter} (h : p.wantsValue = true) {v value : String}
    (ht : p.Takes [v] value) : value = v := by
  obtain ⟨kind, hrole⟩ := wantsValue_iff.1 h
  simp only [Takes, hrole] at ht
  exact ht.1

theorem Shape.of_ne_short_nil (text : String) : Shape.of text ≠ .short [] := by
  unfold Shape.of
  split <;> simp_all
  split <;> simp_all

namespace State

variable {level : Level} {s s' : State} {p : Parameter} {origin : Origin}

/-- What is kept once the pending parameter has been checked. -/
def Settles (s : State) (gs : List Given) : Prop :=
  match s.pending with
  | none => gs = s.given
  | some (p, values) => ∃ value, p.Takes values value ∧ lookup? p.key s.given = none ∧
      gs = s.given ++ [⟨p.key, value, .commandLine⟩]

/-- The state after an option that was given its value. -/
def keeping (s : State) (gs : List Given) (g : Given) : State :=
  { s with given := gs ++ [g], pending := none, awaiting := false }

/-- The state after an option whose value comes next. -/
def waiting (s : State) (gs : List Given) (p : Parameter) : State :=
  { s with given := gs, pending := some (p, []), awaiting := true }

/-- The state after an operand. -/
def holding (s : State) (gs : List Given) (p : Parameter) (text : String) : State :=
  { s with given := gs, pending := some (p, [text]), awaiting := false, position := s.position + 1 }

theorem enter_eq_ok {values : List String} :
    s.enter level p origin values = .ok s' ↔ ∃ value, p.Takes values value ∧
      lookup? p.key s.given = none ∧ s' = { s with given := s.given ++ [⟨p.key, value, origin⟩] } := by
  have hkeep : ∀ (value : String) (t : State),
      ((if (lookup? p.key s.given).isSome then .error (.repeated p.shown)
        else .ok { s with given := s.given ++ [⟨p.key, value, origin⟩] } : Except Fault State)
          = .ok t) ↔ lookup? p.key s.given = none ∧
        t = { s with given := s.given ++ [⟨p.key, value, origin⟩] } := by
    intro value t
    cases lookup? p.key s.given <;> simp [eq_comm]
  unfold enter Parameter.Takes
  match hrole : p.role, values with
  | .help, _ => simp
  | .version, _ => simp
  | .flag, _ => simp [hkeep]
  | .value kind, [] => simp
  | .value kind, v :: vs =>
    simp only [bind_eq_ok, hkeep]
    constructor
    · rintro ⟨s₁, ⟨hfree, rfl⟩, _, hcheck, hs⟩
      exact ⟨v, ⟨rfl, hcheck⟩, hfree, (Except.ok.inj hs).symm⟩
    · rintro ⟨_, ⟨rfl, hcheck⟩, hfree, rfl⟩
      exact ⟨_, ⟨hfree, rfl⟩, (), hcheck, rfl⟩

theorem settle_eq_ok :
    s.settle level = .ok s' ↔ ∃ gs, s.Settles gs ∧ s' = { s with pending := none, given := gs } := by
  obtain ⟨given, pending, awaiting, position, trailing⟩ := s
  unfold settle Settles
  cases pending with
  | none => simp [eq_comm]
  | some pending =>
    obtain ⟨p, values⟩ := pending
    simp only [enter_eq_ok]
    constructor
    · rintro ⟨value, ht, hfree, rfl⟩
      exact ⟨_, ⟨value, ht, hfree, rfl⟩, rfl⟩
    · rintro ⟨_, ⟨value, ht, hfree, rfl⟩, rfl⟩
      exact ⟨value, ht, hfree, rfl⟩

/-- What waits for a value is not accepted without it. -/
theorem settle_of_waits (hp : s.pending = some (p, [])) (hwants : p.wantsValue = true) :
    s.settle level = .error (.emptyValue p.shown) := by
  obtain ⟨kind, hrole⟩ := Parameter.wantsValue_iff.1 hwants
  simp only [settle, hp, enter, hrole]

/-- An option with its value at hand, or without one if it takes none, is kept; one that takes a
value and is not given it waits. -/
theorem option_eq_ok {value : Option String} :
    s.option level p value = .ok s' ↔ ∃ gs, s.Settles gs ∧
      ((p.wantsValue = true ∧ value = none ∧ s' = s.waiting gs p) ∨
        (p.wantsValue = value.isSome ∧ ∃ v, p.Takes value.toList v ∧ lookup? p.key gs = none ∧
          s' = s.keeping gs ⟨p.key, v, .commandLine⟩)) := by
  have htake : ∀ values, s.take level p values = .ok s' ↔ ∃ gs, s.Settles gs ∧
      ∃ v, p.Takes values v ∧ lookup? p.key gs = none ∧
        s' = s.keeping gs ⟨p.key, v, .commandLine⟩ := by
    intro values
    unfold take
    simp only [bind_eq_ok, settle_eq_ok, enter_eq_ok]
    constructor
    · rintro ⟨_, ⟨gs, hgs, rfl⟩, _, ⟨v, hv, hfree, rfl⟩, hs⟩
      exact ⟨gs, hgs, v, hv, hfree, (Except.ok.inj hs).symm⟩
    · rintro ⟨gs, hgs, v, hv, hfree, rfl⟩
      exact ⟨_, ⟨gs, hgs, rfl⟩, _, ⟨v, hv, hfree, rfl⟩, rfl⟩
  have hawait : s.await level p = .ok s' ↔ ∃ gs, s.Settles gs ∧ s' = s.waiting gs p := by
    unfold await
    simp only [bind_eq_ok, settle_eq_ok]
    constructor
    · rintro ⟨_, ⟨gs, hgs, rfl⟩, hs⟩
      exact ⟨gs, hgs, (Except.ok.inj hs).symm⟩
    · rintro ⟨gs, hgs, rfl⟩
      exact ⟨_, ⟨gs, hgs, rfl⟩, rfl⟩
  unfold option Parameter.wantsValue
  match hrole : p.role, value with
  | .value _, some v => simp [htake]
  | .value _, none => simp [hawait, Parameter.Takes, hrole]
  | .flag, some v => simp
  | .flag, none => simp [htake]
  | .help, some v => simp
  | .help, none => simp [htake]
  | .version, some v => simp
  | .version, none => simp [htake]

/-- The value that stands behind a short name, if anything does. -/
def attached : List Char → Option String
  | [] => none
  | '=' :: v => some (String.ofList v)
  | v => some (String.ofList v)

/-- Of short names that stand together, one that takes a value is the last. -/
theorem shorts_cons_eq_ok {c : Char} {cs : List Char} :
    s.shorts level (c :: cs) = .ok s' ↔ ∃ p, level.parameters.find? (·.short == some c) = some p ∧
      ((p.wantsValue = true ∧ s.option level p (attached cs) = .ok s') ∨
        (p.wantsValue = false ∧ ∃ t, s.option level p none = .ok t ∧ t.shorts level cs = .ok s')) := by
  rw [shorts]
  cases level.parameters.find? (·.short == some c) with
  | none => simp
  | some p =>
    match hrole : p.role with
    | .value kind =>
      simp only [Option.some.injEq, exists_eq_left', Parameter.wantsValue, hrole, true_and,
        Bool.true_eq_false, false_and, or_false]
      unfold attached
      split <;> simp_all
    | .flag => simp [Parameter.wantsValue, hrole, bind_eq_ok]
    | .help => simp [Parameter.wantsValue, hrole, bind_eq_ok]
    | .version => simp [Parameter.wantsValue, hrole, bind_eq_ok]

theorem operand_eq_ok {text : String} :
    s.operand level text = .ok s' ↔ ∃ p gs, level.operands[s.position]? = some p ∧ s.Settles gs ∧
      s' = s.holding gs p text := by
  unfold operand
  cases level.operands[s.position]? with
  | none =>
    simp only [reduceCtorEq, false_and, exists_false, iff_false]
    split <;> exact fun h => nomatch h
  | some p =>
    simp only [bind_eq_ok, settle_eq_ok]
    constructor
    · rintro ⟨_, ⟨gs, hgs, rfl⟩, hs⟩
      exact ⟨p, gs, rfl, hgs, (Except.ok.inj hs).symm⟩
    · rintro ⟨_, gs, hp, hgs, rfl⟩
      cases hp
      exact ⟨_, ⟨gs, hgs, rfl⟩, rfl⟩

theorem settles_of_option {value : Option String} (h : s.option level p value = .ok s') :
    s'.trailing = s.trailing ∧ ∃ gs, s.Settles gs := by
  obtain ⟨gs, hgs, ⟨-, -, rfl⟩ | ⟨-, _, -, -, rfl⟩⟩ := option_eq_ok.1 h
  · exact ⟨rfl, gs, hgs⟩
  · exact ⟨rfl, gs, hgs⟩

theorem settles_of_shorts {c : Char} {cs : List Char} (h : s.shorts level (c :: cs) = .ok s') :
    s'.trailing = s.trailing ∧ ∃ gs, s.Settles gs := by
  induction cs generalizing s c with
  | nil =>
    obtain ⟨p, -, ⟨-, hlast⟩ | ⟨-, t, ht, hrest⟩⟩ := shorts_cons_eq_ok.1 h
    · exact settles_of_option hlast
    · cases hrest
      exact settles_of_option ht
  | cons d ds ih =>
    obtain ⟨p, -, ⟨-, hlast⟩ | ⟨-, t, ht, hrest⟩⟩ := shorts_cons_eq_ok.1 h
    · exact settles_of_option hlast
    · obtain ⟨htrailing, hgs⟩ := settles_of_option ht
      exact ⟨(ih hrest).1.trans htrailing, hgs⟩

theorem settles_of_operand {text : String} (h : s.operand level text = .ok s') :
    s'.trailing = s.trailing ∧ s'.awaiting = false ∧ ∃ gs, s.Settles gs := by
  obtain ⟨_, gs, -, hgs, rfl⟩ := operand_eq_ok.1 h
  exact ⟨rfl, rfl, gs, hgs⟩

/-- How an argument that calls no command is read. -/
inductive Reads (s : State) (level : Level) (text : String) : State → Prop
  | behindEscape {s' : State} (htrailing : s.trailing = true)
    (hs : s.operand level text = .ok s') : Reads s level text s'
  | escape (htrailing : s.trailing = false) (hshape : Shape.of text = .escape) :
    Reads s level text { s with trailing := true }
  | long {n : String} {value : Option String} {p : Parameter} {s' : State}
    (htrailing : s.trailing = false) (hshape : Shape.of text = .long n value)
    (hfind : level.parameters.find? (·.long == some n) = some p)
    (hs : s.option level p value = .ok s') : Reads s level text s'
  | shorts {c : Char} {cs : List Char} {s' : State} (htrailing : s.trailing = false)
    (hshape : Shape.of text = .short (c :: cs)) (hs : s.shorts level (c :: cs) = .ok s') :
    Reads s level text s'
  | value {p : Parameter} {values : List String} (htrailing : s.trailing = false)
    (hshape : Shape.of text = .plain) (hawaiting : s.awaiting = true)
    (hpending : s.pending = some (p, values)) :
    Reads s level text { s with pending := some (p, values ++ [text]), awaiting := false }
  | operand {s' : State} (htrailing : s.trailing = false) (hshape : Shape.of text = .plain)
    (hfree : s.awaiting = true → s.pending = none) (hs : s.operand level text = .ok s') :
    Reads s level text s'

theorem reads_of_argument {text : String} (h : s.argument level text = .ok s') :
    s.Reads level text s' := by
  unfold argument at h
  cases htrailing : s.trailing with
  | true =>
    rw [if_pos htrailing] at h
    exact .behindEscape htrailing h
  | false =>
    rw [if_neg (Bool.eq_false_iff.1 htrailing)] at h
    cases hshape : Shape.of text with
    | escape =>
      rw [hshape] at h
      cases h
      exact .escape htrailing hshape
    | long n value =>
      rw [hshape] at h
      simp only [State.long] at h
      cases hfind : level.parameters.find? (·.long == some n) with
      | none =>
        rw [hfind] at h
        cases h
      | some p =>
        rw [hfind] at h
        exact .long htrailing hshape hfind h
    | short cs =>
      rw [hshape] at h
      obtain ⟨c, cs, rfl⟩ := List.exists_cons_of_ne_nil fun hnil =>
        Shape.of_ne_short_nil text (hnil ▸ hshape)
      exact .shorts htrailing hshape h
    | plain =>
      rw [hshape] at h
      simp only at h
      split at h
      · rename_i hawaiting hpending
        cases h
        exact .value htrailing hshape hawaiting hpending
      · rename_i hother
        refine .operand htrailing hshape (fun hawaiting => ?_) h
        cases hpending : s.pending with
        | none => rfl
        | some pending => exact absurd hpending (hother pending.1 pending.2 hawaiting)

theorem argument_of_reads {text : String} (h : s.Reads level text s') :
    s.argument level text = .ok s' := by
  unfold argument
  cases h with
  | behindEscape htrailing hs => rw [if_pos htrailing, hs]
  | escape htrailing hshape => simp [htrailing, hshape]
  | long htrailing hshape hfind hs => simp [htrailing, hshape, State.long, hfind, hs]
  | shorts htrailing hshape hs => simp [htrailing, hshape, hs]
  | value htrailing hshape hawaiting hpending => simp [htrailing, hshape, hawaiting, hpending]
  | operand htrailing hshape hfree hs =>
    cases hawaiting : s.awaiting with
    | true => simp [htrailing, hshape, hfree hawaiting, hs]
    | false => simp [htrailing, hshape, hs]

theorem argument_eq_ok {text : String} :
    s.argument level text = .ok s' ↔ s.Reads level text s' :=
  ⟨reads_of_argument, argument_of_reads⟩

/-- An argument ends the options, or is the value that is waited for, or begins by settling. -/
theorem argument_cases {text : String} (h : s.argument level text = .ok s') :
    (Shape.of text = .escape ∧ s' = { s with trailing := true }) ∨
      (s.awaiting = true ∧ s'.trailing = s.trailing) ∨
      (s'.trailing = s.trailing ∧ ∃ gs, s.Settles gs) := by
  cases argument_eq_ok.1 h with
  | behindEscape _ hs =>
    obtain ⟨hsame, -, hgs⟩ := settles_of_operand hs
    exact .inr (.inr ⟨hsame, hgs⟩)
  | escape _ hshape => exact .inl ⟨hshape, rfl⟩
  | long _ _ _ hs => exact .inr (.inr (settles_of_option hs))
  | shorts _ _ hs => exact .inr (.inr (settles_of_shorts hs))
  | value _ _ hawaiting => exact .inr (.inl ⟨hawaiting, rfl⟩)
  | operand _ _ _ hs =>
    obtain ⟨hsame, -, hgs⟩ := settles_of_operand hs
    exact .inr (.inr ⟨hsame, hgs⟩)

/-- Only `--` ends the options. -/
theorem trailing_of_argument {text : String} (htext : Shape.of text ≠ .escape)
    (h : s.argument level text = .ok s') : s'.trailing = s.trailing := by
  obtain ⟨hshape, -⟩ | ⟨-, hsame⟩ | ⟨hsame, -⟩ := argument_cases h
  · exact absurd hshape htext
  · exact hsame
  · exact hsame

/-- A parameter is taken from the environment if that gives it and nothing is kept of it yet. -/
theorem complete_cons_eq_ok {environment : String → Option String} {ps : List Parameter} :
    s.complete level environment (p :: ps) = .ok s' ↔
      (((lookup? p.key s.given).isSome = true ∨ p.fromVariable.bind environment = none) ∧
        s.complete level environment ps = .ok s') ∨
      ∃ v value, p.fromVariable.bind environment = some v ∧ lookup? p.key s.given = none ∧
        p.Takes [v] value ∧
        complete level environment
          { s with given := s.given ++ [⟨p.key, value, .environment⟩] } ps = .ok s' := by
  rw [State.complete]
  cases hv : p.fromVariable.bind environment with
  | none => simp
  | some v =>
    cases hfree : lookup? p.key s.given with
    | some g => simp
    | none =>
      simp only [Option.isSome_none, Bool.false_eq_true, if_false, bind_eq_ok, enter_eq_ok,
        hfree, true_and, false_or, reduceCtorEq, false_and, Option.some.injEq]
      constructor
      · rintro ⟨_, ⟨value, ht, rfl⟩, hrest⟩
        exact ⟨v, value, rfl, ht, hrest⟩
      · rintro ⟨_, value, rfl, ht, hrest⟩
        exact ⟨_, ⟨value, ht, rfl⟩, hrest⟩

/-- What is kept at the end of a level. -/
theorem finish_eq_ok {environment : String → Option String} {words : String} {called : Bool}
    {gs : List Given} :
    s.finish level environment words called = .ok gs ↔ ∃ kept s', s.Settles kept ∧
      State.complete level environment { s with pending := none, given := kept } level.parameters
        = .ok s' ∧
      (called = true ∨ level.commands = []) ∧ firstConflict? level.parameters s'.given = none ∧
      level.parameters.any (isMissing s'.given) = false ∧ gs = s'.given := by
  unfold finish
  simp only [bind_eq_ok, settle_eq_ok]
  constructor
  · rintro ⟨_, ⟨kept, hkept, rfl⟩, s', hs', h⟩
    refine ⟨kept, s', hkept, hs', ?_⟩
    obtain ⟨hcalled, h⟩ := check_eq_ok.1 h
    have hcalled : called = true ∨ level.commands = [] := by
      cases called
      · exact .inr (by simpa using hcalled)
      · exact .inl rfl
    cases hconflict : firstConflict? level.parameters s'.given with
    | some fault =>
      rw [hconflict] at h
      cases h
    | none =>
      rw [hconflict] at h
      obtain ⟨hmissing, h⟩ := check_eq_ok.1 h
      exact ⟨hcalled, rfl, by simpa using hmissing, (Except.ok.inj h).symm⟩
  · rintro ⟨kept, s', hkept, hs', hcalled, hconflict, hmissing, rfl⟩
    refine ⟨_, ⟨kept, hkept, rfl⟩, s', hs', ?_⟩
    refine check_eq_ok.2 ⟨?_, ?_⟩
    · rcases hcalled with rfl | hcommands
      · simp
      · simp [hcommands]
    · rw [hconflict, hmissing]
      rfl

end State

/-- An argument calls a command, or asks for one to be explained. -/
def State.Calls (s : State) (level : Level) (text : String) : Prop :=
  s.trailing = false ∧ s.awaiting = false ∧ level.hasCommand text = true

section Levels

variable {environment : String → Option String} {level : Level} {words : String} {s s' : State}
  {text : String} {rest : List String} {reading : Reading}

/-- An argument that calls a command leaves the level for the one below. -/
theorem readLevel_cons_of_find? (htrailing : s.trailing = false) (hawaiting : s.awaiting = false)
    {below : Level} (hbelow : level.find? text = some below) :
    readLevel environment level words s (text :: rest) = do
      let inner ← readLevel environment below (words ++ " " ++ text) .start rest
      return ((level.name, ← s.finish level environment words true) :: inner) := by
  rw [readLevel]
  simp only [htrailing, hawaiting, Bool.not_false, Bool.and_self, if_true, hbelow]

/-- An argument that calls no command is read in the level. -/
theorem readLevel_cons_of_not_calls (hcalls : ¬ s.Calls level text) :
    readLevel environment level words s (text :: rest)
      = s.argument level text >>= fun s => readLevel environment level words s rest := by
  rw [readLevel]
  by_cases hmay : (!s.trailing && !s.awaiting) = true
  · have hstate : s.trailing = false ∧ s.awaiting = false := by simpa using hmay
    have hnot : level.hasCommand text = false := by
      simpa [State.Calls, hstate] using hcalls
    obtain ⟨hfind, hhelp⟩ := Bool.or_eq_false_iff.1 hnot
    rw [Option.isSome_eq_false_iff, Option.isNone_iff_eq_none] at hfind
    have hask : ¬ (((!s.trailing && !s.awaiting) = true) ∧
        (!level.commands.isEmpty) = true ∧ text = helpName) := by
      rintro ⟨-, hcommands, rfl⟩
      simp [hcommands] at hhelp
    simp only [hmay, if_true, hfind]
    rw [if_neg (by simpa [hmay] using hask)]
  · simp only [hmay, Bool.false_eq_true, if_false, false_and]

theorem readLevel_cons_eq_ok :
    readLevel environment level words s (text :: rest) = .ok reading ↔
      (∃ below inner gs, s.trailing = false ∧ s.awaiting = false ∧ level.find? text = some below ∧
        readLevel environment below (words ++ " " ++ text) .start rest = .ok inner ∧
        s.finish level environment words true = .ok gs ∧ reading = (level.name, gs) :: inner) ∨
      (¬ s.Calls level text ∧ ∃ s', s.argument level text = .ok s' ∧
        readLevel environment level words s' rest = .ok reading) := by
  by_cases hcalls : s.Calls level text
  · obtain ⟨htrailing, hawaiting, hcommand⟩ := id hcalls
    cases hbelow : level.find? text with
    | some below =>
      rw [readLevel_cons_of_find? htrailing hawaiting hbelow]
      simp only [bind_eq_ok, htrailing, hawaiting, hcalls, not_true_eq_false, false_and, or_false,
        true_and, Option.some.injEq, exists_eq_left', exists_and_left]
      constructor
      · rintro ⟨inner, hinner, gs, hgs, h⟩
        exact ⟨inner, hinner, gs, hgs, (Except.ok.inj h).symm⟩
      · rintro ⟨inner, hinner, gs, hgs, rfl⟩
        exact ⟨inner, hinner, gs, hgs, rfl⟩
    | none =>
      rw [Level.hasCommand, hbelow] at hcommand
      obtain ⟨rfl, hhelp⟩ : text = helpName ∧ (!level.commands.isEmpty) = true := by
        simpa using hcommand
      rw [readLevel]
      simp [htrailing, hawaiting, hbelow, hhelp, hcalls]
  · rw [readLevel_cons_of_not_calls hcalls, bind_eq_ok]
    constructor
    · exact fun h => .inr ⟨hcalls, h⟩
    · rintro (⟨_, _, _, htrailing, hawaiting, hbelow, -⟩ | ⟨-, h⟩)
      · have hcommand : level.hasCommand text = true := by simp [Level.hasCommand, hbelow]
        exact absurd ⟨htrailing, hawaiting, hcommand⟩ hcalls
      · exact h

/-- A reading holds at least the level that it began at. -/
theorem readLevel_ne_nil {arguments : List String}
    (h : readLevel environment level words s arguments = .ok reading) : reading ≠ [] := by
  induction arguments generalizing s with
  | nil =>
    obtain ⟨gs, -, hreading⟩ := bind_eq_ok.1 h
    cases hreading
    exact List.cons_ne_nil _ _
  | cons text rest ih =>
    obtain ⟨_, _, _, -, -, -, -, -, rfl⟩ | ⟨-, _, -, hrest⟩ := readLevel_cons_eq_ok.1 h
    · exact List.cons_ne_nil _ _
    · exact ih hrest

end Levels

end DataClient.Cli
