import DataClient.Proofs.Command.Steps
import Mathlib.Data.List.Forall2

/-!
# The value of an option

What a command line gives an option, read off the arguments alone, is what the levels keep of it.
The invariant of a level says of its state which of these values have been met: they are kept once
what is pending has settled, and an option that waits takes the next argument. Every argument moves
some of what is still to be heard to what was told, so at the end all of it was told. Of the levels
the innermost one that was told something has the last word, and the environment speaks where no
level was told anything.
-/

set_option autoImplicit false

namespace DataClient.Cli

open Outcome

variable {environment : String → Option String} {level : Level} {words : String} {s s' : State}
  {p q : Parameter} {told : List String} {gs : List Given}

/-- The values that arguments give an option, in order: attached to it, or else the argument behind
it. Two dashes alone end the options. -/
def spoken (name : String) : List String → List String
  | [] => []
  | text :: rest =>
    match Shape.of text with
    | .escape => []
    | .long n (some v) => if n = name then v :: spoken name rest else spoken name rest
    | .long n none => if n = name then rest.head?.toList ++ spoken name rest else spoken name rest
    | _ => spoken name rest

/-- An option that takes a value, has a long name only, and can be given or left out beside any
other. -/
structure Parameter.IsSetting (p : Parameter) : Prop where
  named : p.key ≠ ""
  unmarked : '=' ∉ p.key.toList
  wants : p.wantsValue = true
  long : p.long = some p.key
  short : p.short = none
  notOperand : p.isOperand = false
  optional : p.required = false
  alone : p.instead = none

/-- A level and the levels below it have the option under its name, and have nothing else with its
key or its variable, nor anything that it stands in for; no command looks like an option. -/
inductive Parameter.Offered (p : Parameter) : Level → Prop
  | mk {level : Level}
    (found : level.parameters.find? (·.long == some p.key) = some p)
    (only : ∀ q ∈ level.parameters, q.key = p.key → q = p)
    (unreplaced : ∀ q ∈ level.parameters, q.instead ≠ some p.key)
    (variable_only : ∀ q ∈ level.parameters, q.fromVariable = p.fromVariable →
      q = p ∨ p.fromVariable = none)
    (plain : ∀ below ∈ level.commands, Shape.of below.name = .plain)
    (below : ∀ below ∈ level.commands, p.Offered below) : p.Offered level

namespace Parameter.Offered

theorem found (h : p.Offered level) : level.parameters.find? (·.long == some p.key) = some p := by
  cases h; assumption

theorem mem (h : p.Offered level) : p ∈ level.parameters := List.mem_of_find?_eq_some h.found

theorem only (h : p.Offered level) (hq : q ∈ level.parameters) (hkey : q.key = p.key) : q = p := by
  cases h with
  | mk _ only => exact only q hq hkey

theorem unreplaced (h : p.Offered level) (hq : q ∈ level.parameters) : q.instead ≠ some p.key := by
  cases h with
  | mk _ _ unreplaced => exact unreplaced q hq

theorem variable_only (h : p.Offered level) (hq : q ∈ level.parameters) {x : String}
    (hp : p.fromVariable = some x) (hx : q.fromVariable = some x) : q = p := by
  cases h with
  | mk _ _ _ variable_only =>
    exact (variable_only q hq (hx.trans hp.symm)).resolve_right fun h => nomatch hp.symm.trans h

theorem of_find? (h : p.Offered level) {name : String} {below : Level}
    (hb : level.find? name = some below) : Shape.of name = .plain ∧ p.Offered below := by
  have hmem := List.mem_of_find?_eq_some hb
  have hname : below.name = name := by simpa using List.find?_some hb
  cases h with
  | mk _ _ _ _ plain offered => exact ⟨hname ▸ plain below hmem, offered below hmem⟩

/-- What has a short name is not the option. -/
theorem ne_of_short (ho : p.Offered level) (hp : p.IsSetting) {c : Char}
    (hfind : level.parameters.find? (·.short == some c) = some q) : q.key ≠ p.key := by
  intro hkey
  have hshort : q.short = some c := by simpa using List.find?_some hfind
  rw [ho.only (List.mem_of_find?_eq_some hfind) hkey, hp.short] at hshort
  cases hshort

/-- What has another long name is not the option. -/
theorem ne_of_long (ho : p.Offered level) (hp : p.IsSetting) {n : String}
    (hfind : level.parameters.find? (·.long == some n) = some q) (hn : n ≠ p.key) :
    q.key ≠ p.key := by
  intro hkey
  have hlong : q.long = some n := by simpa using List.find?_some hfind
  rw [ho.only (List.mem_of_find?_eq_some hfind) hkey, hp.long] at hlong
  exact hn (Option.some.inj hlong).symm

/-- An operand is not the option. -/
theorem ne_of_operand (ho : p.Offered level) (hp : p.IsSetting) {position : Nat}
    (hq : level.operands[position]? = some q) : q.key ≠ p.key := by
  intro hkey
  obtain ⟨hmem, hoperand⟩ := List.mem_filter.1 (List.mem_of_getElem? hq)
  rw [ho.only hmem hkey, hp.notOperand] at hoperand
  cases hoperand

end Parameter.Offered

/-! ## One level -/

/-- What is kept of an option that was given some values; at one level it can be given once. -/
inductive Kept (p : Parameter) (gs : List Given) : List String → Prop
  | nothing (h : lookup? p.key gs = none) : Kept p gs []
  | value {v : String} (h : lookup? p.key gs = some ⟨p.key, v, .commandLine⟩) (ok : p.Takes [v] v) :
    Kept p gs [v]

theorem Kept.append_ne (h : Kept p gs told) {g : Given} (hg : g.key ≠ p.key) :
    Kept p (gs ++ [g]) told := by
  cases h with
  | nothing h => exact .nothing (by rw [lookup?_append_ne hg, h])
  | value h ok => exact .value (by rw [lookup?_append_ne hg, h]) ok

theorem Kept.append_self (h : Kept p gs told) (hfree : lookup? p.key gs = none) {v : String}
    (ok : p.Takes [v] v) : Kept p (gs ++ [⟨p.key, v, .commandLine⟩]) (told ++ [v]) := by
  cases h with
  | nothing h => exact .value (lookup?_append_self (g := ⟨p.key, v, .commandLine⟩) h) ok
  | value h _ => exact nomatch h.symm.trans hfree

/-- The option was given some values so far. An option that waits when nothing can follow it any
more will never settle, so nothing has to be said about it. -/
structure State.Tells (s : State) (level : Level) (p : Parameter) (told : List String) : Prop where
  settled : ∀ gs, s.Settles gs → Kept p gs told
  waits : s.awaiting = true → s.trailing = false → ∃ q ∈ level.parameters,
    s.pending = some (q, []) ∧ q.wantsValue = true ∧ Kept p s.given told

/-- The key whose value is the next argument. -/
def State.awaitedKey (s : State) : Option String :=
  if s.awaiting then s.pending.map (·.1.key) else none

/-- What arguments still tell about an option. -/
def State.heard (s : State) (p : Parameter) (arguments : List String) : List String :=
  if s.trailing then []
  else (if s.awaitedKey = some p.key then arguments.head?.toList else []) ++ spoken p.key arguments

/-- A state that does not wait for the option hears what is spoken. -/
theorem State.heard_eq_spoken (htrailing : s.trailing = false)
    (hawaited : s.awaitedKey ≠ some p.key) (arguments : List String) :
    s.heard p arguments = spoken p.key arguments := by
  simp [State.heard, htrailing, hawaited]

namespace State.Tells

theorem start : State.start.Tells level p [] :=
  ⟨fun gs h => .nothing (by rw [show gs = [] from h]; rfl), fun h => nomatch h⟩

/-- A state that waits does not settle. -/
theorem not_awaiting (h : s.Tells level p told) (htrailing : s.trailing = false)
    (hgs : s.Settles gs) : s.awaiting = false := by
  rw [Bool.eq_false_iff]
  intro hawaiting
  obtain ⟨q, -, hpending, hwants, -⟩ := h.waits hawaiting htrailing
  rw [Settles, hpending] at hgs
  obtain ⟨value, ht, -⟩ := hgs
  exact Parameter.not_takes_nil hwants value ht

theorem keeping {g : Given} (hk : Kept p (gs ++ [g]) told) :
    (s.keeping gs g).Tells level p told :=
  ⟨fun gs' h => (show gs' = gs ++ [g] from h) ▸ hk, fun h => nomatch h⟩

theorem waiting (hq : q ∈ level.parameters) (hwants : q.wantsValue = true) (hk : Kept p gs told) :
    (s.waiting gs q).Tells level p told :=
  ⟨fun _ ⟨value, ht, _⟩ => absurd ht (Parameter.not_takes_nil hwants value),
    fun _ _ => ⟨q, hq, rfl, hwants, hk⟩⟩

theorem holding {text : String} (hq : q.key ≠ p.key) (hk : Kept p gs told) :
    (s.holding gs q text).Tells level p told := by
  refine ⟨fun _ ⟨value, _, _, hgs⟩ => ?_, fun h => nomatch h⟩
  rw [hgs]
  exact hk.append_ne hq

/-- Another option tells nothing about this one. -/
theorem option (h : s.Tells level p told) (hq : q ∈ level.parameters) (hkey : q.key ≠ p.key)
    {value : Option String} (hs : s.option level q value = .ok s') :
    s'.Tells level p told ∧ s'.awaitedKey ≠ some p.key := by
  obtain ⟨gs, hgs, ⟨hwants, -, rfl⟩ | ⟨-, v, -, -, rfl⟩⟩ := option_eq_ok.1 hs
  · exact ⟨waiting hq hwants (h.settled gs hgs), by simp [awaitedKey, State.waiting, hkey]⟩
  · exact ⟨keeping ((h.settled gs hgs).append_ne hkey), by simp [awaitedKey, State.keeping]⟩

/-- The option itself tells the value attached to it, or waits for one. -/
theorem option_self (h : s.Tells level p told) (hp : p.IsSetting) (ho : p.Offered level)
    {value : Option String} (hs : s.option level p value = .ok s') :
    s'.Tells level p (told ++ value.toList) ∧
      s'.awaitedKey = if value.isSome then none else some p.key := by
  obtain ⟨gs, hgs, ⟨hwants, rfl, rfl⟩ | ⟨hsome, v, ht, hfree, rfl⟩⟩ := option_eq_ok.1 hs
  · refine ⟨?_, rfl⟩
    rw [Option.toList_none, List.append_nil]
    exact waiting ho.mem hwants (h.settled gs hgs)
  · obtain ⟨w, rfl⟩ := Option.isSome_iff_exists.1 (hsome.symm.trans hp.wants)
    obtain rfl : v = w := ht.eq hp.wants
    exact ⟨keeping ((h.settled gs hgs).append_self hfree ht), rfl⟩

/-- Options by their short names tell nothing about one that has none. -/
theorem shorts (hp : p.IsSetting) (ho : p.Offered level) {c : Char} {cs : List Char}
    (h : s.Tells level p told) (hs : s.shorts level (c :: cs) = .ok s') :
    s'.Tells level p told ∧ s'.awaitedKey ≠ some p.key := by
  induction cs generalizing s c with
  | nil =>
    obtain ⟨q, hfind, hcases⟩ := shorts_cons_eq_ok.1 hs
    have hq := List.mem_of_find?_eq_some hfind
    obtain ⟨-, hlast⟩ | ⟨-, t, ht, hrest⟩ := hcases
    · exact h.option hq (ho.ne_of_short hp hfind) hlast
    · cases hrest
      exact h.option hq (ho.ne_of_short hp hfind) ht
  | cons d ds ih =>
    obtain ⟨q, hfind, hcases⟩ := shorts_cons_eq_ok.1 hs
    have hq := List.mem_of_find?_eq_some hfind
    obtain ⟨-, hlast⟩ | ⟨-, t, ht, hrest⟩ := hcases
    · exact h.option hq (ho.ne_of_short hp hfind) hlast
    · exact ih (h.option hq (ho.ne_of_short hp hfind) ht).1 hrest

/-- An operand tells nothing about an option. -/
theorem operand (hp : p.IsSetting) (ho : p.Offered level) (h : s.Tells level p told) {text : String}
    (hs : s.operand level text = .ok s') : s'.Tells level p told ∧ s'.awaitedKey = none := by
  obtain ⟨q, gs, hq, hgs, rfl⟩ := operand_eq_ok.1 hs
  exact ⟨holding (ho.ne_of_operand hp hq) (h.settled gs hgs), rfl⟩

/-- A state that goes on settles first, so it does not wait and hears what is spoken. -/
theorem heard_eq (h : s.Tells level p told) (htrailing : s.trailing = false)
    (hgs : ∃ gs, s.Settles gs) (arguments : List String) :
    s.heard p arguments = spoken p.key arguments := by
  obtain ⟨gs, hgs⟩ := hgs
  exact heard_eq_spoken htrailing (by simp [awaitedKey, h.not_awaiting htrailing hgs]) arguments

/-- Two dashes end the options; what waited for a value by then never settles. -/
theorem escape (h : s.Tells level p told) (htrailing : s.trailing = false) {text : String}
    (hshape : Shape.of text = .escape) (rest : List String) :
    ∃ told', { s with trailing := true }.Tells level p told' ∧
      told' ++ { s with trailing := true }.heard p rest = told ++ s.heard p (text :: rest) := by
  have hsettles : ∀ {gs}, { s with trailing := true }.Settles gs → s.Settles gs := id
  cases hawaiting : s.awaiting with
  | true =>
    refine ⟨told ++ s.heard p (text :: rest), ⟨fun gs hgs => ?_, fun _ h => nomatch h⟩, ?_⟩
    · exact nomatch hawaiting.symm.trans (h.not_awaiting htrailing (hsettles hgs))
    · simp [heard]
  | false =>
    refine ⟨told, ⟨fun gs hgs => h.settled gs (hsettles hgs), fun _ h => nomatch h⟩, ?_⟩
    simp [heard, htrailing, awaitedKey, hawaiting, spoken, hshape]

/-- A long name tells about the option that has it. -/
theorem long (hp : p.IsSetting) (ho : p.Offered level) (h : s.Tells level p told)
    (htrailing : s.trailing = false) {text n : String} {value : Option String}
    (hshape : Shape.of text = .long n value)
    (hfind : level.parameters.find? (·.long == some n) = some q)
    (hs : s.option level q value = .ok s') (rest : List String) :
    ∃ told', s'.Tells level p told' ∧
      told' ++ s'.heard p rest = told ++ s.heard p (text :: rest) := by
  obtain ⟨hsame, hgs⟩ := settles_of_option hs
  have htrailing' := hsame.trans htrailing
  rw [h.heard_eq htrailing hgs]
  by_cases hn : n = p.key
  · obtain rfl : q = p := by
      rw [hn, ho.found] at hfind
      exact (Option.some.inj hfind).symm
    obtain ⟨htells, hawaited⟩ := h.option_self hp ho hs
    refine ⟨_, htells, ?_⟩
    cases value <;> simp [heard, htrailing', hawaited, spoken, hshape, hn]
  · obtain ⟨htells, hawaited⟩ :=
      h.option (List.mem_of_find?_eq_some hfind) (ho.ne_of_long hp hfind hn) hs
    refine ⟨told, htells, ?_⟩
    rw [heard_eq_spoken htrailing' hawaited]
    cases value <;> simp [spoken, hshape, hn]

/-- An argument without dashes is the value that is waited for. -/
theorem value (ho : p.Offered level) (h : s.Tells level p told) (htrailing : s.trailing = false)
    (hawaiting : s.awaiting = true) {q : Parameter} {values : List String}
    (hpending : s.pending = some (q, values)) {text : String} (hshape : Shape.of text = .plain)
    (rest : List String) :
    ∃ told',
      { s with pending := some (q, values ++ [text]), awaiting := false }.Tells level p told' ∧
      told' ++ { s with pending := some (q, values ++ [text]), awaiting := false }.heard p rest
        = told ++ s.heard p (text :: rest) := by
  obtain ⟨_, hq, hpending', hwants, hkept⟩ := h.waits hawaiting htrailing
  obtain ⟨rfl, rfl⟩ : q = _ ∧ values = [] := by simpa [hpending] using hpending'
  refine ⟨told ++ if q.key = p.key then [text] else [],
    ⟨fun _ ⟨value, ht, hfree, hgs⟩ => ?_, fun h => nomatch h⟩, ?_⟩
  · rw [hgs]
    obtain rfl : value = text := ht.eq hwants
    split
    · rename_i hkey
      obtain rfl := ho.only hq hkey
      exact hkept.append_self hfree ht
    · rename_i hkey
      rw [List.append_nil]
      exact hkept.append_ne hkey
  · by_cases hkey : q.key = p.key <;>
      simp [heard, htrailing, awaitedKey, hawaiting, hpending, spoken, hshape, hkey]

/-- **What one argument does.** What it tells about the option is no longer to be heard. -/
theorem argument (hp : p.IsSetting) (ho : p.Offered level) (h : s.Tells level p told)
    {text : String} (hs : s.argument level text = .ok s') (rest : List String) :
    ∃ told', s'.Tells level p told' ∧
      told' ++ s'.heard p rest = told ++ s.heard p (text :: rest) := by
  cases argument_eq_ok.1 hs with
  | behindEscape htrailing hs =>
    have htrailing' := (settles_of_operand hs).1.trans htrailing
    exact ⟨told, (operand hp ho h hs).1, by simp [heard, htrailing, htrailing']⟩
  | escape htrailing hshape => exact h.escape htrailing hshape rest
  | long htrailing hshape hfind hs => exact long hp ho h htrailing hshape hfind hs rest
  | shorts htrailing hshape hs =>
    obtain ⟨hsame, hgs⟩ := settles_of_shorts hs
    obtain ⟨htells, hawaited⟩ := shorts hp ho h hs
    refine ⟨told, htells, ?_⟩
    rw [h.heard_eq htrailing hgs, heard_eq_spoken (hsame.trans htrailing) hawaited]
    simp [spoken, hshape]
  | value htrailing hshape hawaiting hpending =>
    exact h.value ho htrailing hawaiting hpending hshape rest
  | operand htrailing hshape _ hs =>
    obtain ⟨hsame, -, hgs⟩ := settles_of_operand hs
    obtain ⟨htells, hawaited⟩ := operand hp ho h hs
    refine ⟨told, htells, ?_⟩
    rw [h.heard_eq htrailing hgs, heard_eq_spoken (hsame.trans htrailing) (by simp [hawaited])]
    simp [spoken, hshape]

end State.Tells

/-! ## The end of a level -/

/-- What a level holds of an option in the end: what it was told, or else what the environment
gives. -/
inductive Found (p : Parameter) (environment : String → Option String) :
    List String → Option Given → Prop
  | spoken {v : String} (ok : p.Takes [v] v) :
    Found p environment [v] (some ⟨p.key, v, .commandLine⟩)
  | environment {v : String} (hv : p.fromVariable.bind environment = some v) (ok : p.Takes [v] v) :
    Found p environment [] (some ⟨p.key, v, .environment⟩)
  | nowhere (hv : p.fromVariable.bind environment = none) : Found p environment [] none

/-- What is kept stays kept. -/
theorem lookup?_complete {ps : List Parameter} {key : String} {g : Given}
    (hg : lookup? key s.given = some g) (hs : s.complete level environment ps = .ok s') :
    lookup? key s'.given = some g := by
  induction ps generalizing s with
  | nil =>
    cases hs
    exact hg
  | cons q ps ih =>
    obtain ⟨-, hrest⟩ | ⟨v, value, -, -, -, hrest⟩ := State.complete_cons_eq_ok.1 hs
    · exact ih hg hrest
    · exact ih (by rw [lookup?_append, hg, Option.some_or]) hrest

/-- What the environment does not give stays free. -/
theorem lookup?_complete_none {ps : List Parameter} {key : String}
    (hfree : lookup? key s.given = none)
    (hps : ∀ q ∈ ps, q.key = key → q.fromVariable.bind environment = none)
    (hs : s.complete level environment ps = .ok s') : lookup? key s'.given = none := by
  induction ps generalizing s with
  | nil =>
    cases hs
    exact hfree
  | cons q ps ih =>
    obtain ⟨hq, hps⟩ := List.forall_mem_cons.1 hps
    obtain ⟨-, hrest⟩ | ⟨v, value, hv, -, -, hrest⟩ := State.complete_cons_eq_ok.1 hs
    · exact ih hfree hps hrest
    · have hne : q.key ≠ key := fun hkey => nomatch hv.symm.trans (hq hkey)
      exact ih (by rw [lookup?_append_ne hne, hfree]) hps hrest

/-- What is free and given by the environment is taken from there. -/
theorem found_complete {ps : List Parameter} (hp : p.IsSetting) (hmem : p ∈ ps)
    (honly : ∀ q ∈ ps, q.key = p.key → q = p) (hfree : lookup? p.key s.given = none)
    (hs : s.complete level environment ps = .ok s') :
    Found p environment [] (lookup? p.key s'.given) := by
  induction ps generalizing s with
  | nil => cases hmem
  | cons q ps ih =>
    obtain ⟨hq, honly⟩ := List.forall_mem_cons.1 honly
    obtain ⟨hskip, hrest⟩ | ⟨v, value, hv, hfree', ht, hrest⟩ := State.complete_cons_eq_ok.1 hs
    · by_cases hkey : q.key = p.key
      · obtain rfl := hq hkey
        have hnone : q.fromVariable.bind environment = none :=
          hskip.resolve_left (by rw [hfree]; exact Bool.false_ne_true)
        rw [lookup?_complete_none hfree (fun r hr hrq => honly r hr hrq ▸ hnone) hrest]
        exact .nowhere hnone
      · have hmem : p ∈ ps := (List.mem_cons.1 hmem).resolve_left fun h => hkey (h ▸ rfl)
        exact ih hmem honly hfree hrest
    · by_cases hkey : q.key = p.key
      · obtain rfl := hq hkey
        obtain rfl := ht.eq hp.wants
        rw [lookup?_complete (lookup?_append_self hfree') hrest]
        exact .environment hv ht
      · have hmem : p ∈ ps := (List.mem_cons.1 hmem).resolve_left fun h => hkey (h ▸ rfl)
        exact ih hmem honly (by rw [lookup?_append_ne hkey, hfree]) hrest

theorem State.Tells.finish {called : Bool} (hp : p.IsSetting) (ho : p.Offered level)
    (h : s.Tells level p told) (hs : s.finish level environment words called = .ok gs) :
    Found p environment told (lookup? p.key gs) := by
  obtain ⟨kept, s', hkept, hcomplete, -, -, -, rfl⟩ := State.finish_eq_ok.1 hs
  cases h.settled kept hkept with
  | nothing hfree => exact found_complete hp ho.mem (fun q => ho.only) hfree hcomplete
  | value hv ok =>
    rw [lookup?_complete hv hcomplete]
    exact .spoken ok

/-! ## All levels -/

/-- **Every value that is spoken reaches the level that it was spoken at.** -/
theorem found_readLevel {arguments : List String} {reading : Reading} (hp : p.IsSetting)
    (ho : p.Offered level) (h : s.Tells level p told)
    (hs : readLevel environment level words s arguments = .ok reading) :
    ∃ tolds, List.Forall₂ (fun l t => Found p environment t (lookup? p.key l.2)) reading tolds ∧
      tolds.flatten = told ++ s.heard p arguments := by
  induction arguments generalizing level words s told reading with
  | nil =>
    obtain ⟨gs, hgs, hreading⟩ := bind_eq_ok.1 hs
    cases hreading
    refine ⟨[told], .cons (h.finish hp ho hgs) .nil, ?_⟩
    simp [State.heard, spoken]
  | cons text rest ih =>
    obtain ⟨below, inner, gs, htrailing, hawaiting, hbelow, hinner, hgs, rfl⟩ | ⟨-, s', hs', hrest⟩ :=
      readLevel_cons_eq_ok.1 hs
    · obtain ⟨hplain, hoffered⟩ := ho.of_find? hbelow
      obtain ⟨tolds, hfound, htolds⟩ := ih hoffered State.Tells.start hinner
      refine ⟨told :: tolds, .cons (h.finish hp ho hgs) hfound, ?_⟩
      rw [List.flatten_cons, htolds]
      simp [State.heard, State.start, State.awaitedKey, htrailing, hawaiting, spoken, hplain]
    · obtain ⟨told', htells, htold⟩ := h.argument hp ho hs' rest
      rw [← htold]
      exact ih ho htells hrest

/-- Of what some levels hold, the innermost value that was spoken counts, and else what the
environment gives. -/
def ranked (p : Parameter) (environment : String → Option String) (told : List String) :
    Option Given :=
  match told.getLast? with
  | some v => some ⟨p.key, v, .commandLine⟩
  | none => (p.fromVariable.bind environment).map fun v => ⟨p.key, v, .environment⟩

theorem Found.eq_ranked {found : Option Given} (h : Found p environment told found) :
    found = ranked p environment told := by
  cases h with
  | spoken => rfl
  | environment hv => simp [ranked, hv]
  | nowhere hv => simp [ranked, hv]

/-- Of the values of two levels, that of the inner one, unless only the outer one was spoken. -/
def prefer : Option Given → Option Given → Option Given
  | some b, some g => if b.origin = .commandLine ∧ g.origin = .environment then some b else some g
  | none, found => found
  | found, none => found

theorem globalValue?_eq_foldl (key : String) (reading : Reading) :
    globalValue? key reading = reading.foldl (fun best l => prefer best (lookup? key l.2)) none :=
  rfl

theorem prefer_eq_some {a b : Option Given} {g : Given} (h : prefer a b = some g) :
    a = some g ∨ b = some g := by
  unfold prefer at h
  split at h
  · split at h
    · exact .inl h
    · exact .inr h
  · exact .inr h
  · exact .inl h

/-- The value of a setting is one that some level holds. -/
theorem exists_of_foldl_prefer {key : String} {reading : Reading} {best : Option Given} {g : Given}
    (h : reading.foldl (fun best l => prefer best (lookup? key l.2)) best = some g) :
    best = some g ∨ ∃ l ∈ reading, lookup? key l.2 = some g := by
  induction reading generalizing best with
  | nil => exact .inl h
  | cons l reading ih =>
    rcases ih h with hstep | ⟨l', hl', hg⟩
    · exact (prefer_eq_some hstep).imp_right fun hg => ⟨l, List.mem_cons_self, hg⟩
    · exact .inr ⟨l', List.mem_cons_of_mem l hl', hg⟩

theorem Found.takes {found : Option Given} (h : Found p environment told found) {g : Given}
    (hg : found = some g) : p.Takes [g.value] g.value := by
  cases h with
  | spoken ok =>
    cases hg
    exact ok
  | environment _ ok =>
    cases hg
    exact ok
  | nowhere => cases hg

theorem Found.prefer_eq {found : Option Given} (h : Found p environment told found)
    (outer : List String) :
    prefer (ranked p environment outer) found = ranked p environment (outer ++ told) := by
  cases h with
  | spoken =>
    rw [ranked, ranked, List.getLast?_append]
    cases outer.getLast? with
    | some w => rfl
    | none => cases p.fromVariable.bind environment <;> rfl
  | environment hv =>
    rw [List.append_nil]
    unfold ranked
    rw [hv]
    cases outer.getLast? <;> rfl
  | nowhere =>
    rw [List.append_nil]
    cases ranked p environment outer <;> rfl

theorem foldl_prefer {reading : Reading} {tolds : List (List String)} (outer : List String)
    (h : List.Forall₂ (fun l t => Found p environment t (lookup? p.key l.2)) reading tolds) :
    reading.foldl (fun best l => prefer best (lookup? p.key l.2)) (ranked p environment outer)
      = ranked p environment (outer ++ tolds.flatten) := by
  induction h generalizing outer with
  | nil => simp
  | cons hfound _ ih =>
    rw [List.foldl_cons, hfound.prefer_eq, ih, List.flatten_cons, List.append_assoc]

theorem takes_of_forall₂ {reading : Reading} {tolds : List (List String)}
    (h : List.Forall₂ (fun l t => Found p environment t (lookup? p.key l.2)) reading tolds)
    {l : String × List Given} (hl : l ∈ reading) {g : Given} (hg : lookup? p.key l.2 = some g) :
    p.Takes [g.value] g.value := by
  induction h with
  | nil => cases hl
  | cons hfound _ ih =>
    rcases List.mem_cons.1 hl with rfl | hl
    · exact hfound.takes hg
    · exact ih hl

/-- **The value of a setting on a command line.** It is the last that is spoken, and else the one
that the environment gives; and it is of the kind of the option. -/
theorem globalValue?_eq {arguments : List String} {reading : Reading} (hp : p.IsSetting)
    (ho : p.Offered level) (hs : Cli.read environment level arguments = .ok reading) :
    (globalValue? p.key reading).map (·.value)
        = (spoken p.key arguments).getLast?.or (p.fromVariable.bind environment) ∧
      ∀ g, globalValue? p.key reading = some g → p.Takes [g.value] g.value := by
  obtain ⟨tolds, hfound, htolds⟩ := found_readLevel hp ho State.Tells.start hs
  have hheard : tolds.flatten = spoken p.key arguments := htolds
  constructor
  · cases hfound with
    | nil => exact absurd rfl (readLevel_ne_nil hs)
    | @cons _ told _ _ hfirst hrest =>
      have hranked := foldl_prefer told hrest
      rw [← List.flatten_cons, hheard, ← hfirst.eq_ranked] at hranked
      rw [globalValue?_eq_foldl, List.foldl_cons, prefer, hranked, ranked]
      cases (spoken p.key arguments).getLast? with
      | some v => rfl
      | none => cases p.fromVariable.bind environment <;> rfl
  · intro g hg
    obtain ⟨l, hl, hlookup⟩ := (exists_of_foldl_prefer hg).resolve_left nofun
    exact takes_of_forall₂ hfound hl hlookup

end DataClient.Cli
