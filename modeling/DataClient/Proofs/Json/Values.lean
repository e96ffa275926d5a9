import DataClient.Proofs.Json.Source

/-!
# Readers of values

Every reader of a value takes something and does so in front of all delimiters alike (`ReadsValue`):
strings, numbers, lists, dictionaries and variants, a value or `null`, and a value of any shape that
is skipped. Lists and objects come down to the loops over their items and members.
-/

set_option autoImplicit false

namespace DataClient.Json.Reader

variable {α β σ : Type}

/-! ## Brackets -/

theorem head_of_skipSpaces {c c' : Cursor} {h : Option Char} (hc : skipSpaces c = .ok h c') :
    c'.rest.head? = h :=
  (skipSpaces_eq_ok hc).2.1.symm

theorem readsValue_closeList : ReadsValue closeList := by
  refine fixed_skipSpaces.look (fun _ _ _ => head_of_skipSpaces) fun h => ?_
  split
  · exact readsAt_skip _
  · refine .of_refuses (.bind fun _ => .bind fun h => ?_)
    split <;> exact refuses_failNext _
  · exact .of_refuses (refuses_failNext _)
  · exact .of_refuses (refuses_failNext _)

theorem readsValue_closeObject : ReadsValue closeObject := by
  refine fixed_skipSpaces.look (fun _ _ _ => head_of_skipSpaces) fun h => ?_
  split
  · exact readsAt_skip _
  · exact .of_refuses (refuses_failNext _)
  · exact .of_refuses (refuses_failNext _)
  · exact .of_refuses (refuses_failNext _)

theorem readsValue_colon : ReadsValue colon := by
  refine readsValue_of_look fun x => ?_
  split
  · exact readsAt_skip _
  · exact .of_refuses (refuses_failNext _)

theorem closed_key : Closed key := closed_skip.bind fun _ => closed_stringBody

theorem fixed_moreItems (first : Bool) : Fixed (moreItems first) := by
  refine (fixed_skipSpacesTo _).bind fun x => ?_
  split
  · exact .pure
  · refine .ite (fun _ => .pure) fun _ => .ite (fun _ => ?_) fun _ => .of_refuses (refuses_failNext _)
    refine closed_skip.fixed.bind fun _ => (fixed_skipSpacesTo _).bind fun y => ?_
    split
    · exact .of_refuses (refuses_failNext _)
    · exact .pure

theorem fixed_moreMembers (first : Bool) : Fixed (moreMembers first) := by
  refine (fixed_skipSpacesTo _).bind fun x => ?_
  split
  · exact .pure
  · refine .ite (fun _ => .ite (fun _ => .pure) fun _ => .of_refuses (refuses_failNext _)) fun _ =>
      .ite (fun _ => ?_) fun _ => .of_refuses (refuses_failNext _)
    refine closed_skip.fixed.bind fun _ => (fixed_skipSpacesTo _).bind fun y => ?_
    split
    · exact .pure
    · exact .of_refuses (refuses_failNext _)
    · exact .of_refuses (refuses_failNext _)

/-- What stands in brackets is read one level deeper, and closed. -/
theorem bracketed_eq_ok {r : Reader α} {close : Reader Unit} {c c' : Cursor} {a : α}
    (h : bracketed r close c = .ok a c') :
    1 < c.depth ∧ ∃ c₁, (skip >>= fun _ => r) { c with depth := c.depth - 1 } = .ok a c₁ ∧
      close { c₁ with depth := c.depth } = .ok () c' := by
  unfold bracketed at h
  split at h
  · cases h
  · rename_i hd
    split at h
    · rename_i b c₁ hb
      dsimp only at h
      split at h
      · rename_i hclose
        cases h
        exact ⟨Nat.lt_of_not_le hd, c₁, hb, hclose⟩
      · cases h
    · split at h <;> cases h

/-- What is read in brackets with enough fuel is read from what stands behind the opening bracket. -/
theorem bracketed_enough_eq_ok {f : Nat → Reader α} {close : Reader Unit} {c c' : Cursor} {a : α}
    {x : Char} {t : List Char} (hrest : c.rest = x :: t)
    (h : bracketed (enough >>= f) close c = .ok a c') :
    1 < c.depth ∧ ∃ n c₁, f n ⟨c.offset + x.utf8Size, t, c.depth - 1⟩ = .ok a c₁ ∧
      close { c₁ with depth := c.depth } = .ok () c' := by
  obtain ⟨hd, c₁, hcontents, hclose⟩ := bracketed_eq_ok h
  have hbehind := (skip_bind_eq_ok (c := { c with depth := c.depth - 1 }) hrest).1 hcontents
  exact ⟨hd, _, c₁, hbehind, hclose⟩

theorem Takes.bracketed {F G : List Char → Prop} {r : Reader α} {close : Reader Unit} {d : Nat}
    {s t : List Char} {a : α} (hd : 1 < d) (x : Char) (hr : Takes G r (d - 1) s a)
    (hclose : Takes F close d t ()) (h : ∀ rest, F rest → G (t ++ rest)) :
    Takes F (Reader.bracketed r close) d (x :: s ++ t) a := by
  intro o rest hrest
  obtain ⟨o₁, h₁⟩ := hr (o + x.utf8Size) (t ++ rest) (h rest hrest)
  obtain ⟨o₂, h₂⟩ := hclose o₁ rest hrest
  have hcontents : (skip >>= fun _ => r) ⟨o, x :: s ++ t ++ rest, d - 1⟩
      = .ok a ⟨o₁, t ++ rest, d - 1⟩ := by
    refine bind_eq_ok.2 ⟨(), ⟨o + x.utf8Size, s ++ t ++ rest, d - 1⟩, rfl, ?_⟩
    rw [List.append_assoc]
    exact h₁
  refine ⟨o₂, ?_⟩
  unfold Reader.bracketed
  dsimp only
  rw [if_neg (Nat.not_le.2 hd), hcontents]
  dsimp only
  rw [h₂]

theorem readsValue_bracketed {r : Reader α} {close : Reader Unit} (hr : Fixed r)
    (hclose : ReadsValue close) : ReadsValue (bracketed r close) := by
  have inside {c c' : Cursor} {a : α} (h : bracketed r close c = .ok a c') :
      c'.rest.length < c.rest.length ∧ c'.depth = c.depth ∧ ∃ s, c.rest = s ++ c'.rest ∧
        Takes (fun rest => Alike c'.rest.head? rest.head?) (bracketed r close) c.depth s a := by
    obtain ⟨hd, c₁, hcontents, hend⟩ := bracketed_eq_ok h
    obtain ⟨u, c₀, hskip, ha⟩ := bind_eq_ok.1 hcontents
    have hlt := hclose.length_lt hend
    have hle := hr.length_le ha
    cases hcs : c.rest with
    | nil =>
      rw [hcs] at hskip
      cases hskip
      exact absurd (Nat.lt_of_lt_of_le hlt hle) (Nat.not_lt_zero _)
    | cons x xs =>
      rw [hcs] at hskip
      cases hskip
      obtain ⟨-, s, hs, htake⟩ := hr _ _ _ ha
      obtain ⟨hd', t, ht, hclosed⟩ := hclose.closed _ _ _ hend
      refine ⟨?_, hd', x :: s ++ t, ?_, .bracketed hd x htake hclosed fun rest hrest => ?_⟩
      · exact Nat.lt_trans (Nat.lt_of_lt_of_le hlt hle) (Nat.lt_succ_self _)
      · have hs : xs = s ++ c₁.rest := hs
        have ht : c₁.rest = t ++ c'.rest := ht
        rw [hs, ht, List.cons_append, List.cons_append, List.append_assoc]
      · show c₁.rest.head? = (t ++ rest).head?
        have ht : c₁.rest = t ++ c'.rest := ht
        cases t with
        | cons y t => rw [ht]; rfl
        | nil =>
          rw [ht] at hlt
          exact absurd hlt (Nat.lt_irrefl _)
  exact fun h => ⟨fun c a c' ha => (inside ha).2, fun c a c' _ ha => (inside ha).1⟩

/-! ## Loops -/

/-- What a loop takes does not depend on how much more fuel there is than characters in it. -/
def Paced (P : α → Option Char → Option Char → Prop) (loop : Nat → Reader α) : Prop :=
  ∀ n c a c', loop n c = .ok a c' → c'.depth = c.depth ∧ ∃ source, c.rest = source ++ c'.rest ∧
    ∀ m, source.length < m → Takes (fun rest => P a c'.rest.head? rest.head?) (loop m) c.depth source a

theorem Paced.enough {P : α → Option Char → Option Char → Prop} {loop : Nat → Reader α}
    (h : Paced P loop) : Local P (enough >>= loop) := by
  intro c a c' ha
  obtain ⟨n, c₁, hn, ha⟩ := bind_eq_ok.1 ha
  cases hn
  obtain ⟨hd, s, hs, ht⟩ := h _ c a c' ha
  refine ⟨hd, s, hs, fun o rest hrest => ?_⟩
  have hfuel : s.length < (s ++ rest).length + 1 := by
    rw [List.length_append]
    omega
  obtain ⟨o', h'⟩ := ht _ hfuel o rest hrest
  exact ⟨o', bind_eq_ok.2 ⟨_, _, rfl, h'⟩⟩

/-- What is read does not depend on the fuel, if this is more than the characters that are read. -/
def Fuelled (loop : Nat → Reader α) : Prop :=
  ∀ n c a c', loop n c = .ok a c' → ∀ m, c.rest.length < m + c'.rest.length → loop m c = .ok a c'

theorem Paced.of_local {P : α → Option Char → Option Char → Prop} {loop : Nat → Reader α}
    (hlocal : ∀ n, Local P (loop n)) (hfuel : Fuelled loop) : Paced P loop := by
  intro n c a c' h
  obtain ⟨hd, s, hs, ht⟩ := hlocal n c a c' h
  refine ⟨hd, s, hs, fun m hm o rest hrest => ?_⟩
  obtain ⟨o', h'⟩ := ht o rest hrest
  refine ⟨o', hfuel n _ a _ h' m ?_⟩
  rw [List.length_append]
  exact Nat.add_lt_add_right hm _

/-- There is fuel where there is more of it than characters are read. -/
theorem Local.exists_succ {P : α → Option Char → Option Char → Prop} {r : Reader α} (hr : Local P r)
    {c c' : Cursor} {a : α} (h : r c = .ok a c') {m : Nat} (hm : c.rest.length < m + c'.rest.length) :
    ∃ n, m = n + 1 := by
  have hle := hr.length_le h
  exact Nat.exists_eq_succ_of_ne_zero (by omega)

section Items

variable {item : Nat → Reader α} (hitem : ∀ i, ReadsValue (item i))

include hitem

theorem fixed_itemsFrom (n i : Nat) : Fixed (itemsFrom item n i) := by
  induction n generalizing i with
  | zero => exact .of_refuses (refuses_failHere _)
  | succ n ih =>
    unfold itemsFrom
    refine (fixed_moreItems _).bind fun more => .ite (fun _ => ?_) fun _ => .pure
    exact (hitem i).closed.fixed.bind fun _ => (ih (i + 1)).bind fun _ => .pure

theorem fuelled_itemsFrom (i : Nat) : Fuelled (fun n => itemsFrom item n i) := by
  intro n
  induction n generalizing i with
  | zero => exact fun c a c' h => absurd h (refuses_failHere _ c a c')
  | succ n ih =>
    intro c a c' h m hm
    obtain ⟨m, rfl⟩ := (fixed_itemsFrom hitem (n + 1) i).exists_succ h hm
    obtain ⟨more, c₁, hmore, h⟩ := bind_eq_ok.1 h
    refine bind_eq_ok.2 ⟨more, c₁, hmore, ?_⟩
    cases more with
    | false => exact h
    | true =>
      obtain ⟨x, c₂, hx, h⟩ := bind_eq_ok.1 h
      obtain ⟨xs, c₃, hxs, h⟩ := bind_eq_ok.1 h
      cases h
      have hle := (fixed_moreItems _).length_le hmore
      have hlt := (hitem i).length_lt hx
      exact bind_eq_ok.2 ⟨x, c₂, hx, bind_eq_ok.2 ⟨xs, _, ih _ _ _ _ hxs m (by omega), rfl⟩⟩

theorem paced_itemsFrom (i : Nat) : Paced (fun _ => Eq) (fun n => itemsFrom item n i) :=
  .of_local (fun n => fixed_itemsFrom hitem n i) (fuelled_itemsFrom hitem i)

end Items

section Members

variable {member : String → σ → Reader σ} (hmember : ∀ k s, ReadsValue (member k s))

include hmember

theorem fixed_membersFrom (n : Nat) (first : Bool) (state : σ) :
    Fixed (membersFrom member n first state) := by
  induction n generalizing first state with
  | zero => exact .of_refuses (refuses_failHere _)
  | succ n ih =>
    unfold membersFrom
    refine (fixed_moreMembers _).bind fun more => .ite (fun _ => ?_) fun _ => .pure
    exact closed_key.fixed.bind fun k => (hmember k state).closed.fixed.bind fun s => ih false s

theorem fuelled_membersFrom (first : Bool) (state : σ) :
    Fuelled (fun n => membersFrom member n first state) := by
  intro n
  induction n generalizing first state with
  | zero => exact fun c a c' h => absurd h (refuses_failHere _ c a c')
  | succ n ih =>
    intro c a c' h m hm
    obtain ⟨m, rfl⟩ := (fixed_membersFrom hmember (n + 1) first state).exists_succ h hm
    obtain ⟨more, c₁, hmore, h⟩ := bind_eq_ok.1 h
    refine bind_eq_ok.2 ⟨more, c₁, hmore, ?_⟩
    cases more with
    | false => exact h
    | true =>
      obtain ⟨k, c₂, hk, h⟩ := bind_eq_ok.1 h
      obtain ⟨s, c₃, hs, h⟩ := bind_eq_ok.1 h
      have hle₁ := (fixed_moreMembers _).length_le hmore
      have hle₂ := closed_key.length_le hk
      have hlt := (hmember k state).length_lt hs
      exact bind_eq_ok.2 ⟨k, c₂, hk, bind_eq_ok.2 ⟨s, c₃, hs, ih _ _ _ _ _ h m (by omega)⟩⟩

theorem paced_membersFrom (first : Bool) (state : σ) :
    Paced (fun _ => Eq) (fun n => membersFrom member n first state) :=
  .of_local (fun n => fixed_membersFrom hmember n first state) (fuelled_membersFrom hmember first state)

end Members

/-! ## Values of a known shape -/

theorem readsValue_stringAs (expected : String) : ReadsValue (stringAs expected) := by
  refine ReadsValue.located (readsValue_of_look fun x => ?_)
  split
  · exact (readsAt_skip _).bind fun _ => closed_stringBody
  · exact .of_refuses (refuses_unexpected _)

theorem readsValue_string : ReadsValue string := readsValue_stringAs _

theorem readsValue_number {expected : String} {accept : Number → Except Cause α} :
    ReadsValue (number expected accept) := by
  refine ReadsValue.located ?_
  extract_lets checked
  have hchecked (n : Number) : Closed (checked n) := by
    unfold checked
    split
    · exact .pure
    · exact .of_refuses (refuses_failShape _)
  refine readsValue_of_look fun x => ?_
  split
  · exact (readsAt_skip _).bind fun _ => (readsValue_numberBody true).closed.bind hchecked
  · exact .ite (fun _ => (readsValue_numberBody false _).bind hchecked) fun _ =>
      .of_refuses (refuses_unexpected _)

theorem readsValue_optional {r : Reader α} (hr : ReadsValue r) : ReadsValue (optional r) := by
  refine fixed_skipSpaces.look (fun _ _ _ => head_of_skipSpaces) fun h => ?_
  split
  · exact (readsAt_skip _).bind fun _ => (closed_ident _).bind fun _ => .pure
  · exact (hr _).bind fun _ => .pure

theorem readsValue_list {item : Reader α} (hitem : ReadsValue item) : ReadsValue (list item) := by
  refine ReadsValue.located (readsValue_of_look fun x => ?_)
  split
  · exact readsValue_bracketed (paced_itemsFrom (fun _ => hitem) 0).enough readsValue_closeList _
  · exact .of_refuses (refuses_unexpected _)

theorem readsValue_dictionary {item : Reader α} (hitem : ReadsValue item) :
    ReadsValue (dictionary item) := by
  refine ReadsValue.located (readsValue_of_look fun x => ?_)
  split
  · refine readsValue_bracketed (paced_membersFrom (fun k ms => ?_) true []).enough
      readsValue_closeObject _
    exact readsValue_colon.bind fun _ => hitem.closed.bind fun _ => .pure
  · exact .of_refuses (refuses_unexpected _)

theorem readsValue_unit : ReadsValue unit := by
  refine ReadsValue.located (readsValue_of_look fun x => ?_)
  split
  · exact (readsAt_skip _).bind fun _ => closed_ident _
  · exact .of_refuses (refuses_unexpected _)

theorem readsValue_variantName (variants : List (String × α)) :
    ReadsValue (variantName variants) := by
  refine ReadsValue.located ((readsValue_stringAs _).bind fun name => ?_)
  split
  · exact .pure
  · exact .of_refuses (refuses_failShape _)

theorem readsValue_closeVariant : ReadsValue closeVariant := by
  refine fixed_skipSpaces.look (fun _ _ _ => head_of_skipSpaces) fun h => ?_
  split
  · exact readsAt_skip _
  · exact .of_refuses (refuses_failHere _)
  · exact .of_refuses (refuses_failHere _)

theorem readsValue_variantMember (variants : List (String × α)) :
    ReadsValue (variantMember variants) :=
  (readsValue_variantName variants).bind fun _ => readsValue_colon.closed.bind fun _ =>
    readsValue_unit.closed.bind fun _ => .pure

/-- An object that stands for a variant is read like every other. -/
theorem variantObject_eq_ok {variants : List (String × α)} {c c' : Cursor} {a : α} :
    variantObject variants c = .ok a c' ↔
      bracketed (variantMember variants) closeVariant c = .ok a c' := by
  unfold variantObject bracketed
  by_cases hd : c.depth ≤ 1
  · rw [if_pos hd, if_pos hd]
  · rw [if_neg hd, if_neg hd]
    cases h : (skip >>= fun _ => variantMember variants) { c with depth := c.depth - 1 } with
    | error e c₁ =>
      dsimp only
      constructor
      · intro h
        cases h
      · intro h
        split at h <;> cases h
    | ok b c₁ =>
      dsimp only
      rw [bind_eq_ok]
      cases hclose : closeVariant { c₁ with depth := c.depth } with
      | error e c₂ =>
        constructor
        · rintro ⟨_, _, h, -⟩
          cases h
        · intro h
          cases h
      | ok u c₂ =>
        constructor
        · rintro ⟨_, _, h, h'⟩
          cases h
          exact h'
        · intro h
          exact ⟨_, _, rfl, h⟩

theorem readsValue_variant (variants : List (String × α)) : ReadsValue (variant variants) := by
  refine readsValue_of_look fun x => ?_
  split
  · exact readsValue_variantName variants _
  · exact (readsValue_bracketed (readsValue_variantMember variants).closed.fixed
      readsValue_closeVariant _).of_iff fun _ _ _ => variantObject_eq_ok
  · exact .of_refuses (refuses_failNext _)

/-! ## Skipped values -/

theorem closed_skipDigits : Closed skipDigits := closed_digits.bind fun _ => .pure

theorem closed_discard {r : Reader α} (hr : Closed r) : Closed (discard r) := hr.bind fun _ => .pure

theorem closed_skipExponent : Closed skipExponent := by
  unfold skipExponent
  refine closed_skip.bind fun _ => closed_peek (fun sign => ?_)
    (forall_delimiter.2 ⟨rfl, rfl, rfl, rfl, rfl, rfl, rfl⟩)
  extract_lets digitsBehind
  have hdigits (u : Unit) : Closed (digitsBehind u) := by
    refine closed_next.bind fun h => ?_
    split
    · exact .of_refuses (refuses_failHere _)
    · exact .ite (fun _ => closed_discard closed_skipDigits) fun _ =>
        .of_refuses fun _ _ _ h => by cases h
  split
  · exact closed_skip.bind hdigits
  · exact closed_skip.bind hdigits
  · exact hdigits ()

theorem closed_skipExponentIf : Closed skipExponentIf := by
  unfold skipExponentIf
  refine closed_peek (fun h => ?_) (forall_delimiter.2 ⟨rfl, rfl, rfl, rfl, rfl, rfl, rfl⟩)
  split
  · exact closed_skipExponent
  · exact closed_skipExponent
  · exact .pure

theorem readsValue_skipNumber : ReadsValue skipNumber := by
  unfold skipNumber
  refine readsValue_next (refuses_failHere _) fun h => ?_
  split
  · exact .of_refuses (refuses_failHere _)
  · extract_lets exponent fraction
    have hfraction (u : Unit) : Closed (fraction u) := by
      refine closed_peek (fun h => ?_) (forall_delimiter.2 ⟨rfl, rfl, rfl, rfl, rfl, rfl, rfl⟩)
      split
      · refine closed_skip.bind fun _ => closed_skipDigits.bind fun n => .ite (fun _ => ?_) fun _ => ?_
        · exact Closed.bind (.of_refuses (refuses_failNext _)) fun _ => closed_skipExponentIf
        · exact closed_skipExponentIf
      · exact closed_skipExponentIf
    refine .ite (fun _ => ?_) fun _ => .ite (fun _ => ?_) fun _ =>
      Closed.bind (.of_refuses fun _ _ _ h => by cases h) hfraction
    · refine closed_peek (fun h => ?_) (forall_delimiter.2 ⟨rfl, rfl, rfl, rfl, rfl, rfl, rfl⟩)
      split
      · exact .ite (fun _ => Closed.bind (.of_refuses (refuses_failNext _)) hfraction) fun _ => hfraction ()
      · exact hfraction ()
    · exact (closed_discard closed_skipDigits).bind hfraction

theorem readsValue_skipStart : ReadsValue skipStart := by
  refine readsValue_of_look fun x => ?_
  split
  · exact (readsAt_skip _).bind fun _ => (closed_ident _).bind fun _ => .pure
  · exact (readsAt_skip _).bind fun _ => (closed_ident _).bind fun _ => .pure
  · exact (readsAt_skip _).bind fun _ => (closed_ident _).bind fun _ => .pure
  · exact (readsAt_skip _).bind fun _ => readsValue_skipNumber.closed.bind fun _ => .pure
  · exact (readsAt_skip _).bind fun _ => closed_skipString.bind fun _ => .pure
  · exact (readsAt_skip _).bind fun _ => .pure
  · exact (readsAt_skip _).bind fun _ => .pure
  · exact .ite (fun _ => (readsValue_skipNumber _).bind fun _ => .pure) fun _ =>
      .of_refuses (refuses_failNext _)

theorem readsValue_skipKey : ReadsValue skipKey := by
  unfold skipKey
  refine readsValue_of_look fun x => ?_
  extract_lets behindQuote
  have hbehind (u : Unit) : Closed (behindQuote u) := closed_skipString.bind fun _ => readsValue_colon.closed
  split
  · exact (readsAt_skip _).bind hbehind
  · exact .of_refuses (.bind_left (refuses_failNext _))

theorem closed_toValue (frame : Frame) : Closed frame.toValue := by
  cases frame with
  | list => exact .pure
  | object => exact readsValue_skipKey.closed

/-- Behind frames that are all closed anything may follow that delimits; in front of a further value
the text goes on as it does. -/
def AlikeIfClosed : Option (Frame × List Frame) → Option Char → Option Char → Prop
  | none => Alike
  | some _ => Eq

theorem AlikeIfClosed.alike {a : Option (Frame × List Frame)} {h h' : Option Char}
    (hh : AlikeIfClosed a h h') : Alike h h' := by
  cases a with
  | none => exact hh
  | some p => exact .inl hh

/-- A bracket is taken, or nothing is and frames stay open. -/
theorem local_closeFrames (mayComma : Bool) (frame : Frame) (outer : List Frame) :
    Local AlikeIfClosed (closeFrames mayComma frame outer) := by
  unfold closeFrames
  refine fixed_skipSpaces.bind_of (fun _ _ => rfl) (fun h => ?_) fun c h c₁ a c₂ hspaces ha => ?_
  · cases h with
    | none => exact .of_refuses (refuses_failNext _)
    | some x =>
      refine .ite (fun _ => ?_) fun _ => .ite (fun _ => .pure) fun _ => .ite (fun _ => ?_) fun _ =>
        .of_refuses (refuses_failNext _)
      · refine closed_skip.bind_of (fun _ => Alike.refl) (fun _ => ?_) fun _ _ _ _ _ _ _ =>
          .inr fun _ _ => AlikeIfClosed.alike
        cases outer with
        | nil => exact .pure
        | cons f fs => exact local_closeFrames true f fs
      · exact closed_skip.bind_of (fun _ => Alike.refl) (fun _ => .pure) fun _ _ _ _ _ _ _ =>
          .inr fun _ _ => AlikeIfClosed.alike
  · cases h with
    | none => exact absurd ha (refuses_failNext _ _ _ _)
    | some x =>
      have hhead := head_of_skipSpaces hspaces
      dsimp only at ha
      by_cases hclose : x = frame.closer
      · rw [if_pos hclose] at ha
        refine .inl ((readsAt_skip x).length_lt_of_bind (Q := AlikeIfClosed) (fun _ => ?_) hhead ha)
        cases outer with
        | nil => exact .pure
        | cons f fs => exact local_closeFrames true f fs
      · rw [if_neg hclose] at ha
        by_cases hopen : (!mayComma) = true
        · rw [if_pos hopen] at ha
          cases ha
          exact .inr fun _ _ h => h
        · rw [if_neg hopen] at ha
          by_cases hcomma : x = ','
          · rw [if_pos hcomma] at ha
            exact .inl ((readsAt_skip x).length_lt_of_bind (Q := AlikeIfClosed) (fun _ => .pure) hhead ha)
          · rw [if_neg hcomma] at ha
            exact absurd ha (refuses_failNext _ _ _ _)

theorem local_leaveFrames (start : Option Frame) (frames : List Frame) :
    Local AlikeIfClosed (leaveFrames start frames) := by
  unfold leaveFrames
  split
  · exact local_closeFrames false _ _
  · exact local_closeFrames true _ _
  · exact .pure

theorem readsValue_skipFrom (n : Nat) (frames : List Frame) : ReadsValue (skipFrom n frames) := by
  induction n generalizing frames with
  | zero => exact fun _ => .of_refuses (refuses_failHere _)
  | succ n ih =>
    unfold skipFrom
    refine readsValue_skipStart.bind fun start => ?_
    refine (local_leaveFrames start frames).bind_of (fun state h => ?_) (fun state => ?_) ?_
    · cases state with
      | none => exact Alike.refl h
      | some state => rfl
    · cases state with
      | none => exact .pure
      | some state => exact (closed_toValue state.1).bind fun _ => (ih _).closed
    · intro c state c₁ u c₂ _ hread
      cases state with
      | none => exact .inr fun _ _ h => h
      | some state =>
        -- A further value is read, so the text behind it is not looked at before.
        obtain ⟨u, c₃, hvalue, hskip⟩ := bind_eq_ok.1 hread
        exact .inl (Nat.lt_of_lt_of_le ((ih _).length_lt hskip) ((closed_toValue state.1).length_le hvalue))

theorem fuelled_skipFrom (frames : List Frame) : Fuelled (fun n => skipFrom n frames) := by
  intro n
  induction n generalizing frames with
  | zero => exact fun c a c' h => absurd h (refuses_failHere _ c a c')
  | succ n ih =>
    intro c a c' h m hm
    obtain ⟨m, rfl⟩ := (readsValue_skipFrom (n + 1) frames).closed.exists_succ h hm
    obtain ⟨start, c₁, hstart, h⟩ := bind_eq_ok.1 h
    obtain ⟨state, c₂, hstate, h⟩ := bind_eq_ok.1 h
    refine bind_eq_ok.2 ⟨start, c₁, hstart, bind_eq_ok.2 ⟨state, c₂, hstate, ?_⟩⟩
    cases state with
    | none => exact h
    | some state =>
      obtain ⟨u, c₃, hvalue, h⟩ := bind_eq_ok.1 h
      have hlt := readsValue_skipStart.length_lt hstart
      have hle₂ := (local_leaveFrames start frames).length_le hstate
      have hle₃ := (closed_toValue state.1).length_le hvalue
      exact bind_eq_ok.2 ⟨u, c₃, hvalue, ih _ _ _ _ h m (by omega)⟩

theorem readsValue_skipValue : ReadsValue skipValue := by
  have hpaced : Paced (fun _ => Alike) (fun n => skipFrom n []) :=
    .of_local (fun n => (readsValue_skipFrom n []).closed) (fuelled_skipFrom [])
  refine fun h => ⟨hpaced.enough, fun c a c' _ ha => ?_⟩
  obtain ⟨n, c₁, hn, ha⟩ := bind_eq_ok.1 ha
  cases hn
  exact (readsValue_skipFrom _ []).length_lt ha

/-! ## Any document -/

theorem readsValue_documentFrom (fuel : Nat) : ReadsValue (documentFrom fuel) := by
  induction fuel with
  | zero => exact fun _ => .of_refuses (refuses_failHere _)
  | succ fuel ih =>
    refine ReadsValue.located (readsValue_of_look fun x => ?_)
    split
    · exact (readsAt_skip _).bind fun _ => (closed_ident _).bind fun _ => .pure
    · exact (readsAt_skip _).bind fun _ => (closed_ident _).bind fun _ => .pure
    · exact (readsAt_skip _).bind fun _ => (closed_ident _).bind fun _ => .pure
    · exact (readsAt_skip _).bind fun _ => (readsValue_numberBody true).closed.bind fun _ => .pure
    · exact (readsAt_skip _).bind fun _ => closed_stringBody.bind fun _ => .pure
    · refine readsValue_bracketed ?_ readsValue_closeList _
      rw [← bind_assoc]
      exact Fixed.bind (paced_itemsFrom (fun _ => ih) 0).enough fun _ => .pure
    · refine readsValue_bracketed ?_ readsValue_closeObject _
      rw [← bind_assoc]
      refine Fixed.bind (paced_membersFrom (fun k ms => ?_) true []).enough fun _ => .pure
      exact readsValue_colon.bind fun _ => ih.closed.bind fun _ => .pure
    · exact .ite (fun _ => (readsValue_numberBody false _).bind fun _ => .pure) fun _ =>
        .of_refuses (refuses_failNext _)

theorem readsValue_document : ReadsValue document := readsValue_documentFrom _

end DataClient.Json.Reader
