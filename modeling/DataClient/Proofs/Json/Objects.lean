import DataClient.Proofs.Json.Values

/-!
# The members of an object

The text of an object is a list of members with commas between them (`Member.joined`). Reading it
takes one step for each member, from one state to the next (`Steps`), and everything that is read as
an object is such a list (`steps_of_membersFrom`, `record_eq_ok`), so that members can be exchanged
one by one.
-/

set_option autoImplicit false

namespace DataClient.Json.Reader

variable {α σ : Type}

/-! ## Where values end -/

/-- The text goes on with a delimiter. -/
def Delimited (rest : List Char) : Prop := ∃ x t, rest = x :: t ∧ isDelimiter x = true

theorem Spaces.append {s t : List Char} (hs : Spaces s) (ht : Spaces t) : Spaces (s ++ t) :=
  List.forall_mem_append.2 ⟨hs, ht⟩

theorem Spaces.nil : Spaces [] := fun _ h => (by cases h)

theorem Delimited.spaced {s t : List Char} {x : Char} (hs : Spaces s) (hx : isDelimiter x = true) :
    Delimited (s ++ x :: t) := by
  cases s with
  | nil => exact ⟨x, t, rfl, hx⟩
  | cons y s =>
    refine ⟨y, s ++ x :: t, rfl, ?_⟩
    have hy : isSpace y = true := hs y List.mem_cons_self
    rw [isDelimiter, hy, Bool.true_or, Bool.true_or, Bool.true_or]

/-- What is read in front of a delimiter is taken in front of every delimiter. -/
theorem Closed.takes {r : Reader α} (hr : Closed r) {c c' : Cursor} {a : α} (h : r c = .ok a c')
    (hrest : Delimited c'.rest) :
    c'.depth = c.depth ∧ ∃ s, c.rest = s ++ c'.rest ∧ Takes Delimited r c.depth s a := by
  obtain ⟨hd, s, hs, ht⟩ := hr c a c' h
  obtain ⟨x, t, hx, hdelimiter⟩ := hrest
  refine ⟨hd, s, hs, ht.mono fun rest hrest => ?_⟩
  obtain ⟨y, u, rfl, hdelimiter'⟩ := hrest
  exact .inr ⟨x, y, by rw [hx]; rfl, rfl, hdelimiter, hdelimiter'⟩

theorem skipSpacesTo_append {cause : Cause} {s t : List Char} {x : Char} (hs : Spaces s)
    (hx : isSpace x = false) (o d : Nat) :
    skipSpacesTo cause ⟨o, s ++ x :: t, d⟩ = .ok x ⟨o + s.length, x :: t, d⟩ := by
  refine bind_eq_ok.2 ⟨some x, _, skipSpaces_append hs ?_ o d, rfl⟩
  rintro y ⟨⟩
  exact hx

/-- What is read behind spaces is read without them. -/
theorem skipSpacesTo_bind_eq_ok {cause : Cause} {f : Char → Reader α} {c c' : Cursor} {a : α}
    {s t : List Char} {x : Char} (hs : Spaces s) (hx : isSpace x = false) (hc : c.rest = s ++ x :: t) :
    (skipSpacesTo cause >>= f) c = .ok a c' ↔
      f x { c with offset := c.offset + s.length, rest := x :: t } = .ok a c' := by
  obtain ⟨o, cs, d⟩ := c
  subst hc
  rw [bind_eq_ok, skipSpacesTo_append hs hx]
  constructor
  · rintro ⟨y, c₁, ⟨⟩, h⟩
    exact h
  · exact fun h => ⟨x, _, rfl, h⟩

end Reader

/-! ## Members -/

/-- A member as it is written: spaces, a key, spaces, a colon, a value with the spaces before it, and
spaces. The key is what stands behind its opening quote. -/
structure Member where
  lead : List Char
  key : List Char
  name : String
  gap : List Char
  value : List Char
  trail : List Char

namespace Member

/-- A member up to its value. -/
def front (m : Member) : List Char := m.lead ++ '"' :: (m.key ++ (m.gap ++ ':' :: m.value))

/-- Members behind others, with a comma before each. -/
def more : List Member → List Char
  | [] => []
  | m :: ms => ',' :: (m.front ++ (m.trail ++ more ms))

/-- Members with commas between them. -/
def joined : List Member → List Char
  | [] => []
  | m :: ms => m.front ++ (m.trail ++ more ms)

/-- Members, the first of an object or not. -/
def text (first : Bool) (ms : List Member) : List Char := if first then joined ms else more ms

/-- The key is a string that says the name, and there are spaces where they are meant to be. -/
structure WellFormed (m : Member) : Prop where
  lead : Reader.Spaces m.lead
  gap : Reader.Spaces m.gap
  trail : Reader.Spaces m.trail
  key : ∀ d, Reader.Takes (fun _ => True) Reader.stringBody d m.key m.name

end Member

namespace Reader

variable {α σ : Type}

/-- One step for each member. -/
inductive Steps (member : String → σ → Reader σ) (d : Nat) : σ → List Member → σ → Prop
  | nil (s : σ) : Steps member d s [] s
  | cons {s s' s'' : σ} {m : Member} {ms : List Member} (hm : m.WellFormed)
    (h : Takes Delimited (member m.name s) d (m.gap ++ ':' :: m.value) s')
    (hms : Steps member d s' ms s'') : Steps member d s (m :: ms) s''

/-- The text goes on with the bracket that closes an object. -/
def AtBrace (rest : List Char) : Prop := ∃ t, rest = '}' :: t

theorem takes_key {m : Member} (hm : m.WellFormed) (d : Nat) :
    Takes (fun _ => True) key d ('"' :: m.key) m.name := by
  have hquote : Takes (fun _ => True) skip d ['"'] () := fun o rest _ => ⟨_, rfl⟩
  exact hquote.bind (hm.key d) fun _ _ => trivial

theorem takes_colon {gap : List Char} (hgap : Spaces gap) (d : Nat) :
    Takes (fun _ => True) colon d (gap ++ [':']) () :=
  .spaced hgap rfl fun _ _ _ => ⟨_, rfl⟩

/-- Whether there is a further member, with the spaces around the comma. -/
theorem takes_moreMembers_true {m : Member} (hm : m.WellFormed) {first : Bool} {sp : List Char}
    (hsp : Spaces sp) (d : Nat) :
    Takes (fun rest => ∃ t, rest = '"' :: t) (moreMembers first) d
      (sp ++ (if first then m.lead else ',' :: m.lead)) true := by
  rintro o _ ⟨t, rfl⟩
  cases first with
  | true =>
    refine ⟨_, bind_eq_ok.2 ⟨'"', _, skipSpacesTo_append (hsp.append hm.lead) rfl o d, rfl⟩⟩
  | false =>
    refine ⟨o + sp.length + 1 + m.lead.length, ?_⟩
    rw [if_neg Bool.false_ne_true, List.append_assoc]
    refine bind_eq_ok.2 ⟨',', _, skipSpacesTo_append hsp rfl o d, ?_⟩
    exact bind_eq_ok.2 ⟨(), _, rfl, bind_eq_ok.2 ⟨'"', _, skipSpacesTo_append hm.lead rfl _ d, rfl⟩⟩

theorem takes_moreMembers_false {first : Bool} {sp : List Char} (hsp : Spaces sp) (d : Nat) :
    Takes AtBrace (moreMembers first) d sp false := by
  rintro o _ ⟨t, rfl⟩
  exact ⟨_, bind_eq_ok.2 ⟨'}', _, skipSpacesTo_append hsp rfl o d, rfl⟩⟩

/-- **Members that can be read one by one are read one behind the other.** -/
theorem Steps.takes {member : String → σ → Reader σ} {d : Nat} {s s' : σ} {ms : List Member}
    (h : Steps member d s ms s') {first : Bool} {sp sp' : List Char} (hsp : Spaces sp)
    (hsp' : Spaces sp') {n : Nat} (hn : (sp ++ (Member.text first ms ++ sp')).length < n) :
    Takes AtBrace (membersFrom member n first s) d (sp ++ (Member.text first ms ++ sp')) s' := by
  induction h generalizing first sp n with
  | nil s =>
    obtain ⟨n, rfl⟩ := Nat.exists_eq_succ_of_ne_zero (Nat.ne_zero_of_lt hn)
    have htext : sp ++ (Member.text first [] ++ sp') = sp ++ sp' ++ [] := by
      cases first <;> simp [Member.text, Member.joined, Member.more]
    rw [htext]
    exact (takes_moreMembers_false (hsp.append hsp') d).bind (.pure _ _ _) fun rest h => h
  | @cons s s₁ s' m ms hm hvalue hms ih =>
    obtain ⟨n, rfl⟩ := Nat.exists_eq_succ_of_ne_zero (Nat.ne_zero_of_lt hn)
    have htext : sp ++ (Member.text first (m :: ms) ++ sp')
        = (sp ++ (if first then m.lead else ',' :: m.lead)) ++ (('"' :: m.key)
          ++ ((m.gap ++ ':' :: m.value) ++ (m.trail ++ (Member.text false ms ++ sp')))) := by
      cases first <;> simp [Member.text, Member.joined, Member.more, Member.front]
    rw [htext] at hn ⊢
    have hrest : Takes AtBrace (membersFrom member n false s₁) d
        (m.trail ++ (Member.text false ms ++ sp')) s' := ih hm.trail (by
      simp only [List.length_append, List.length_cons] at hn ⊢
      omega)
    refine (takes_moreMembers_true hm hsp d).bind ((takes_key hm d).bind (hvalue.bind hrest
      fun rest hrest => ?_) fun _ _ => trivial) fun _ _ => ⟨_, rfl⟩
    obtain ⟨t, rfl⟩ := hrest
    cases ms with
    | nil =>
      simp only [Member.text, Member.more, Bool.false_eq_true, if_false, List.nil_append]
      exact .spaced (hm.trail.append hsp') rfl
    | cons m' ms =>
      simp only [Member.text, Member.more, Bool.false_eq_true, if_false, List.append_assoc,
        List.cons_append]
      exact .spaced hm.trail rfl

/-- A member that is read has a colon in front of its value. -/
def HasColon (r : Reader α) : Prop :=
  ∀ c a c', r c = .ok a c' → ∃ gap value, Spaces gap ∧ c.rest = gap ++ ':' :: (value ++ c'.rest)

theorem moreMembers_eq_ok {first b : Bool} {c c' : Cursor} (h : moreMembers first c = .ok b c') :
    c'.depth = c.depth ∧ ∃ sp, Spaces sp ∧
      if b then (∃ t, c'.rest = '"' :: t) ∧ ∃ lead, Spaces lead ∧
        c.rest = sp ++ ((if first then lead else ',' :: lead) ++ c'.rest) ∧ (first → sp = [])
      else AtBrace c'.rest ∧ c.rest = sp ++ c'.rest := by
  unfold moreMembers at h
  obtain ⟨x, c₁, hx, h⟩ := bind_eq_ok.1 h
  obtain ⟨hd, -, sp, t, hsp, hrest, hrest₁⟩ := skipSpacesTo_eq_ok hx
  split at h
  · cases h
    exact ⟨hd, sp, hsp, ⟨t, hrest₁⟩, by rw [hrest, hrest₁]⟩
  · cases first with
    | true =>
      rw [if_pos rfl] at h
      split_ifs at h with hquote
      · subst hquote
        cases h
        exact ⟨hd, [], .nil, ⟨t, hrest₁⟩, sp, hsp, by rw [hrest, hrest₁]; rfl, fun _ => rfl⟩
      · exact absurd h (refuses_failNext _ _ _ _)
    | false =>
      rw [if_neg Bool.false_ne_true] at h
      split_ifs at h with hcomma
      · subst hcomma
        obtain ⟨y, c₂, hy, h⟩ := bind_eq_ok.1 ((skip_bind_eq_ok hrest₁).1 h)
        obtain ⟨hd₂, -, lead, t', hlead, hbehind, hrest₂⟩ := skipSpacesTo_eq_ok hy
        split at h
        · cases h
          refine ⟨hd₂.trans hd, sp, hsp, ⟨t', hrest₂⟩, lead, hlead, ?_, fun h => by cases h⟩
          rw [hrest, hrest₂]
          exact congrArg (fun t => sp ++ ',' :: t) hbehind
        · exact absurd h (refuses_failNext _ _ _ _)
        · exact absurd h (refuses_failNext _ _ _ _)
      · exact absurd h (refuses_failNext _ _ _ _)

/-- What goes on with a further member or with the end of the object is delimited. -/
theorem delimited_of_moreMembers {b : Bool} {c c' : Cursor} (h : moreMembers false c = .ok b c') :
    Delimited c.rest := by
  obtain ⟨-, sp, hsp, h⟩ := moreMembers_eq_ok h
  cases b with
  | true =>
    obtain ⟨-, lead, -, hrest, -⟩ := h
    rw [hrest]
    exact .spaced hsp rfl
  | false =>
    obtain ⟨⟨t, ht⟩, hrest⟩ := h
    rw [hrest, ht]
    exact .spaced hsp rfl

theorem key_eq_ok {c c' : Cursor} {t : List Char} {name : String} (hc : c.rest = '"' :: t)
    (h : key c = .ok name c') : c'.depth = c.depth ∧ ∃ source, c.rest = '"' :: (source ++ c'.rest) ∧
      ∀ d, Takes (fun _ => True) stringBody d source name := by
  obtain ⟨hd, source, hsource, htakes⟩ := stringBody_eq_ok ((skip_bind_eq_ok hc).1 h)
  exact ⟨hd, source, by rw [hc]; exact congrArg _ hsource, htakes⟩

/-- **Whatever is read as the members of an object is a list of members.** -/
theorem steps_of_membersFrom {member : String → σ → Reader σ} (hmember : ∀ k s, ReadsValue (member k s))
    (hcolon : ∀ k s, HasColon (member k s)) {n : Nat} {first : Bool} {s s' : σ} {c c' : Cursor}
    (h : membersFrom member n first s c = .ok s' c') :
    c'.depth = c.depth ∧ AtBrace c'.rest ∧ ∃ sp ms, Spaces sp ∧
      c.rest = sp ++ (Member.text first ms ++ c'.rest) ∧ Steps member c.depth s ms s' := by
  induction n generalizing first s c with
  | zero => exact absurd h (refuses_failHere _ _ _ _)
  | succ n ih =>
    unfold membersFrom at h
    obtain ⟨more, c₁, hmore, h⟩ := bind_eq_ok.1 h
    obtain ⟨hd₁, sp, hsp, hmore⟩ := moreMembers_eq_ok hmore
    cases more with
    | false =>
      cases h
      obtain ⟨hbrace, hrest⟩ := hmore
      refine ⟨hd₁, hbrace, sp, [], hsp, ?_, .nil _⟩
      cases first <;> exact hrest
    | true =>
      obtain ⟨⟨t, ht⟩, lead, hlead, hrest, hfirst⟩ := hmore
      obtain ⟨name, c₂, hkey, h⟩ := bind_eq_ok.1 h
      obtain ⟨s₁, c₃, hvalue, h⟩ := bind_eq_ok.1 h
      obtain ⟨hd₂, key, hkeyrest, hkeytakes⟩ := key_eq_ok ht hkey
      obtain ⟨hd₄, hbrace, trail, ms, htrail, hmsrest, hms⟩ := ih h
      -- The member ends where the loop goes on.
      have hdelimited : Delimited c₃.rest := by
        cases n with
        | zero => exact absurd h (refuses_failHere _ _ _ _)
        | succ n =>
          obtain ⟨b, c₄, hb, -⟩ := bind_eq_ok.1 h
          exact delimited_of_moreMembers hb
      obtain ⟨hd₃, front, hfront, htakes⟩ := (hmember name s).closed.takes hvalue hdelimited
      obtain ⟨gap, value, hgap, hvaluerest⟩ := hcolon name s _ _ _ hvalue
      have hsplit : front = gap ++ ':' :: value := by
        rw [hfront, ← List.cons_append, ← List.append_assoc] at hvaluerest
        exact List.append_cancel_right hvaluerest
      subst hsplit
      rw [hd₂, hd₁] at htakes hd₃
      rw [hd₃] at hms hd₄
      refine ⟨hd₄, hbrace, sp, ⟨lead, key, name, gap, value, trail⟩ :: ms, hsp, ?_,
        .cons ⟨hlead, hgap, htrail, hkeytakes⟩ htakes hms⟩
      rw [hrest, hkeyrest, hfront, hmsrest]
      cases first <;> simp [Member.text, Member.joined, Member.more, Member.front]

/-! ## Objects -/

theorem Takes.enough {F : List Char → Prop} {f : Nat → Reader α} {d : Nat} {source : List Char} {a : α}
    (h : ∀ n, source.length < n → Takes F (f n) d source a) : Takes F (enough >>= f) d source a := by
  intro o rest hrest
  have hn : source.length < (source ++ rest).length + 1 := by
    rw [List.length_append]
    omega
  obtain ⟨o', h'⟩ := h _ hn o rest hrest
  exact ⟨o', bind_eq_ok.2 ⟨_, _, rfl, h'⟩⟩

theorem takes_closeObject (d : Nat) : Takes (fun _ => True) closeObject d ['}'] () :=
  .behind_spaces .nil rfl fun _ _ _ => ⟨_, rfl⟩

theorem closeObject_eq_ok {c c' : Cursor} {u : Unit} (h : closeObject c = .ok u c')
    (hc : AtBrace c.rest) : c'.depth = c.depth ∧ c.rest = '}' :: c'.rest := by
  obtain ⟨t, ht⟩ := hc
  obtain ⟨x, c₁, hx, h⟩ := bind_eq_ok.1 h
  obtain ⟨o, cs, d⟩ := c
  cases ht
  rw [← List.nil_append ('}' :: t), skipSpaces_append .nil (by rintro x ⟨⟩; rfl)] at hx
  cases hx
  cases h
  exact ⟨rfl, rfl⟩

theorem atBrace_append (rest : List Char) : AtBrace (['}'] ++ rest) := ⟨rest, rfl⟩

theorem takes_dictionary {item : Reader α} {d : Nat} (hd : 1 < d) {lead inner trail : List Char}
    (hlead : Spaces lead) (hinner : Spaces inner) (htrail : Spaces trail) {ms : List Member}
    {entries : List (String × α)}
    (h : Steps (fun k ms => do colon; return insertMember k (← item) ms) (d - 1) [] ms entries) :
    Takes (fun _ => True) (dictionary item) d
      (lead ++ '{' :: (inner ++ (Member.joined ms ++ trail) ++ ['}'])) entries := by
  refine Takes.located (.spaced hlead rfl ?_)
  exact Takes.bracketed hd '{' (.enough fun n hn => h.takes hinner htrail hn) (takes_closeObject d)
    fun rest _ => atBrace_append rest

section Records

variable {fields : List (FieldReader σ)} {name : String} {empty : σ} {finish : σ → Except String α}

theorem hasColon_bind {f : Unit → Reader α} (hf : ∀ u, Fixed (f u)) : HasColon (colon >>= f) := by
  intro c a c' h
  obtain ⟨u, c₁, hu, h⟩ := bind_eq_ok.1 h
  obtain ⟨x, c₂, hx, hu⟩ := bind_eq_ok.1 hu
  obtain ⟨-, -, gap, t, hgap, hrest, hrest₂⟩ := skipSpacesTo_eq_ok hx
  split at hu
  · unfold skip at hu
    rw [hrest₂] at hu
    cases hu
    obtain ⟨-, value, hvalue, -⟩ := hf () _ _ _ h
    exact ⟨gap, value, hgap, by rw [hrest]; exact congrArg (fun t => gap ++ ':' :: t) hvalue⟩
  · exact absurd hu (refuses_failNext _ _ _ _)

section Fields

variable (hfields : ∀ f ∈ fields, ∀ s, ReadsValue (f.read s))

include hfields

theorem readsValue_fieldByName (k : String) (s : σ) : ReadsValue (fieldByName fields k s) := by
  unfold fieldByName
  split
  · rename_i f hf
    split
    · exact fun _ => .of_refuses (refuses_failShape _)
    · exact readsValue_colon.bind fun _ => (hfields f (List.mem_of_find?_eq_some hf) s).closed
  · exact readsValue_colon.bind fun _ => readsValue_skipValue.closed.bind fun _ => .pure

theorem hasColon_fieldByName (k : String) (s : σ) : HasColon (fieldByName fields k s) := by
  unfold fieldByName
  split
  · rename_i f hf
    split
    · exact fun c a c' h => absurd h (refuses_failShape _ c a c')
    · exact hasColon_bind fun _ => (hfields f (List.mem_of_find?_eq_some hf) s).closed.fixed
  · exact hasColon_bind fun _ => readsValue_skipValue.closed.fixed.bind fun _ => .pure

end Fields

theorem takes_record {d : Nat} (hd : 1 < d) {lead inner trail : List Char} (hlead : Spaces lead)
    (hinner : Spaces inner) (htrail : Spaces trail) {ms : List Member} {s : σ} {a : α}
    (h : Steps (fieldByName fields) (d - 1) empty ms s) (hs : finish s = .ok a) :
    Takes (fun _ => True) (record name fields empty finish) d
      (lead ++ '{' :: (inner ++ (Member.joined ms ++ trail) ++ ['}'])) a := by
  unfold record
  extract_lets done
  have hdone : Takes AtBrace (done s) (d - 1) [] a := by
    unfold done
    rw [hs]
    exact .pure _ _ _
  refine Takes.located (.spaced hlead rfl ?_)
  refine Takes.bracketed hd '{' (.enough fun n hn => ?_) (takes_closeObject d)
    fun rest _ => atBrace_append rest
  have hmembers : Takes AtBrace (membersFrom (fieldByName fields) n true empty) (d - 1)
      (inner ++ (Member.text true ms ++ trail)) s := h.takes hinner htrail hn
  have hall := hmembers.bind hdone fun rest h => h
  rw [List.append_nil] at hall
  exact hall

theorem finish_eq_ok {s : σ} {c c' : Cursor} {a : α} (h : (match finish s with
    | .ok a => (pure a : Reader α)
    | .error missing => failShape (.missingField missing)) c = .ok a c') : finish s = .ok a ∧ c = c' := by
  cases hf : finish s with
  | ok b =>
    rw [hf] at h
    cases h
    exact ⟨rfl, rfl⟩
  | error missing =>
    rw [hf] at h
    exact absurd h (refuses_failShape _ _ _ _)

/-- **A record that is written as an object is read from its members.** -/
theorem record_eq_ok (hfields : ∀ f ∈ fields, ∀ s, ReadsValue (f.read s)) {c c' : Cursor} {a : α}
    {lead t : List Char} (hlead : Spaces lead) (hc : c.rest = lead ++ '{' :: t)
    (h : record name fields empty finish c = .ok a c') :
    1 < c.depth ∧ ∃ inner ms s, Spaces inner ∧
      t = inner ++ (Member.joined ms ++ '}' :: c'.rest) ∧
      Steps (fieldByName fields) (c.depth - 1) empty ms s ∧ finish s = .ok a := by
  unfold record at h
  extract_lets done at h
  have h := (skipSpacesTo_bind_eq_ok hlead rfl hc).1 (located_eq_ok.1 h)
  obtain ⟨hd, n, c₂, hcontents, hclose⟩ := bracketed_enough_eq_ok rfl h
  obtain ⟨s, c₃, hmembers, hcontents⟩ := bind_eq_ok.1 hcontents
  obtain ⟨hs, rfl⟩ := finish_eq_ok hcontents
  obtain ⟨-, hbrace, inner, ms, hinner, hms, hsteps⟩ :=
    steps_of_membersFrom (readsValue_fieldByName hfields) (hasColon_fieldByName hfields) hmembers
  obtain ⟨-, hend⟩ := closeObject_eq_ok hclose hbrace
  have ht : t = inner ++ (Member.text true ms ++ c₃.rest) := hms
  exact ⟨hd, inner, ms, s, hinner, by rw [ht, show c₃.rest = _ from hend]; rfl, hsteps, hs⟩

end Records

end Reader

end DataClient.Json
