import DataClient.Proofs.Json.Layout

/-!
# Reading written documents

A reader reads a value from a document in any layout (`Reads`): strings, integers and variants from
their texts, and lists and objects item by item and member by member. Readers of lists and objects
come down to those of what they hold, one level deeper.
-/

set_option autoImplicit false

namespace DataClient.Json

namespace Reader

variable {α β σ : Type}

/-- `r` reads `a` from the document, however that is laid out. -/
def Reads (r : Reader α) (d : Nat) (j : Json) (a : α) : Prop :=
  ∀ (l : Layout) (level : Nat), Decodes r d (written l level j) a

/-- A whole text is read back. -/
theorem Decodes.read {r : Reader α} {source trail : List Char} {a : α}
    (h : Decodes r depthLimit source a) (htrail : Spaces trail) :
    Json.read r (String.ofList (source ++ trail)) = .ok a := by
  obtain ⟨o, h⟩ := h.takes [] .nil 0 trail (.spaces htrail)
  rw [read_eq_ok, String.toList_ofList]
  exact ⟨_, h, htrail⟩

theorem Reads.read_compact {r : Reader α} {j : Json} {a : α} (h : Reads r depthLimit j a) :
    Json.read r j.compact = .ok a := by
  have hread := (h .dense 0).read .nil
  rwa [List.append_nil, ← toList_compact, String.ofList_toList] at hread

theorem Reads.read_pretty {r : Reader α} {j : Json} {a : α} (h : Reads r depthLimit j a) :
    Json.read r (j.pretty ++ "\n") = .ok a := by
  have hbreak : Spaces ['\n'] := List.forall_mem_cons.2 ⟨rfl, Spaces.nil⟩
  have hread := (h .lines 0).read hbreak
  rwa [← toList_indented, ← show ("\n" : String).toList = ['\n'] from rfl, ← String.toList_append,
    String.ofList_toList] at hread

/-! ## Scalars -/

theorem reads_string (s : String) (d : Nat) : Reads string d (.string s) s := by
  intro l level
  have h := decodes_string s d
  rwa [toList_writeString] at h

theorem reads_int64 (n : Int64) (d : Nat) : Reads int64 d (ofInt64 n) n :=
  fun _ _ => decodes_int64 n d

theorem reads_variant {variants : List (String × α)} {name : String} {a : α}
    (h : lookup name variants = some a) (d : Nat) : Reads (variant variants) d (.string name) a := by
  intro l level
  refine .look rfl ?_
  refine Takes.located ?_
  have hname := (decodes_stringAs "variant identifier" name d).takes [] .nil
  rw [toList_writeString, List.nil_append] at hname
  rw [← List.append_nil ('"' :: quoted name)]
  refine hname.bind ?_ fun rest h => h
  rw [h]
  exact .pure _ _ _

/-! ## A value or null -/

theorem takes_null (r : Reader α) (d : Nat) :
    Takes (fun _ => True) (optional r) d ['n', 'u', 'l', 'l'] none :=
  .behind_spaces .nil rfl fun _ _ _ => ⟨_, rfl⟩

/-- The text of the document does not begin as that of null does. -/
def NotNull (j : Json) : Prop := ∀ l level, (written l level j).head? ≠ some 'n'

theorem notNull_string (s : String) : NotNull (.string s) := fun _ _ h => by simp [written] at h

theorem notNull_array (items : List Json) : NotNull (.array items) := fun _ _ h => by simp [written] at h

theorem notNull_object (ms : List (String × Json)) : NotNull (.object ms) :=
  fun _ _ h => by simp [written] at h

theorem notNull_ofInt64 (n : Int64) : NotNull (ofInt64 n) := by
  intro l level h
  obtain ⟨hfits, hn⟩ := ofInt64_eq n
  rw [hn, written, toList_write_integer hfits] at h
  obtain ⟨x, xs, hxs, -⟩ := exists_toDigits_cons n.toInt.natAbs
  have hx : Text.isDigit x = true := isDigit_of_mem_toDigits (hxs ▸ List.mem_cons_self)
  split at h
  · cases h
  · rw [hxs] at h
    cases h
    cases hx

theorem Reads.optional {r : Reader α} {d : Nat} {j : Json} {a : α} (h : Reads r d j a)
    (hj : NotNull j) : Reads (optional r) d j (some a) := by
  intro l level
  obtain ⟨x, t, ht, hx⟩ := (h l level).starts
  have hn : x ≠ 'n' := by
    have := hj l level
    rw [ht] at this
    exact fun h => this (congrArg some h)
  have htake := (h l level).takes [] .nil
  rw [List.nil_append, ht] at htake
  rw [ht]
  refine ⟨⟨x, t, rfl, hx⟩, fun sp hsp =>
    .behind_spaces hsp (isSpace_of_isDelimiter_eq_false hx) ?_⟩
  split
  · rename_i heq
    exact absurd (Option.some.inj heq) hn
  · exact htake.then_pure

/-! ## Lists -/

/-- The text goes on with the bracket that closes a list. -/
def AtBracket (rest : List Char) : Prop := ∃ t, rest = ']' :: t

theorem ends_writtenItems {l : Layout} {level : Nat} {xs : List Json} {sp rest : List Char}
    (hsp : Spaces sp) (hrest : AtBracket rest) :
    Ends (writtenItems l level false xs ++ sp ++ rest) := by
  obtain ⟨t, rfl⟩ := hrest
  cases xs with
  | nil => exact (Delimited.spaced hsp rfl).ends
  | cons x xs =>
    rintro y ⟨⟩
    rfl

theorem takes_moreItems_false {first : Bool} {sp : List Char} (hsp : Spaces sp) (d : Nat) :
    Takes AtBracket (moreItems first) d sp false := by
  rintro o _ ⟨t, rfl⟩
  exact ⟨_, bind_eq_ok.2 ⟨']', _, skipSpacesTo_append hsp rfl o d, rfl⟩⟩

theorem takes_moreItems_true {first : Bool} {sp lead : List Char} (hsp : Spaces sp) (hlead : Spaces lead)
    (d : Nat) : Takes (fun rest => ∃ x t, rest = x :: t ∧ isSpace x = false ∧ x ≠ ']') (moreItems first) d
      (sp ++ (if first then lead else ',' :: lead)) true := by
  rintro o _ ⟨x, t, rfl, hspace, hclose⟩
  cases first with
  | true =>
    refine ⟨o + (sp ++ lead).length, bind_eq_ok.2 ⟨x, ⟨o + (sp ++ lead).length, x :: t, d⟩,
      skipSpacesTo_append (hsp.append hlead) hspace o d, ?_⟩⟩
    split
    · exact absurd rfl hclose
    · rfl
  | false =>
    refine ⟨o + sp.length + 1 + lead.length, ?_⟩
    rw [if_neg Bool.false_ne_true, List.append_assoc]
    refine bind_eq_ok.2 ⟨',', ⟨o + sp.length, ',' :: (lead ++ x :: t), d⟩,
      skipSpacesTo_append hsp rfl o d, ?_⟩
    refine bind_eq_ok.2 ⟨(), ⟨o + sp.length + 1, lead ++ x :: t, d⟩, rfl,
      bind_eq_ok.2 ⟨x, ⟨o + sp.length + 1 + lead.length, x :: t, d⟩,
        skipSpacesTo_append hlead hspace _ d, ?_⟩⟩
    split
    · exact absurd rfl hclose
    · rfl

/-- **Items are read one behind the other.** -/
theorem takes_itemsFrom {item : Nat → Reader α} {f : β → Json} {g : β → α} {d : Nat} {xs : List β}
    (h : ∀ x ∈ xs, ∀ i, Reads (item i) d (f x) (g x)) (l : Layout) (level i : Nat) {sp : List Char}
    (hsp : Spaces sp) {n : Nat}
    (hn : (writtenItems l level (i = 0) (xs.map f) ++ sp).length < n) :
    Takes AtBracket (itemsFrom item n i) d (writtenItems l level (i = 0) (xs.map f) ++ sp)
      (xs.map g) := by
  induction xs generalizing i n with
  | nil =>
    obtain ⟨n, rfl⟩ := Nat.exists_eq_succ_of_ne_zero (Nat.ne_zero_of_lt hn)
    have htext : writtenItems l level (i = 0) (List.map f []) ++ sp = sp ++ [] := by
      simp [writtenItems]
    rw [htext]
    exact (takes_moreItems_false hsp d).bind (.pure _ _ _) fun rest h => h
  | cons x xs ih =>
    obtain ⟨n, rfl⟩ := Nat.exists_eq_succ_of_ne_zero (Nat.ne_zero_of_lt hn)
    obtain ⟨hhead, htail⟩ := List.forall_mem_cons.1 h
    have htext : writtenItems l level (i = 0) ((x :: xs).map f) ++ sp
        = ([] ++ (if (decide (i = 0) : Bool) then l.line level else ',' :: l.line level))
          ++ (written l level (f x) ++ (writtenItems l level false (xs.map f) ++ sp)) := by
      cases i <;> simp [writtenItems]
    have hnext : (decide (i + 1 = 0)) = false := by simp
    rw [htext] at hn ⊢
    have hitem := hhead i l level
    obtain ⟨y, t, hy, hdelimiter⟩ := hitem.starts
    have htake := hitem.takes [] .nil
    rw [List.nil_append] at htake
    have hrest := ih htail (i + 1) (n := n) (by
      rw [hnext]
      rw [hy] at hn
      simp only [List.length_append, List.length_cons] at hn ⊢
      omega)
    rw [hnext] at hrest
    refine (takes_moreItems_true .nil (l.line_spaces level) d).bind
      (htake.bind hrest.then_pure fun rest hrest => ends_writtenItems hsp hrest) fun rest _ => ?_
    rw [hy]
    refine ⟨y, _, rfl, isSpace_of_isDelimiter_eq_false hdelimiter, fun hclose => ?_⟩
    rw [hclose] at hdelimiter
    cases hdelimiter

theorem takes_closeList {sp : List Char} (hsp : Spaces sp) (d : Nat) :
    Takes (fun _ => True) closeList d (sp ++ [']']) () :=
  .behind_spaces hsp rfl fun _ _ _ => ⟨_, rfl⟩

theorem takes_items {item : Nat → Reader α} {f : β → Json} {g : β → α} {d : Nat} {xs : List β}
    (hd : 1 < d) (h : ∀ x ∈ xs, ∀ i, Reads (item i) (d - 1) (f x) (g x)) (l : Layout) (level : Nat) :
    Takes Ends (bracketed (do itemsFrom item (← enough) 0) closeList) d
      (written l level (.array (xs.map f))) (xs.map g) := by
  have hsp : Spaces (if (xs.map f).isEmpty then [] else l.line level) := by
    split
    · exact .nil
    · exact l.line_spaces level
  exact Takes.bracketed hd '[' (.enough fun n hn => takes_itemsFrom h l (level + 1) 0 hsp hn)
    ((takes_closeList .nil d).mono fun _ _ => trivial) fun rest _ => ⟨rest, rfl⟩

theorem Reads.list {item : Reader α} {f : β → Json} {g : β → α} {d : Nat} {xs : List β} (hd : 1 < d)
    (h : ∀ x ∈ xs, Reads item (d - 1) (f x) (g x)) :
    Reads (list item) d (.array (xs.map f)) (xs.map g) :=
  fun l level => .located (.look rfl (takes_items hd (fun x hx _ => h x hx) l level))

/-! ## Objects -/

section Objects

variable {γ : Type} {d : Nat} {xs : List γ}

theorem wellFormed_member (l : Layout) (level : Nat) (k : String) (value : List Char) :
    (l.member level k value).WellFormed :=
  ⟨l.line_spaces level, .nil, .nil, takes_stringBody k⟩

theorem takes_colon_value {r : Reader α} {source : List Char} {a : α} (l : Layout)
    (h : Decodes r d source a) : Takes Ends (colon >>= fun _ => r) d (':' :: (l.gap ++ source)) a :=
  (takes_colon .nil d).bind (h.takes l.gap l.gap_spaces) fun _ _ => trivial

/-- Written members are read one by one; the state may depend on all those read before. -/
theorem steps_written (key : γ → String) (doc : γ → Json) {member : String → σ → Reader σ}
    (state : List γ → σ)
    (h : ∀ pre x post, xs = pre ++ x :: post → ∀ l level, Takes Ends (member (key x) (state pre)) d
      (':' :: (l.gap ++ written l level (doc x))) (state (pre ++ [x]))) (l : Layout) (level : Nat) :
    Steps member d (state []) (writtenMembers l level (xs.map fun x => (key x, doc x))) (state xs) := by
  suffices hall : ∀ rest pre, xs = pre ++ rest → Steps member d (state pre)
      (writtenMembers l level (rest.map fun x => (key x, doc x))) (state xs) from hall xs [] rfl
  intro rest
  induction rest with
  | nil =>
    rintro pre rfl
    rw [List.append_nil]
    exact .nil _
  | cons x rest ih =>
    intro pre hpre
    refine .cons (wellFormed_member l level _ _) ((h pre x rest hpre l level).mono fun _ h => h.ends)
      (ih (pre ++ [x]) ?_)
    rw [hpre, List.append_assoc]
    rfl

/-- The spaces before the bracket that closes an object. -/
theorem spaces_trail (l : Layout) (level : Nat) (ms : List (String × Json)) :
    Spaces (if ms.isEmpty then [] else l.line level) := by
  split
  · exact .nil
  · exact l.line_spaces level

/-- A key that is greater than all the others is added behind them. -/
theorem insertMember_append {k : String} {a : α} {ms : List (String × α)} (h : ∀ m ∈ ms, m.1 < k) :
    insertMember k a ms = ms ++ [(k, a)] := by
  induction ms with
  | nil => rfl
  | cons m ms ih =>
    obtain ⟨hm, hms⟩ := List.forall_mem_cons.1 h
    rw [insertMember, if_neg (ne_of_gt hm), if_neg (not_lt_of_gt hm), ih hms]
    rfl

/-- **An ordered dictionary is read back.** -/
theorem Reads.dictionary {item : Reader α} {f : β → Json} {g : β → α} {entries : List (String × β)}
    (hd : 1 < d) (hordered : Ordered entries) (h : ∀ e ∈ entries, Reads item (d - 1) (f e.2) (g e.2)) :
    Reads (dictionary item) d (.object (entries.map fun e => (e.1, f e.2)))
      (entries.map fun e => (e.1, g e.2)) := by
  intro l level
  refine ⟨⟨'{', _, rfl, rfl⟩, fun sp hsp => ?_⟩
  have hsteps : Steps (fun k ms => do colon; return insertMember k (← item) ms) (d - 1) []
      (writtenMembers l (level + 1) (entries.map fun e => (e.1, f e.2)))
      (entries.map fun e => (e.1, g e.2)) :=
    steps_written Prod.fst (fun e => f e.2) (fun pre => pre.map fun e => (e.1, g e.2))
      (fun pre x post hpre l level => ?_) l (level + 1)
  · exact (takes_dictionary hd hsp .nil (spaces_trail l level _) hsteps).mono fun _ _ => trivial
  · have hlt : ∀ m ∈ pre.map (fun e => (e.1, g e.2)), m.1 < x.1 := by
      intro m hm
      obtain ⟨e, he, rfl⟩ := List.mem_map.1 hm
      have hkeys := hordered
      rw [Ordered, hpre, List.map_append, List.pairwise_append] at hkeys
      exact hkeys.2.2 e.1 (List.mem_map_of_mem he) x.1 (by simp)
    have htake := takes_colon_value l
      ((h x (by simp [hpre]) l level).then_pure
        (g := fun a => insertMember x.1 a (pre.map fun e => (e.1, g e.2))))
    rw [insertMember_append hlt] at htake
    rwa [List.map_append]

/-- **A record is read back from its members**: `state` is what has been read of some of them. -/
theorem Reads.record {fields : List (FieldReader σ)} {name : String} {finish : σ → Except String α}
    (state : List (String × Json) → σ) {ms : List (String × Json)} {a : α} (hd : 1 < d)
    (h : ∀ pre m post, ms = pre ++ m :: post → ∀ l level, Takes Ends
      (fieldByName fields m.1 (state pre)) (d - 1) (':' :: (l.gap ++ written l level m.2))
      (state (pre ++ [m])))
    (hfinish : finish (state ms) = .ok a) :
    Reads (record name fields (state []) finish) d (.object ms) a := by
  intro l level
  refine ⟨⟨'{', _, rfl, rfl⟩, fun sp hsp => ?_⟩
  have hsteps := steps_written Prod.fst Prod.snd state h l (level + 1)
  rw [List.map_id'' (fun _ => rfl)] at hsteps
  exact (takes_record hd hsp .nil (spaces_trail l level ms) hsteps hfinish).mono fun _ _ => trivial

end Objects

end Reader

end DataClient.Json
