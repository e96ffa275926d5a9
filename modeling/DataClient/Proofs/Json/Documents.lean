import DataClient.Proofs.Json.ReadBack

/-!
# Any document read back

The reader that takes any document reads back what is written of one: scalars as themselves, an array
item by item, and an object member by member, its members in order.
-/

set_option autoImplicit false

namespace DataClient.Json.Reader

variable {β : Type} {n d : Nat}

theorem reads_document_null : Reads (documentFrom (n + 1)) d .null .null :=
  fun _ _ => .located (.look rfl fun _ _ _ => ⟨_, rfl⟩)

theorem reads_document_bool (b : Bool) : Reads (documentFrom (n + 1)) d (.bool b) (.bool b) := by
  intro l level
  cases b with
  | true => exact .located (.look rfl fun _ _ _ => ⟨_, rfl⟩)
  | false => exact .located (.look rfl fun _ _ _ => ⟨_, rfl⟩)

theorem reads_document_string (s : String) : Reads (documentFrom (n + 1)) d (.string s) (.string s) := by
  intro l level
  have hbody : Takes Ends (stringBody >>= fun s => pure (Json.string s)) d (quoted s) (.string s) :=
    ((takes_stringBody s d).mono fun _ _ => trivial).then_pure
  exact .located (.look rfl (.after_skip hbody))

theorem decodes_document_number {negative : Bool} {text : List Char} {value : Number}
    (h : Takes Ends (numberBody negative) d text value)
    (hdigit : ∃ x xs, text = x :: xs ∧ Text.isDigit x = true) :
    Decodes (documentFrom (n + 1)) d ((if negative then ['-'] else []) ++ text) (.number value) := by
  refine .located ?_
  cases negative with
  | true => exact .look rfl (.after_skip h.then_pure)
  | false =>
    obtain ⟨x, xs, rfl, hx⟩ := hdigit
    refine .look (isDelimiter_of_isDigit hx) ?_
    split <;> first | cases hx | exact .if_pos hx h.then_pure

theorem reads_document_integer {negative : Bool} {m : Nat} (h : FitsInteger negative m) :
    Reads (documentFrom (n + 1)) d (.number (integer negative m)) (.number (integer negative m)) := by
  intro l level
  obtain ⟨x, xs, hxs, -⟩ := exists_toDigits_cons m
  rw [written, toList_write_integer h]
  exact decodes_document_number (takes_numberBody h d)
    ⟨x, xs, hxs, isDigit_of_mem_toDigits (hxs ▸ List.mem_cons_self)⟩

theorem reads_document_int64 (m : Int64) : Reads (documentFrom (n + 1)) d (ofInt64 m) (ofInt64 m) := by
  obtain ⟨hfits, hm⟩ := ofInt64_eq m
  rw [hm]
  exact reads_document_integer hfits

/-- **An array is read item by item.** -/
theorem Reads.array {f g : β → Json} {xs : List β} (hd : 1 < d)
    (h : ∀ x ∈ xs, Reads (documentFrom n) (d - 1) (f x) (g x)) :
    Reads (documentFrom (n + 1)) d (.array (xs.map f)) (.array (xs.map g)) := by
  intro l level
  refine .located (.look rfl ?_)
  have hsp : Spaces (if (xs.map f).isEmpty then [] else l.line level) := by
    split
    · exact .nil
    · exact l.line_spaces level
  have hclose : Takes Ends closeList d [']'] () := (takes_closeList .nil d).mono fun _ _ => trivial
  have hbracket (rest : List Char) (_ : Ends rest) : AtBracket ([']'] ++ rest) := ⟨rest, rfl⟩
  refine Takes.bracketed hd '[' (.enough fun m hm => ?_) hclose hbracket
  exact (takes_itemsFrom (fun x hx _ => h x hx) l (level + 1) 0 hsp hm).then_pure

/-- **An object is read member by member**, and its members are put in order. -/
theorem Reads.object {key : β → String} {f g : β → Json} {xs : List β} (hd : 1 < d)
    (h : ∀ x ∈ xs, Reads (documentFrom n) (d - 1) (f x) (g x)) :
    Reads (documentFrom (n + 1)) d (.object (xs.map fun x => (key x, f x)))
      (ofMembers (xs.map fun x => (key x, g x))) := by
  intro l level
  refine .located (.look rfl ?_)
  have hsteps : Steps (fun k ms => do colon; return insertMember k (← documentFrom n) ms) (d - 1) []
      (writtenMembers l (level + 1) (xs.map fun x => (key x, f x)))
      (members (xs.map fun x => (key x, g x))) :=
    steps_written key f (fun pre => members (pre.map fun x => (key x, g x)))
      (fun pre x post hpre l level => ?_) l (level + 1)
  · refine Takes.bracketed hd '{' (.enough fun m hm => ?_)
      ((takes_closeObject d).mono fun _ _ => trivial) fun rest _ => atBrace_append rest
    have hmembers := @Steps.takes _ _ _ _ _ _ hsteps true _ _ .nil (spaces_trail l level _) m hm
    exact hmembers.then_pure
  · have hinsert : members ((pre ++ [x]).map fun x => (key x, g x))
        = insertMember (key x) (g x) (members (pre.map fun x => (key x, g x))) := by
      rw [members, List.map_append, List.foldl_append]
      rfl
    rw [hinsert]
    exact takes_colon_value l ((h x (by simp [hpre]) l level).then_pure
      (g := fun j => insertMember (key x) j (members (pre.map fun x => (key x, g x)))))

end DataClient.Json.Reader
