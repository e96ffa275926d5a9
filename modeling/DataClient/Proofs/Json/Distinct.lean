import DataClient.Proofs.Json.ReadBack

/-!
# Documents told apart by their texts

Where a document that is read back ends can be seen from its text, whatever stands behind it
(`Reads.text_eq`). So two lists of such documents whose texts are equal agree item by item
(`forall₂_written`), however many items each of them has.
-/

set_option autoImplicit false

namespace DataClient.Json.Reader

variable {α : Type} {r : Reader α} {d level : Nat} {l : Layout}

/-- Two documents that one reader reads, in texts that go on in any way. -/
theorem Reads.text_eq {j j' : Json} {a a' : α} {rest rest' : List Char} (h : Reads r d j a)
    (h' : Reads r d j' a') (hrest : Ends rest) (hrest' : Ends rest')
    (heq : written l level j ++ rest = written l level j' ++ rest') :
    a = a' ∧ written l level j = written l level j' ∧ rest = rest' := by
  obtain ⟨o, hread⟩ := (h l level).takes [] .nil 0 rest hrest
  obtain ⟨o', hread'⟩ := (h' l level).takes [] .nil 0 rest' hrest'
  rw [List.nil_append] at hread hread'
  -- Both texts are the same input of the reader.
  rw [heq, hread'] at hread
  cases hread
  exact ⟨rfl, List.append_cancel_right heq, rfl⟩

/-- The text goes on with the bracket of a list, perhaps behind spaces. -/
def Closing (rest : List Char) : Prop := ∃ sp t, Spaces sp ∧ rest = sp ++ ']' :: t

theorem Closing.ends {rest : List Char} (h : Closing rest) : Ends rest := by
  obtain ⟨sp, t, hsp, rfl⟩ := h
  exact (Delimited.spaced hsp rfl).ends

theorem Spaces.head_eq {sp sp' t t' : List Char} {x y : Char} (hsp : Spaces sp) (hsp' : Spaces sp')
    (hx : isSpace x = false) (hy : isSpace y = false) (h : sp ++ x :: t = sp' ++ y :: t') : x = y := by
  have hdrop {sp t : List Char} {x : Char} (hsp : Spaces sp) (hx : isSpace x = false) :
      (sp ++ x :: t).dropWhile isSpace = x :: t := by
    apply (takeWhile_append_of_head? hsp _).2
    rintro _ ⟨⟩
    exact hx
  have heads := congrArg (List.dropWhile isSpace) h
  rw [hdrop hsp hx, hdrop hsp' hy] at heads
  exact (List.cons.inj heads).1

theorem Closing.ne_item {first : Bool} {j : Json} {a : α} {rest rest' : List Char} (h : Closing rest)
    (hj : Reads r d j a) :
    rest ≠ (if first then [] else [',']) ++ (l.line level ++ (written l level j ++ rest')) := by
  obtain ⟨sp, t, hsp, rfl⟩ := h
  obtain ⟨x, u, hx, hdelimiter⟩ := (hj l level).starts
  rw [hx]
  intro heq
  cases first with
  | false => cases hsp.head_eq .nil rfl rfl heq
  | true =>
    have hbracket := hsp.head_eq (l.line_spaces level) rfl (isSpace_of_isDelimiter_eq_false hdelimiter) heq
    rw [← hbracket] at hdelimiter
    cases hdelimiter

/-- **Equal texts of two lists are equal item by item.** -/
theorem forall₂_writtenItems {xs ys : List Json} (hxs : ∀ x ∈ xs, ∃ a, Reads r d x a)
    (hys : ∀ y ∈ ys, ∃ a, Reads r d y a) {first : Bool} {rest rest' : List Char} (hrest : Closing rest)
    (hrest' : Closing rest')
    (h : writtenItems l level first xs ++ rest = writtenItems l level first ys ++ rest') :
    List.Forall₂ (fun x y => written l level x = written l level y) xs ys ∧ rest = rest' := by
  induction xs generalizing first ys with
  | nil =>
    cases ys with
    | nil => exact ⟨.nil, h⟩
    | cons y ys =>
      obtain ⟨a, ha⟩ := hys y List.mem_cons_self
      simp only [writtenItems, List.nil_append, List.append_assoc] at h
      exact absurd h (hrest.ne_item ha)
  | cons x xs ih =>
    obtain ⟨a, ha⟩ := hxs x List.mem_cons_self
    cases ys with
    | nil =>
      simp only [writtenItems, List.nil_append, List.append_assoc] at h
      exact absurd h.symm (hrest'.ne_item ha)
    | cons y ys =>
      obtain ⟨b, hb⟩ := hys y List.mem_cons_self
      simp only [writtenItems, List.append_assoc] at h
      have hitems := List.append_cancel_left (List.append_cancel_left h)
      -- An item ends with the comma of the next one or with the end of the list.
      have hends {zs : List Json} {rest : List Char} (hrest : Closing rest) :
          Ends (writtenItems l level false zs ++ rest) := by
        cases zs with
        | nil => exact hrest.ends
        | cons z zs =>
          rintro c ⟨⟩
          rfl
      obtain ⟨-, htext, hmore⟩ := ha.text_eq hb (hends hrest) (hends hrest') hitems
      obtain ⟨hall, hend⟩ := ih (fun z hz => hxs z (List.mem_cons_of_mem x hz))
        (fun z hz => hys z (List.mem_cons_of_mem y hz)) hmore
      exact ⟨.cons htext hall, hend⟩

theorem forall₂_written {xs ys : List Json} (hxs : ∀ x ∈ xs, ∃ a, Reads r d x a)
    (hys : ∀ y ∈ ys, ∃ a, Reads r d y a) (h : written l level (.array xs) = written l level (.array ys)) :
    List.Forall₂ (fun x y => written l (level + 1) x = written l (level + 1) y) xs ys := by
  have hclosing (zs : List Json) : Closing ((if zs.isEmpty then [] else l.line level) ++ [']']) := by
    refine ⟨_, [], ?_, rfl⟩
    split
    · exact .nil
    · exact l.line_spaces level
  simp only [written, List.append_assoc] at h
  exact (forall₂_writtenItems hxs hys (hclosing xs) (hclosing ys) (List.cons.inj h).2).1

/-- The members in front of one that is read back do not hide where its value ends. -/
theorem written_eq_of_text {w w' : Json} {a a' : α} (hw : Reads r d w a) (hw' : Reads r d w' a')
    {k : String} {pre ms ms' : List (String × Json)} {first : Bool} {s s' : List Char} (hs : Delimited s)
    (hs' : Delimited s')
    (h : Member.text first (writtenMembers l level (pre ++ (k, w) :: ms)) ++ s
      = Member.text first (writtenMembers l level (pre ++ (k, w') :: ms')) ++ s') :
    written l level w = written l level w' := by
  induction pre generalizing first with
  | nil =>
    -- The keys are the same, so that both texts go on with the values.
    have hvalues : written l level w ++ (Member.more (writtenMembers l level ms) ++ s)
        = written l level w' ++ (Member.more (writtenMembers l level ms') ++ s') := by
      cases first <;>
        simpa [Member.text, Member.joined, Member.more, Member.front, writtenMembers, Layout.member] using h
    have hends {ms : List (String × Json)} {s : List Char} (hs : Delimited s) :
        Ends (Member.more (writtenMembers l level ms) ++ s) := by
      cases ms with
      | nil => exact hs.ends
      | cons m ms =>
        rintro c ⟨⟩
        rfl
    exact (hw.text_eq hw' (hends hs) (hends hs') hvalues).2.1
  | cons p pre ih =>
    have hmore : Member.text false (writtenMembers l level (pre ++ (k, w) :: ms)) ++ s
        = Member.text false (writtenMembers l level (pre ++ (k, w') :: ms')) ++ s' := by
      cases first <;>
        simpa [Member.text, Member.joined, Member.more, Member.front, writtenMembers, Layout.member] using h
    exact ih hmore

/-- **Equal texts of two objects are equal in each member**, up to where the members differ. -/
theorem written_eq_of_object {w w' : Json} {a a' : α} (hw : Reads r d w a) (hw' : Reads r d w' a')
    {k : String} (pre ms ms' : List (String × Json))
    (h : written l level (.object (pre ++ (k, w) :: ms)) = written l level (.object (pre ++ (k, w') :: ms'))) :
    written l (level + 1) w = written l (level + 1) w' := by
  have hend (ms : List (String × Json)) :
      Delimited ((if ms.isEmpty then [] else l.line level) ++ ['}']) := by
    apply Delimited.spaced _ rfl
    split
    · exact .nil
    · exact l.line_spaces level
  rw [written, written] at h
  have htext : Member.text true (writtenMembers l (level + 1) (pre ++ (k, w) :: ms))
        ++ ((if (pre ++ (k, w) :: ms).isEmpty then [] else l.line level) ++ ['}'])
      = Member.text true (writtenMembers l (level + 1) (pre ++ (k, w') :: ms'))
        ++ ((if (pre ++ (k, w') :: ms').isEmpty then [] else l.line level) ++ ['}']) := by
    rw [← List.append_assoc, ← List.append_assoc]
    exact (List.cons.inj h).2
  exact written_eq_of_text hw hw' (hend _) (hend _) htext

end DataClient.Json.Reader
