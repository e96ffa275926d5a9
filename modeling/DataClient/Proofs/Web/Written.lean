import DataClient.Proofs.Web.Address
import DataClient.Proofs.Web.Characters

/-!
# Written addresses

The parts of a written address are told apart by their marks (`Url.partsOf`). In an address that was
read no part has a mark that would end it or begin another one (`Url.Tidy`), so the parts are found
again in the text (`Url.Tidy.partsOf_write`), and reading the text gives the address, up to what is
made of the text of its authority (`Url.Tidy.read_write`).
-/

set_option autoImplicit false

namespace DataClient.Web

/-! ## Segments -/

namespace Path

/-- An encoded text without slashes of either kind. -/
structure IsSegment (s : String) : Prop where
  encoded : pathSet.Encoded s
  slash : '/' ∉ s.toList
  backslash : '\\' ∉ s.toList

/-- A segment that is part of a path and stays so when the path is read once more. -/
structure Settled (s : String) : Prop extends IsSegment s where
  single : isSingleDot s = false
  double : isDoubleDot s = false

theorem settled_empty : Settled "" :=
  ⟨⟨by decide, by decide, by decide⟩, by decide +kernel, by decide +kernel⟩

theorem isSegment_encodeSegment (s : String) : IsSegment (encodeSegment s) where
  encoded := EncodeSet.encoded_percentEncode_of keepsEscapes_pathSet (fun b hb => by
    simp only [segmentSet, Bool.or_eq_false_iff] at hb
    exact hb.1) _
  slash := slash_not_mem_encodeSegment s
  backslash := not_mem_percentEncode (fun _ => lt_of_segmentSet) (by decide) (.inr (by decide))

/-- Going on by a segment keeps those of the path settled: a dot segment does not become one of
them. -/
theorem settled_enter {parts : List String} {s : String} (hparts : ∀ p ∈ parts, Settled p)
    (hs : IsSegment s) (isLast : Bool) : ∀ p ∈ enter parts isLast s, Settled p := by
  have hrest : ∀ p ∈ (if isLast then [""] else []), Settled p := by
    split_ifs
    · exact List.forall_mem_singleton.2 settled_empty
    · exact fun _ h => absurd h List.not_mem_nil
  unfold enter
  extract_lets rest
  split_ifs with hdouble hsingle
  · exact List.forall_mem_append.2 ⟨fun p hp => hparts p (mem_climb hp), hrest⟩
  · exact List.forall_mem_append.2 ⟨hparts, hrest⟩
  · exact List.forall_mem_append.2 ⟨hparts, List.forall_mem_singleton.2
      ⟨hs, by simpa using hsingle, by simpa using hdouble⟩⟩

theorem enter_last_ne_nil (parts : List String) (s : String) : enter parts true s ≠ [] := by
  unfold enter
  extract_lets rest
  split_ifs <;> simp [rest]

theorem settled_follow {parts segments : List String} (hparts : ∀ p ∈ parts, Settled p)
    (h : ∀ s ∈ segments, IsSegment s) : ∀ p ∈ follow parts segments, Settled p := by
  induction parts, segments using follow.induct with
  | case1 parts => exact hparts
  | case2 parts s => exact settled_enter hparts (h s List.mem_cons_self) true
  | case3 parts s rest hrest ih =>
    obtain ⟨hs, hall⟩ := List.forall_mem_cons.1 h
    rw [follow]
    · exact ih (settled_enter hparts hs false) hall
    · exact hrest

theorem follow_ne_nil {parts segments : List String} (h : segments ≠ []) :
    follow parts segments ≠ [] := by
  induction parts, segments using follow.induct with
  | case1 parts => exact absurd rfl h
  | case2 parts s => exact enter_last_ne_nil parts s
  | case3 parts s rest hrest ih =>
    rw [follow]
    · exact ih fun hnil => hrest hnil
    · exact hrest

/-- Going on by settled segments adds them. -/
theorem follow_of_settled {parts segments : List String} (h : ∀ s ∈ segments, Settled s) :
    follow parts segments = parts ++ segments := by
  have henter {s : String} (hs : Settled s) (parts : List String) (isLast : Bool) :
      enter parts isLast s = parts ++ [s] := by
    unfold enter
    rw [if_neg (by simp [hs.double]), if_neg (by simp [hs.single])]
  induction parts, segments using follow.induct with
  | case1 parts => exact (List.append_nil parts).symm
  | case2 parts s => exact henter (h s List.mem_cons_self) parts true
  | case3 parts s rest hrest ih =>
    obtain ⟨hs, hall⟩ := List.forall_mem_cons.1 h
    rw [follow]
    · rw [ih hall, henter hs, List.append_assoc, List.singleton_append]
    · exact hrest

/-- Whatever texts are added, the segments of the path are settled, and there is one. -/
theorem settled_appendSegments {parts : List String} (hne : parts ≠ [])
    (hparts : ∀ p ∈ parts, Settled p) (texts : List String) :
    appendSegments parts texts ≠ [] ∧ ∀ p ∈ appendSegments parts texts, Settled p := by
  have hfold (texts : List String) : ∀ {parts : List String}, parts ≠ [] → (∀ p ∈ parts, Settled p) →
      texts.foldl appendSegment parts ≠ [] ∧ ∀ p ∈ texts.foldl appendSegment parts, Settled p := by
    induction texts with
    | nil => exact fun hne hparts => ⟨hne, hparts⟩
    | cons s texts ih =>
      intro parts hne hparts
      rw [List.foldl_cons]
      unfold appendSegment
      split_ifs
      · exact ih hne hparts
      · exact ih (enter_last_ne_nil _ _) (settled_enter (fun _ h => absurd h List.not_mem_nil)
          (isSegment_encodeSegment s) true)
      · exact ih (enter_last_ne_nil _ _) (settled_enter hparts (isSegment_encodeSegment s) true)
  refine hfold texts ?_ ?_
  · unfold withoutTrailingSlash
    split_ifs with hlast
    · rw [← List.length_pos_iff, List.length_dropLast]
      omega
    · exact hne
  · unfold withoutTrailingSlash
    split_ifs
    · exact fun p hp => hparts p (List.dropLast_subset _ hp)
    · exact hparts

end Path

namespace Url

/-! ## Paths that are read -/

theorem encodeChars_eq {set : EncodeSet} {s : String} (h : set.Encoded s) :
    encodeChars set s.toList = s := by
  rw [encodeChars, String.ofList_toList, h.percentEncode_eq]

theorem isSegment_of_splitSlashes {kind : SchemeKind} (hkind : kind.isSpecial = true) {cs part : List Char}
    (hpart : part ∈ splitSlashes kind cs) : Path.IsSegment (encodeChars pathSet part) where
  encoded := EncodeSet.encoded_percentEncode keepsEscapes_pathSet _
  slash := not_mem_percentEncode (fun _ => lt_of_pathSet) (by decide) (.inl (by
    rw [String.toList_ofList]
    exact Text.sep_not_mem_splitChars _ part hpart))
  backslash := not_mem_percentEncode (fun _ => lt_of_pathSet) (by decide) (.inl (by
    rw [String.toList_ofList]
    intro hc
    obtain ⟨c, -, hc⟩ := List.mem_map.1 (Text.mem_of_mem_splitChars hpart hc)
    split_ifs at hc with hslash
    · exact absurd hc (by decide)
    · rw [hc] at hslash
      exact hslash (by rw [isSlash, hkind]; decide)))

/-- A path that is read has a segment, and its segments are settled. -/
theorem exists_readPath_eq (cs : List Char) : ∃ parts, readPath .special cs = .segments parts ∧
    parts ≠ [] ∧ ∀ p ∈ parts, Path.Settled p := by
  have hfollow (cs : List Char) : followText .special [] cs ≠ [] ∧
      ∀ p ∈ followText .special [] cs, Path.Settled p := by
    refine ⟨Path.follow_ne_nil fun h => ?_, Path.settled_follow (fun _ h => absurd h List.not_mem_nil)
      fun s hs => ?_⟩
    · exact Text.splitChars_ne_nil _ _ (List.map_eq_nil_iff.1 h)
    · obtain ⟨part, hpart, rfl⟩ := List.mem_map.1 hs
      exact isSegment_of_splitSlashes rfl hpart
  cases cs with
  | nil => exact ⟨[""], rfl, List.cons_ne_nil _ _, List.forall_mem_singleton.2 Path.settled_empty⟩
  | cons c rest => exact ⟨_, rfl, (hfollow _).1, (hfollow _).2⟩

/-- **A settled path is read off its text.** -/
theorem readPath_write {parts : List String} (hne : parts ≠ []) (h : ∀ p ∈ parts, Path.Settled p) :
    readPath .special (Path.segments parts).write.toList = .segments parts := by
  have hsplit : Text.splitChars '/' (Path.segments parts).write.toList = [] :: parts.map String.toList :=
    Path.splitChars_write fun p hp => (h p hp).slash
  have hbackslash : '\\' ∉ (Path.segments parts).write.toList := by
    rw [Path.toList_write, List.mem_flatMap]
    rintro ⟨p, hp, hc⟩
    rcases List.mem_cons.1 hc with hc | hc
    · exact absurd hc (by decide)
    · exact (h p hp).backslash hc
  obtain ⟨first, more, rfl⟩ := List.exists_cons_of_ne_nil hne
  have htext : (Path.segments (first :: more)).write.toList
      = '/' :: (first.toList ++ more.flatMap fun p => '/' :: p.toList) := by
    rw [Path.toList_write, List.flatMap_cons, List.cons_append]
  generalize first.toList ++ more.flatMap (fun p => '/' :: p.toList) = rest at htext
  rw [htext] at hsplit hbackslash ⊢
  rw [Text.splitChars_sep] at hsplit
  have hmap : (rest.map fun c => if isSlash .special c then '/' else c) = rest := by
    refine List.map_congr_left (fun c hc => ?_) |>.trans (List.map_id rest)
    have hne : c ≠ '\\' := by
      rintro rfl
      exact hbackslash (List.mem_cons_of_mem _ hc)
    split_ifs with hslash
    · simpa [isSlash, SchemeKind.isSpecial, hne, eq_comm] using hslash
    · rfl
  show Path.segments (followText .special [] rest) = _
  rw [followText, splitSlashes, hmap, (List.cons.inj hsplit).2, List.map_map]
  have hencode : (first :: more).map (encodeChars pathSet ∘ String.toList) = first :: more :=
    (List.map_congr_left fun p hp => encodeChars_eq (h p hp).encoded).trans (List.map_id _)
  rw [hencode, Path.follow_of_settled h, List.nil_append]

end Url

/-! ## Authorities -/

/-- A visible character that does not end an authority. -/
def isAuthorityChar (c : Char) : Bool := 0x20 < c.toNat && !"/\\?#".toList.contains c

/-- The parts of an authority as they are read. -/
structure Authority.Tidy (a : Authority) : Prop where
  user : userInfoSet.Encoded a.user
  password : ∀ s ∈ a.password, userInfoSet.Encoded s
  host : InHost a.host.write
  host_ne : a.host.write ≠ ""

theorem isAuthorityChar_of_isHostChar {c : Char} (h : isHostChar c = true) :
    isAuthorityChar c = true := by
  simp only [isHostChar, isAuthorityChar, Bool.and_eq_true, Bool.not_eq_true', List.contains_eq_mem,
    decide_eq_false_iff_not] at h ⊢
  have hsub : "/\\?#".toList ⊆ "/\\?#@".toList := by decide
  exact ⟨h.1, fun hc => h.2 (hsub hc)⟩

theorem isAuthorityChar_of_keeps {c : Char} (h : userInfoSet.keeps c = true) :
    isAuthorityChar c = true :=
  EncodeSet.of_keeps (by decide +kernel) h

namespace Authority.Tidy

variable {a : Authority} (h : a.Tidy)

include h

theorem consists_writeUser : Consists isAuthorityChar a.writeUser := by
  have huser := h.user.mono fun _ => isAuthorityChar_of_keeps
  unfold writeUser
  split
  · split_ifs
    · decide
    · exact huser.append (by decide)
  · rename_i password hpassword
    have hpassword := (h.password password hpassword).mono fun _ => isAuthorityChar_of_keeps
    exact ((huser.append (by decide)).append hpassword).append (by decide)

theorem consists_writePlace : Consists isAuthorityChar a.writePlace := by
  refine Consists.append (h.host.mono fun _ => isAuthorityChar_of_isHostChar) ?_
  cases a.port with
  | none => decide
  | some n =>
    exact Consists.append (by decide)
      ((inHost_toString n).mono fun _ => isAuthorityChar_of_isHostChar)

/-- **An authority is written without the marks that end it.** -/
theorem consists_write : Consists isAuthorityChar a.write := h.consists_writeUser.append h.consists_writePlace

theorem write_ne_empty : a.write ≠ "" := by
  intro hempty
  have hlist := congrArg String.toList hempty
  rw [write, writePlace, String.toList_append, String.toList_append] at hlist
  obtain ⟨-, hlist⟩ := List.append_eq_nil_iff.1 hlist
  exact h.host_ne (String.toList_eq_nil_iff.1 (List.append_eq_nil_iff.1 hlist).1)

end Authority.Tidy

namespace Url

/-! ## Addresses that are read -/

/-- The parts of an address that names a service, as they are read. -/
structure Tidy (u : Url) : Prop where
  scheme : u.scheme = "http" ∨ u.scheme = "https"
  authority : ∃ a, u.authority = some a ∧ a.Tidy
  path : ∃ parts, u.path = .segments parts ∧ parts ≠ [] ∧ ∀ p ∈ parts, Path.Settled p
  query : ∀ q ∈ u.query, specialQuerySet.Encoded q
  fragment : ∀ f ∈ u.fragment, fragmentSet.Encoded f

theorem kind_of_scheme {scheme : String} (h : scheme = "http" ∨ scheme = "https") :
    SchemeKind.of scheme = .special := by
  rcases h with rfl | rfl <;> decide

theorem encoded_encodeChars {set : EncodeSet} (h : set.KeepsEscapes) (cs : List Char) :
    set.Encoded (encodeChars set cs) :=
  EncodeSet.encoded_percentEncode h _

theorem encoded_readUser (cs : List Char) : userInfoSet.Encoded (readUser cs).1 ∧
    ∀ s ∈ (readUser cs).2, userInfoSet.Encoded s := by
  refine ⟨encoded_encodeChars keepsEscapes_userInfoSet _, fun s hs => ?_⟩
  obtain ⟨_, -, rfl⟩ := Option.map_eq_some_iff.1 hs
  exact encoded_encodeChars keepsEscapes_userInfoSet _

/-- Reads the port behind a host, if there is one. -/
def readPortBehind (scheme : String) (rest : List Char) : Except UrlFault (Option Nat × List Char) :=
  match rest with
  | ':' :: digits => readPort scheme digits
  | rest => .ok (none, rest)

theorem readPortBehind_bind {α : Type} (scheme : String) (rest : List Char)
    (f : Option Nat × List Char → Except UrlFault α) :
    (match rest with
      | ':' :: digits => readPort scheme digits >>= f
      | rest => .ok (none, rest) >>= f) = readPortBehind scheme rest >>= f := by
  unfold readPortBehind
  split <;> rfl

/-- What is made of the text of an authority: the authority, and what is left of the text. -/
def readMachine [DomainReader] (scheme : String) (hasMore : Bool) (text : List Char) :
    Except UrlFault (Authority × List Char) := do
  let (user?, place) := splitUser text
  if user? = some [] ∧ place.isEmpty ∧ hasMore then throw .emptyHost
  let (user, password) := (user?.map readUser).getD ("", none)
  let (hostText, rest) := splitHost false place
  if hostText.isEmpty then throw .emptyHost
  let host ← readHost hostText
  let (port, rest) ← readPortBehind scheme rest
  return (⟨user, password, host, port⟩, rest)

/-- The text of an authority ends at the first slash, and what follows is the path. -/
theorem readAuthority_eq [DomainReader] {scheme : String} (hkind : SchemeKind.of scheme = .special)
    (hasMore : Bool)
    (cs : List Char) :
    readAuthority scheme hasMore cs =
      (readMachine scheme (hasMore || !(cs.dropWhile (!isSlash .special ·)).isEmpty)
        (cs.takeWhile (!isSlash .special ·))).map fun r =>
          (r.1, readPath .special (r.2 ++ cs.dropWhile (!isSlash .special ·))) := by
  unfold readAuthority readMachine
  dsimp only
  rw [hkind]
  generalize cs.dropWhile (!isSlash .special ·) = pathText
  generalize cs.takeWhile (!isSlash .special ·) = text
  obtain ⟨user?, place⟩ := splitUser text
  obtain ⟨user, password⟩ := (Option.map readUser user?).getD ("", none)
  obtain ⟨hostText, rest⟩ := splitHost false place
  dsimp only
  by_cases hnone : user? = some [] ∧ place.isEmpty = true ∧ (hasMore || !pathText.isEmpty) = true
  · have hnone' := hnone
    rw [Bool.or_eq_true] at hnone'
    rw [if_pos hnone, if_pos hnone']
    rfl
  · have hnone' := hnone
    rw [Bool.or_eq_true] at hnone'
    rw [if_neg hnone, if_neg hnone']
    by_cases hempty : hostText.isEmpty = true
    · rw [if_pos hempty, if_pos ⟨rfl, hempty⟩]
      rfl
    · rw [if_neg hempty, if_neg fun h => hempty h.2, if_neg (by decide)]
      cases readHost hostText with
      | error e => rfl
      | ok host =>
        -- The host is not empty, which leaves the port.
        show (if hostText.isEmpty = true ∧ _ then _ else _) = _
        rw [if_neg fun h => hempty h.1]
        refine (readPortBehind_bind scheme rest _).trans ?_
        show _ = Except.map _ (readPortBehind scheme rest >>= _)
        cases readPortBehind scheme rest <;> rfl

theorem readMachine_eq_ok [DomainReader] {scheme : String} {hasMore : Bool} {text rest : List Char}
    {a : Authority}
    (h : readMachine scheme hasMore text = .ok (a, rest)) :
    ∃ user? place hostText behind, splitUser text = (user?, place) ∧
      (user?.map readUser).getD ("", none) = (a.user, a.password) ∧
      splitHost false place = (hostText, behind) ∧ readHost hostText = .ok a.host ∧
      readPortBehind scheme behind = .ok (a.port, rest) := by
  unfold readMachine at h
  cases huser : splitUser text with | mk user? place
  rw [huser] at h
  obtain ⟨-, h⟩ := Outcome.check_eq_ok.1 h
  cases hread : (user?.map readUser).getD ("", none) with | mk user password
  cases hsplit : splitHost false place with | mk hostText behind
  rw [hread, hsplit] at h
  obtain ⟨-, h⟩ := Outcome.check_eq_ok.1 h
  obtain ⟨host, hhost, h⟩ := Outcome.bind_eq_ok.1 h
  obtain ⟨⟨port, left⟩, hport, h⟩ := Outcome.bind_eq_ok.1 h
  cases h
  exact ⟨user?, place, hostText, behind, rfl, hread, hsplit, hhost, hport⟩

theorem tidy_of_readMachine [DomainReader] {scheme : String} {hasMore : Bool}
    {text rest : List Char} {a : Authority}
    (h : readMachine scheme hasMore text = .ok (a, rest)) : a.Tidy := by
  obtain ⟨user?, place, hostText, behind, -, huser, -, hhost, -⟩ := readMachine_eq_ok h
  obtain ⟨hin, hne⟩ := inHost_of_readHost hhost
  have hencoded : userInfoSet.Encoded a.user ∧ ∀ s ∈ a.password, userInfoSet.Encoded s := by
    cases user? with
    | none =>
      obtain ⟨hname, hpassword⟩ := Prod.mk.inj huser
      rw [← hname, ← hpassword]
      exact ⟨by decide, fun _ h => nomatch h⟩
    | some cs =>
      have hread := encoded_readUser cs
      rw [show readUser cs = (a.user, a.password) from huser] at hread
      exact hread
  exact ⟨hencoded.1, hencoded.2, hin, hne⟩

theorem append_splitHost (inBrackets : Bool) (cs : List Char) :
    (splitHost inBrackets cs).1 ++ (splitHost inBrackets cs).2 = cs ∧
      ((splitHost inBrackets cs).2 = [] ∨ ∃ rest, (splitHost inBrackets cs).2 = ':' :: rest) := by
  induction cs generalizing inBrackets with
  | nil => exact ⟨rfl, .inl rfl⟩
  | cons c cs ih =>
    rw [splitHost]
    split_ifs with hcolon
    · exact ⟨rfl, .inr ⟨cs, by rw [hcolon.1]⟩⟩
    all_goals
      obtain ⟨happend, hbehind⟩ := ih _
      exact ⟨congrArg (c :: ·) happend, hbehind⟩

theorem mem_of_mem_splitUser {cs place : List Char} {user? : Option (List Char)}
    (h : splitUser cs = (user?, place)) : ∀ c ∈ place, c ∈ cs := by
  unfold splitUser at h
  split_ifs at h
  · cases h
    intro c hc
    exact List.mem_reverse.1 ((List.takeWhile_prefix _).subset (List.mem_reverse.1 hc))
  · cases h
    exact fun c hc => hc

/-- A port ends at a slash or with the text. -/
theorem rest_eq_nil_of_readPort {scheme : String} {digits rest : List Char} {port : Option Nat}
    (h : readPort scheme digits = .ok (port, rest))
    (hslash : ∀ c ∈ digits, isSlash .special c = false) : rest = [] := by
  unfold readPort at h
  extract_lets taken left number at h
  split at h
  · cases h
  · split at h
    · cases h
    · rename_i hleft
      obtain rfl : left = rest := (Prod.mk.inj (Except.ok.inj h)).2
      cases hcons : left with
      | nil => rfl
      | cons c cs =>
        have hc : c ∈ left := hcons ▸ List.mem_cons_self
        have hc := hslash c ((List.dropWhile_suffix _).subset hc)
        rw [hcons, List.head?_cons, Option.any_some] at hleft
        simp only [isSlash, SchemeKind.isSpecial, Bool.or_eq_false_iff, decide_eq_false_iff_not] at hc
        simp [hc.1] at hleft
        simp [hleft] at hc

/-- Nothing is left of a text without slashes. -/
theorem rest_eq_nil_of_readMachine [DomainReader] {scheme : String} {hasMore : Bool}
    {text rest : List Char}
    {a : Authority} (h : readMachine scheme hasMore text = .ok (a, rest))
    (hslash : ∀ c ∈ text, isSlash .special c = false) : rest = [] := by
  obtain ⟨user?, place, hostText, behind, huser, -, hsplit, -, hport⟩ := readMachine_eq_ok h
  obtain ⟨happend, hbehind⟩ := append_splitHost false place
  rw [hsplit] at happend hbehind
  have hmem : ∀ c ∈ behind, isSlash .special c = false := fun c hc =>
    hslash c (mem_of_mem_splitUser huser c (happend ▸ List.mem_append_right hostText hc))
  rcases hbehind with rfl | ⟨digits, rfl⟩
  · exact (Prod.mk.inj (Except.ok.inj hport)).2.symm
  · exact rest_eq_nil_of_readPort hport fun c hc => hmem c (List.mem_cons_of_mem _ hc)

/-- **An address of a service is tidy when it has been read.** -/
theorem tidy_of_read [DomainReader] {s : String} {u : Url} (h : read s = .ok u)
    (hscheme : u.scheme = "http" ∨ u.scheme = "https") : u.Tidy := by
  unfold read at h
  split at h
  · cases h
  · rename_i scheme cs _
    unfold readRest at h
    cases hfragment : cutAt '#' cs with | mk before fragment
    rw [hfragment] at h
    dsimp only at h
    cases hquery : cutAt '?' before with | mk place query
    rw [hquery] at h
    obtain ⟨⟨authority, path⟩, hplace, h⟩ := Outcome.bind_eq_ok.1 h
    cases h
    have hkind := kind_of_scheme hscheme
    unfold readPlace at hplace
    rw [hkind] at hplace
    obtain ⟨⟨a, path'⟩, hauthority, hplace⟩ := Outcome.bind_eq_ok.1 hplace
    cases hplace
    rw [readAuthority_eq hkind] at hauthority
    obtain ⟨⟨a', rest⟩, hmachine, ha⟩ := Outcome.map_eq_ok.1 hauthority
    cases ha
    refine ⟨hscheme, ⟨a', rfl, tidy_of_readMachine hmachine⟩, exists_readPath_eq _, fun q hq => ?_,
      fun f hf => ?_⟩
    · obtain ⟨_, -, rfl⟩ := Option.map_eq_some_iff.1 hq
      rw [hkind]
      exact encoded_encodeChars keepsEscapes_specialQuerySet _
    · obtain ⟨_, -, rfl⟩ := Option.map_eq_some_iff.1 hf
      exact encoded_encodeChars keepsEscapes_fragmentSet _

/-! ## The parts of a text -/

/-- The parts of a text that is an address, as they are told apart by their marks. -/
structure Parts where
  scheme : List Char
  authority : List Char
  path : List Char
  query : Option (List Char)
  fragment : Option (List Char)

/-- The fragment stands behind the first `#`, and the query behind the first `?` before that. The scheme
ends at the first colon, and the authority behind the slashes ends at the next one. -/
def partsOf (cs : List Char) : Parts :=
  let (cs, fragment) := cutAt '#' cs
  let (cs, query) := cutAt '?' cs
  let (scheme, rest) := cutAt ':' cs
  let place := (rest.getD []).dropWhile (isSlash .special)
  ⟨scheme, place.takeWhile (!isSlash .special ·), place.dropWhile (!isSlash .special ·), query, fragment⟩

/-- A part behind its mark, if it is there. -/
def marked (mark : Char) (part : Option String) : List Char := part.elim [] (mark :: ·.toList)

section Cut

variable {mark : Char} {cs : List Char} (h : mark ∉ cs)

include h

theorem cutAt_eq (rest : List Char) :
    cutAt mark (cs ++ rest) = (cs ++ rest.takeWhile (· != mark), (rest.dropWhile (· != mark)).tail?) := by
  have hall : ∀ c ∈ cs, (c != mark) = true := fun c hc => bne_iff_ne.2 fun he => h (he ▸ hc)
  unfold cutAt
  rw [List.takeWhile_append_of_pos hall, List.dropWhile_append_of_pos hall]

theorem cutAt_append (rest : List Char) : cutAt mark (cs ++ mark :: rest) = (cs, some rest) := by
  simp [cutAt_eq h]

theorem cutAt_marked (part : Option String) :
    cutAt mark (cs ++ marked mark part) = (cs, part.map String.toList) := by
  rw [cutAt_eq h]
  cases part <;> simp [marked]

end Cut

/-- What stands before the query. -/
def writeHead (u : Url) (a : Authority) : List Char :=
  u.scheme.toList ++ ':' :: '/' :: '/' :: (a.write.toList ++ u.path.write.toList)

theorem toList_write {u : Url} {a : Authority} (ha : u.authority = some a) :
    u.write.toList = u.writeHead a ++ marked '?' u.query ++ marked '#' u.fragment := by
  have hmarked (mark : String) (c : Char) (hc : mark.toList = [c]) (part : Option String) :
      (part.elim "" (mark ++ ·)).toList = marked c part := by
    cases part <;> simp [marked, hc]
  have hslashes : ("//" : String).toList = ['/', '/'] := by decide
  have hcolon : (":" : String).toList = [':'] := by decide
  rw [write, writeTarget, ha, Option.elim_some]
  simp only [String.toList_append, hmarked "?" '?' (by decide), hmarked "#" '#' (by decide), hslashes,
    hcolon, writeHead, List.append_assoc, List.cons_append, List.nil_append]

/-- A character that can be seen. -/
def isVisible (c : Char) : Bool := 0x20 < c.toNat

theorem encoded_write {parts : List String} (h : ∀ p ∈ parts, Path.Settled p) :
    pathSet.Encoded (Path.segments parts).write := by
  intro c hc
  rw [Path.toList_write, List.mem_flatMap] at hc
  obtain ⟨p, hp, hc⟩ := hc
  rcases List.mem_cons.1 hc with rfl | hc
  · decide
  · exact (h p hp).encoded c hc

theorem map_encodeChars {set : EncodeSet} {part : Option String} (h : ∀ s ∈ part, set.Encoded s) :
    (part.map String.toList).map (encodeChars set) = part := by
  cases part with
  | none => rfl
  | some s => exact congrArg some (encodeChars_eq (h s rfl))

namespace Tidy

variable {u : Url} {a : Authority} (h : u.Tidy) (ha : u.authority = some a)

include h

theorem encoded_path : pathSet.Encoded u.path.write := by
  obtain ⟨parts, hpath, -, hparts⟩ := h.path
  rw [hpath]
  exact encoded_write hparts

theorem exists_path : ∃ rest, u.path.write.toList = '/' :: rest := by
  obtain ⟨parts, hpath, hne, -⟩ := h.path
  obtain ⟨p, parts, rfl⟩ := List.exists_cons_of_ne_nil hne
  exact ⟨_, by rw [hpath, Path.toList_write, List.flatMap_cons, List.cons_append]⟩

theorem readPath_write : readPath .special u.path.write.toList = u.path := by
  obtain ⟨parts, hpath, hne, hparts⟩ := h.path
  rw [hpath]
  exact Url.readPath_write hne hparts

include ha

theorem tidy_authority : a.Tidy := by
  obtain ⟨a', ha', htidy⟩ := h.authority
  rw [ha] at ha'
  exact Option.some.inj ha' ▸ htidy

/-- A mark that parts an address further on does not stand before the query. -/
theorem not_mem_writeHead {c : Char} (hc : c = '?' ∨ c = '#') : c ∉ u.writeHead a := by
  have hscheme : c ∉ u.scheme.toList := by
    rcases h.scheme with hs | hs <;> rcases hc with rfl | rfl <;> rw [hs] <;> decide
  have hauthority : c ∉ a.write.toList :=
    (h.tidy_authority ha).consists_write.not_mem (by rcases hc with rfl | rfl <;> decide)
  have hpath : c ∉ u.path.write.toList :=
    h.encoded_path.not_mem (by rcases hc with rfl | rfl <;> decide)
  have hmarks : c ≠ ':' ∧ c ≠ '/' := by rcases hc with rfl | rfl <;> decide
  simp [writeHead, hscheme, hauthority, hpath, hmarks]

theorem isVisible_write : Consists isVisible u.write := by
  intro c hc
  have hmarked (mark : Char) (hmark : isVisible mark = true) {part : Option String}
      (hpart : ∀ s ∈ part, Consists isVisible s) (hc : c ∈ marked mark part) : isVisible c = true := by
    cases part with
    | none => exact absurd hc List.not_mem_nil
    | some s =>
      rcases List.mem_cons.1 hc with rfl | hc
      · exact hmark
      · exact hpart s rfl c hc
  have hscheme : Consists isVisible u.scheme := by
    rcases h.scheme with hs | hs <;> rw [hs] <;> decide
  have hauthority : Consists isVisible a.write := (h.tidy_authority ha).consists_write.mono fun c hc => by
    rw [isAuthorityChar, Bool.and_eq_true] at hc
    exact hc.1
  have hpath : Consists isVisible u.path.write :=
    h.encoded_path.mono fun c hc => EncodeSet.of_keeps (by decide +kernel) hc
  have hquery : ∀ q ∈ u.query, Consists isVisible q := fun q hq =>
    (h.query q hq).mono fun c hc => EncodeSet.of_keeps (by decide +kernel) hc
  have hfragment : ∀ f ∈ u.fragment, Consists isVisible f := fun f hf =>
    (h.fragment f hf).mono fun c hc => EncodeSet.of_keeps (by decide +kernel) hc
  rw [toList_write ha, writeHead] at hc
  simp only [List.mem_append, List.mem_cons] at hc
  rcases hc with ((hc | rfl | rfl | rfl | hc | hc) | hc) | hc
  · exact hscheme c hc
  · decide
  · decide
  · decide
  · exact hauthority c hc
  · exact hpath c hc
  · exact hmarked '?' (by decide) hquery hc
  · exact hmarked '#' (by decide) hfragment hc

theorem isSlash_eq_false : ∀ c ∈ a.write.toList, isSlash .special c = false := by
  intro c hc
  have hslash : c ∉ "/\\?#".toList := by
    have hchar := (h.tidy_authority ha).consists_write c hc
    rw [isAuthorityChar, Bool.and_eq_true, Bool.not_eq_true', List.contains_eq_mem,
      decide_eq_false_iff_not] at hchar
    exact hchar.2
  have hne : c ≠ '/' ∧ c ≠ '\\' := by
    refine ⟨?_, ?_⟩ <;> rintro rfl <;> exact hslash (by decide)
  simp [isSlash, SchemeKind.isSpecial, hne]

/-- The authority stands behind two slashes and ends at the next one. -/
theorem split_place :
    let place := ('/' :: '/' :: (a.write.toList ++ u.path.write.toList)).dropWhile (isSlash .special)
    place.takeWhile (!isSlash .special ·) = a.write.toList ∧
      place.dropWhile (!isSlash .special ·) = u.path.write.toList := by
  have hslash := h.isSlash_eq_false ha
  have hall : ∀ c ∈ a.write.toList, (!isSlash .special c) = true := fun c hc => by simp [hslash c hc]
  have hplace : ('/' :: '/' :: (a.write.toList ++ u.path.write.toList)).dropWhile (isSlash .special)
      = a.write.toList ++ u.path.write.toList := by
    obtain ⟨c, cs, hcons⟩ := List.exists_cons_of_ne_nil fun hnil =>
      (h.tidy_authority ha).write_ne_empty (String.toList_eq_nil_iff.1 hnil)
    have hc := hslash c (hcons ▸ List.mem_cons_self)
    rw [List.dropWhile_cons_of_pos (by decide), List.dropWhile_cons_of_pos (by decide), hcons,
      List.cons_append, List.dropWhile_cons_of_neg (by simp [hc])]
  obtain ⟨rest, hpath⟩ := h.exists_path
  intro place
  have hplace : place = a.write.toList ++ u.path.write.toList := hplace
  have hfirst : isSlash .special '/' = true := by decide
  rw [hplace, List.takeWhile_append_of_pos hall, List.dropWhile_append_of_pos hall, hpath,
    List.takeWhile_cons_of_neg (by simp [hfirst]), List.dropWhile_cons_of_neg (by simp [hfirst]),
    List.append_nil]
  exact ⟨rfl, rfl⟩

omit ha in
theorem cut_fragment {head : List Char} (hhead : '#' ∉ head) :
    cutAt '#' (head ++ marked '?' u.query ++ marked '#' u.fragment)
      = (head ++ marked '?' u.query, u.fragment.map String.toList) := by
  refine cutAt_marked (fun hc => ?_) _
  rcases List.mem_append.1 hc with hc | hc
  · exact hhead hc
  · cases hquery : u.query with
    | none =>
      rw [hquery] at hc
      exact absurd hc List.not_mem_nil
    | some q =>
      rw [hquery] at hc
      rcases List.mem_cons.1 hc with hc | hc
      · exact absurd hc (by decide)
      · exact (h.query q hquery).not_mem (by decide) hc

/-- **The parts of an address are found again in its text.** -/
theorem partsOf_write : partsOf u.write.toList = ⟨u.scheme.toList, a.write.toList, u.path.write.toList,
    u.query.map String.toList, u.fragment.map String.toList⟩ := by
  have hcolon : ':' ∉ u.scheme.toList := by
    rcases h.scheme with hs | hs <;> rw [hs] <;> decide
  obtain ⟨hauthority, hpath⟩ := h.split_place ha
  unfold partsOf
  rw [toList_write ha, h.cut_fragment (h.not_mem_writeHead ha (.inr rfl))]
  dsimp only
  rw [cutAt_marked (h.not_mem_writeHead ha (.inl rfl))]
  dsimp only
  rw [writeHead, cutAt_append hcolon]
  dsimp only [Option.getD_some]
  rw [hauthority, hpath]

/-- What is cleaned away does not stand in a written address. -/
theorem clean_write : clean u.write = u.write.toList := by
  have hvisible := h.isVisible_write ha
  have hedge {cs : List Char} (hcs : ∀ c ∈ cs, isVisible c = true) :
      cs.dropWhile (fun c => decide (c.toNat ≤ 0x20)) = cs := by
    cases cs with
    | nil => rfl
    | cons c cs =>
      have hc := hcs c List.mem_cons_self
      rw [isVisible, decide_eq_true_eq] at hc
      exact List.dropWhile_cons_of_neg (by simpa using hc)
  have hbreak : ∀ c ∈ u.write.toList, (!Path.isBreak c) = true := fun c hc => by
    have hc := hvisible c hc
    rw [Bool.not_eq_true']
    refine Bool.eq_false_iff.2 fun hbreak => ?_
    simp only [Path.isBreak, Bool.or_eq_true, decide_eq_true_eq] at hbreak
    rcases hbreak with (rfl | rfl) | rfl <;> exact absurd hc (by decide)
  unfold clean
  dsimp only
  rw [hedge hvisible, hedge fun c hc => hvisible c (List.mem_reverse.1 hc), List.reverse_reverse,
    List.filter_eq_self.2 hbreak]

/-- The place is read off the text of the authority and the path, whatever follows. -/
theorem readPlace_write [DomainReader] (hasMore : Bool) :
    readPlace u.scheme hasMore ('/' :: '/' :: (a.write.toList ++ u.path.write.toList))
      = (readMachine u.scheme true a.write.toList).map fun r => (some r.1, u.path) := by
  have hkind := kind_of_scheme h.scheme
  obtain ⟨hauthority, hpath⟩ := h.split_place ha
  obtain ⟨rest, hslash⟩ := h.exists_path
  unfold readPlace
  rw [hkind]
  dsimp only
  rw [readAuthority_eq hkind, hauthority, hpath, show (!u.path.write.toList.isEmpty) = true by rw [hslash]; rfl,
    Bool.or_true]
  cases hread : readMachine u.scheme true a.write.toList with
  | error e => rfl
  | ok r =>
    have hrest : r.2 = [] := rest_eq_nil_of_readMachine hread (h.isSlash_eq_false ha)
    show Except.ok (some r.1, readPath .special (r.2 ++ u.path.write.toList)) = _
    rw [hrest, List.nil_append, h.readPath_write]
    rfl

/-- What is encoded in an address is read as it is. -/
theorem readRest_write [DomainReader] :
    readRest u.scheme ('/' :: '/' :: (a.write.toList ++ u.path.write.toList) ++ marked '?' u.query
        ++ marked '#' u.fragment)
      = (readMachine u.scheme true a.write.toList).map fun r => { u with authority := some r.1 } := by
  have hmem {c : Char} (hc : c = '?' ∨ c = '#') : c ∉ '/' :: '/' :: (a.write.toList ++ u.path.write.toList) :=
    fun hmem => h.not_mem_writeHead ha hc (List.mem_append_right _ (List.mem_cons_of_mem _ hmem))
  unfold readRest
  rw [h.cut_fragment (hmem (.inr rfl))]
  dsimp only
  rw [cutAt_marked (hmem (.inl rfl))]
  dsimp only
  rw [h.readPlace_write ha, kind_of_scheme h.scheme, map_encodeChars h.fragment,
    show queryEncoding .special = specialQuerySet from rfl, map_encodeChars h.query]
  cases readMachine u.scheme true a.write.toList <;> rfl

/-- **Reading a written address gives the address**, up to what is made of the text of its
authority. -/
theorem read_write [DomainReader] : read u.write =
    (readMachine u.scheme true a.write.toList).map fun r =>
    { u with authority := some r.1 } := by
  have hscheme (rest : List Char) : splitScheme? (u.scheme.toList ++ ':' :: rest) = some (u.scheme, rest) := by
    rcases h.scheme with hs | hs <;> rw [hs] <;> rfl
  have htext : u.write.toList = u.scheme.toList ++ ':' ::
      ('/' :: '/' :: (a.write.toList ++ u.path.write.toList) ++ marked '?' u.query ++ marked '#' u.fragment) := by
    simp only [toList_write ha, writeHead, List.append_assoc, List.cons_append]
  unfold read
  rw [h.clean_write ha, htext, hscheme]
  exact h.readRest_write ha

end Tidy

end Url

end DataClient.Web
