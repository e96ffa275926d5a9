import DataClient.Exchange.Remote
import DataClient.Proofs.Outcome
import DataClient.Proofs.Text.Parts
import DataClient.Proofs.Web.Path
import DataClient.Resource.Service

/-!
# The path of a request

The path of a request is written behind that of the base address. No segment of either has a slash
in it, so the segments can be read off the written path again (`Path.write_inj`), and what is known of
the list of segments is known of the text. A segment can be lost or altered on the way
(`Remote.arrives_iff`): a name of two dots asks for the path without a name, and a name with a tab for
the name without it.
-/

set_option autoImplicit false

namespace DataClient

namespace Web

/-! ## Segments without slashes -/

namespace Path

/-- No segment of the path has a slash in it. -/
def IsSlashFree : Path → Prop
  | .plain _ => True
  | .segments parts => ∀ p ∈ parts, '/' ∉ p.toList

theorem toList_write (parts : List String) :
    (write (.segments parts)).toList = parts.flatMap fun p => '/' :: p.toList := by
  rw [write, String.toList_join, List.flatMap_map]
  exact congrArg (List.flatMap · parts) (funext fun p => String.toList_append)

theorem write_append (ps qs : List String) :
    write (.segments (ps ++ qs)) = write (.segments ps) ++ write (.segments qs) := by
  rw [← String.toList_inj, String.toList_append, toList_write, toList_write, toList_write,
    List.flatMap_append]

/-- Splitting a written path gives its segments, behind what stands before the first slash. -/
theorem splitChars_write {parts : List String} (h : IsSlashFree (.segments parts)) :
    Text.splitChars '/' (write (.segments parts)).toList = [] :: parts.map String.toList := by
  rw [toList_write]
  induction parts with
  | nil => rfl
  | cons p parts ih =>
    obtain ⟨hp, hparts⟩ := List.forall_mem_cons.1 h
    rw [List.flatMap_cons, List.cons_append, Text.splitChars_sep,
      Text.splitChars_append hp (ih hparts), List.append_nil, List.map_cons]

theorem write_inj {ps qs : List String} (hps : IsSlashFree (.segments ps))
    (hqs : IsSlashFree (.segments qs)) :
    write (.segments ps) = write (.segments qs) ↔ ps = qs := by
  refine ⟨fun h => ?_, fun h => by rw [h]⟩
  have hsplit := splitChars_write hps
  rw [h, splitChars_write hqs] at hsplit
  exact (List.map_inj_right fun _ _ => String.toList_inj.1).1 (List.cons.inj hsplit).2.symm

/-- Only the path of two empty segments is written as two slashes. -/
theorem write_ne_iff {parts : List String} (h : IsSlashFree (.segments parts)) :
    write (.segments parts) ≠ "//" ↔ parts ≠ ["", ""] := by
  have htwo : write (.segments ["", ""]) = "//" := rfl
  have hempty : IsSlashFree (.segments ["", ""]) := by
    show ∀ p ∈ ["", ""], '/' ∉ p.toList
    decide
  rw [← htwo, ne_eq, write_inj h hempty]

/-- A text without the slash at its end. -/
def withoutSlash (s : String) : String :=
  String.ofList (if s.toList.getLast? = some '/' then s.toList.dropLast else s.toList)

theorem withoutSlash_write {parts : List String} (h : IsSlashFree (.segments parts)) :
    withoutSlash (write (.segments parts)) = write (.segments (beforeSlash parts)) := by
  rw [← String.toList_inj, withoutSlash, String.toList_ofList, toList_write, toList_write,
    beforeSlash]
  rcases List.eq_nil_or_concat parts with rfl | ⟨init, p, rfl⟩
  · rfl
  rw [List.concat_eq_append] at h ⊢
  rw [List.getLast?_concat, List.flatMap_append, List.flatMap_singleton]
  by_cases hp : p = ""
  · subst hp
    rw [String.toList_empty, List.getLast?_concat, if_pos rfl, if_pos rfl, List.dropLast_concat,
      List.dropLast_concat]
  · -- The last character is that of a segment, and no slash.
    have hlast : (init.flatMap (fun q => '/' :: q.toList) ++ '/' :: p.toList).getLast? ≠ some '/' := by
      obtain ⟨cs, c, hcs⟩ := (List.eq_nil_or_concat p.toList).resolve_left
        fun h => hp (String.toList_eq_nil_iff.1 h)
      rw [List.concat_eq_append] at hcs
      have hc : c ≠ '/' := by
        rintro rfl
        refine h p (List.mem_append_right _ (List.mem_singleton_self p)) ?_
        rw [hcs]
        exact List.mem_append_right _ (List.mem_singleton_self '/')
      rw [hcs, ← List.cons_append, ← List.append_assoc, List.getLast?_concat]
      exact fun he => hc (Option.some.inj he)
    rw [if_neg hlast, if_neg fun he => hp (Option.some.inj he), List.flatMap_append,
      List.flatMap_singleton]

/-! ## Paths that are read -/

theorem mem_climb {parts : List String} {p : String} (h : p ∈ climb parts) : p ∈ parts := by
  unfold climb at h
  split_ifs at h
  · exact h
  · exact List.dropLast_subset _ h

theorem mem_enter {parts : List String} {isLast : Bool} {s p : String}
    (h : p ∈ enter parts isLast s) : p ∈ parts ∨ p = "" ∨ p = s := by
  unfold enter at h
  extract_lets rest at h
  have hrest (hp : p ∈ rest) : p = "" := by
    unfold rest at hp
    split_ifs at hp
    · exact List.mem_singleton.1 hp
    · exact absurd hp List.not_mem_nil
  split_ifs at h
  · exact (List.mem_append.1 h).imp mem_climb fun h => .inl (hrest h)
  · exact (List.mem_append.1 h).imp_right fun h => .inl (hrest h)
  · exact (List.mem_append.1 h).imp_right fun h => .inr (List.mem_singleton.1 h)

theorem mem_follow {parts segments : List String} {p : String} (h : p ∈ follow parts segments) :
    p ∈ parts ∨ p = "" ∨ p ∈ segments := by
  induction parts, segments using follow.induct with
  | case1 parts => exact .inl h
  | case2 parts s => exact (mem_enter h).imp_right fun h => h.imp_right List.mem_singleton.2
  | case3 parts s rest hrest ih =>
    rw [follow] at h
    · rcases ih h with h | h | h
      · exact (mem_enter h).imp_right fun h => h.imp_right fun he => by simp [he]
      · exact .inr (.inl h)
      · exact .inr (.inr (List.mem_cons_of_mem s h))
    · exact hrest

end Path

namespace Url

theorem isSlashFree_readPath (kind : SchemeKind) (cs : List Char) : Path.IsSlashFree (readPath kind cs) := by
  have hfollow (cs : List Char) : Path.IsSlashFree (.segments (followText kind [] cs)) := by
    intro p hp
    rcases Path.mem_follow hp with h | rfl | h
    · exact absurd h List.not_mem_nil
    · exact List.not_mem_nil
    · obtain ⟨part, hpart, rfl⟩ := List.mem_map.1 h
      intro hslash
      have hmem := (slash_mem_of_percentEncode (fun _ => lt_of_pathSet) hslash).1
      rw [String.toList_ofList] at hmem
      exact Text.sep_not_mem_splitChars _ part hpart hmem
  match cs with
  | [] =>
    intro p hp
    split_ifs at hp
    · rw [List.mem_singleton.1 hp]
      exact List.not_mem_nil
    · exact absurd hp List.not_mem_nil
  | c :: rest => exact hfollow _

/-- What is read, an authority and a path, has a path without slashes in its segments. -/
def ReadsSlashFree {α : Type} (x : Except UrlFault (α × Path)) : Prop :=
  ∀ r, x = .ok r → Path.IsSlashFree r.2

section Steps

variable {α β : Type}

theorem readsSlashFree_bind {x : Except UrlFault β} {f : β → Except UrlFault (α × Path)}
    (h : ∀ b, x = .ok b → ReadsSlashFree (f b)) : ReadsSlashFree (x >>= f) := by
  intro r hr
  obtain ⟨b, hb, hf⟩ := Outcome.bind_eq_ok.1 hr
  exact h b hb r hf

theorem readsSlashFree_pure (a : α) {path : Path} (h : Path.IsSlashFree path) :
    ReadsSlashFree (pure (a, path)) := by
  intro r hr
  cases hr
  exact h

theorem readsSlashFree_check {c : Prop} [Decidable c] {e : UrlFault}
    {f : PUnit → Except UrlFault (α × Path)} (h : ReadsSlashFree (f ⟨⟩)) :
    ReadsSlashFree (if c then throw e >>= f else f ⟨⟩) := by
  intro r hr
  exact h r (Outcome.check_eq_ok.1 hr).2

end Steps

theorem readsSlashFree_readAuthority [DomainReader] (scheme : String) (hasMore : Bool)
    (cs : List Char) :
    ReadsSlashFree (readAuthority scheme hasMore cs) := by
  -- The checks may stop the reading, but every way to its end leads through `readPath`.
  unfold readAuthority
  extract_lets kind text pathText
  split
  refine readsSlashFree_check ?_
  dsimp -zeta only
  refine readsSlashFree_check ?_
  extract_lets onHost
  have hhost (host : Host) : ReadsSlashFree (onHost host) := by
    refine readsSlashFree_check ?_
    extract_lets onPort
    have hport (port : Option Nat × List Char) : ReadsSlashFree (onPort port) :=
      readsSlashFree_pure _ (isSlashFree_readPath kind _)
    split
    · exact readsSlashFree_bind fun port _ => hport port
    · exact readsSlashFree_bind fun port _ => hport port
  split_ifs
  · exact readsSlashFree_bind fun host _ => hhost host
  · exact readsSlashFree_bind fun host _ => hhost host

theorem readsSlashFree_readFile [DomainReader] (cs : List Char) : ReadsSlashFree (readFile cs) := by
  unfold readFile
  extract_lets here
  have hpath (a : Authority) (cs : List Char) : ReadsSlashFree (pure (a, readPath .file cs)) :=
    readsSlashFree_pure a (isSlashFree_readPath .file cs)
  split
  · split_ifs
    · extract_lets name pathText
      split_ifs
      · exact hpath _ _
      · exact hpath _ _
      · exact readsSlashFree_bind fun host _ => hpath _ _
    · exact hpath _ _
  · exact hpath _ _

theorem readsSlashFree_readPlace [DomainReader] (scheme : String) (hasMore : Bool)
    (cs : List Char) :
    ReadsSlashFree (readPlace scheme hasMore cs) := by
  unfold readPlace
  split
  · refine readsSlashFree_bind fun (authority, path) h => ?_
    exact readsSlashFree_pure _ (readsSlashFree_readAuthority _ _ _ _ h)
  · refine readsSlashFree_bind fun (authority, path) h => ?_
    exact readsSlashFree_pure _ (readsSlashFree_readFile _ _ h)
  · split
    · refine readsSlashFree_bind fun (authority, path) h => ?_
      exact readsSlashFree_pure _ (readsSlashFree_readAuthority _ _ _ _ h)
    · exact readsSlashFree_pure _ (isSlashFree_readPath _ _)
    · exact readsSlashFree_pure _ trivial

theorem isSlashFree_read [DomainReader] {s : String} {url : Url} (h : read s = .ok url) :
    Path.IsSlashFree url.path := by
  unfold read at h
  split at h
  · exact nomatch h
  · unfold readRest at h
    obtain ⟨⟨authority, path⟩, hplace, h⟩ := Outcome.bind_eq_ok.1 h
    cases h
    exact readsSlashFree_readPlace _ _ _ _ hplace

end Url

end Web

namespace Web.Url

/-- An address does not get longer without its user. -/
theorem length_write_withoutCredentials_le (url : Url) :
    url.withoutCredentials.write.length ≤ url.write.length := by
  have htarget : url.withoutCredentials.writeTarget = url.writeTarget := rfl
  unfold write
  rw [htarget]
  unfold withoutCredentials
  cases url.authority with
  | none => exact Nat.le_refl _
  | some a =>
    have huser : Authority.writeUser { a with user := "", password := none } = "" := rfl
    have hplace : Authority.writePlace { a with user := "", password := none } = a.writePlace := rfl
    simp only [Option.map_some, Option.elim_some, Authority.write, huser, hplace, String.length_append]
    exact Nat.add_le_add_right (by simp) _

theorem isSendable_withoutCredentials {url : Url} (h : url.isSendable = true) :
    url.withoutCredentials.isSendable = true := by
  obtain ⟨hlength, hhost⟩ := Bool.and_eq_true_iff.1 h
  refine Bool.and_eq_true_iff.2 ⟨?_, ?_⟩
  · exact decide_eq_true (Nat.le_trans url.length_write_withoutCredentials_le (of_decide_eq_true hlength))
  · unfold withoutCredentials
    cases hauthority : url.authority with
    | none => rfl
    | some a =>
      rw [hauthority] at hhost
      exact hhost

end Web.Url

/-! ## Requests to a service -/

open Web (Path)
open Web.Path (IsSlashFree Intact)

/-- What settings have to be given a base address. -/
theorem ServerSettings.validate_eq_ok [Web.DomainReader] {settings : ServerSettings}
    {base : Web.Url}
    (h : settings.validate = .ok base) :
    Web.Url.read settings.baseUrl = .ok base ∧ (base.scheme = "http" ∨ base.scheme = "https") ∧
      base.isHierarchical = true := by
  unfold validate at h
  obtain ⟨url, hread, h⟩ := Outcome.bind_eq_ok.1 h
  obtain ⟨hscheme, h⟩ := Outcome.check_eq_ok.1 h
  obtain ⟨hplain, h⟩ := Outcome.check_eq_ok.1 h
  obtain ⟨-, h⟩ := Outcome.check_eq_ok.1 h
  obtain rfl : url = base := Except.ok.inj h
  exact ⟨Outcome.mapError_eq_ok.1 hread, Decidable.or_iff_not_not_and_not.2 hscheme, by simpa using hplain⟩

theorem ServerSettings.exists_path [Web.DomainReader] {settings : ServerSettings} {base : Web.Url}
    (h : settings.validate = .ok base) :
    ∃ parts, base.path = .segments parts ∧ IsSlashFree (.segments parts) := by
  obtain ⟨hread, -, hpath⟩ := validate_eq_ok h
  have hfree := Web.Url.isSlashFree_read hread
  unfold Web.Url.isHierarchical at hpath
  cases hparts : base.path with
  | plain text =>
    rw [hparts] at hpath
    cases hpath
  | segments parts => exact ⟨parts, rfl, hparts ▸ hfree⟩

/-- The message conveys the request: it goes to its address, with or without the user, and has the verb
and the body of the request. -/
structure Outgoing.Conveys (m : Outgoing) (request : Request) (url : Web.Url) : Prop where
  target : m.target = url ∨ m.target = url.withoutCredentials
  method : m.method = request.method
  contentType : m.contentType = request.body.contentType?
  body : m.body = request.body.bytes

namespace Remote

/-- The segments of a request arrive: behind the path of the base address, less the slash at its
end, stands one component for each of them, and decodes to it. -/
def Arrives (base : Web.Url) (segments : List String) (url : Web.Url) : Prop :=
  ∃ comps : List String,
    url.path.write = Path.withoutSlash base.path.write ++ (Path.segments comps).write ∧
      (∀ p ∈ comps, '/' ∉ p.toList) ∧ comps.map Web.percentDecode = segments.map String.toUTF8

theorem exists_address {r : Remote} {parts : List String} (h : r.base.path = .segments parts)
    (request : Request) :
    ∃ url, r.address request = .ok url ∧
      url.path = .segments (Path.appendSegments parts request.segments) := by
  unfold address Web.Url.append?
  rw [h]
  exact ⟨_, rfl, rfl⟩

theorem outgoing_eq_ok {r : Remote} {request : Request} {m : Outgoing} (h : r.outgoing request = .ok m) :
    ∃ url, r.address request = .ok url ∧ m.Conveys request url := by
  unfold outgoing at h
  obtain ⟨url, haddress, h⟩ := Outcome.bind_eq_ok.1 h
  extract_lets credentials target at h
  obtain ⟨-, h⟩ := Outcome.check_eq_ok.1 h
  obtain ⟨-, h⟩ := Outcome.check_eq_ok.1 h
  cases h
  refine ⟨url, haddress, ?_, rfl, rfl, rfl⟩
  show target = url ∨ target = url.withoutCredentials
  unfold target
  split_ifs
  · exact .inr rfl
  · exact .inl rfl

/-- **A request has a message** if its address can be sent, and the media types that it accepts are the
value of a header. -/
theorem exists_outgoing {r : Remote} {request : Request} {url : Web.Url}
    (haddress : r.address request = .ok url) (hsendable : url.isSendable = true)
    (haccept : request.accept.all isHeaderValue = true) :
    ∃ m, r.outgoing request = .ok m ∧ m.Conveys request url := by
  suffices hm : ∃ m, r.outgoing request = .ok m by
    obtain ⟨m, hm⟩ := hm
    obtain ⟨url', haddress', hconveys⟩ := outgoing_eq_ok hm
    obtain rfl := Except.ok.inj (haddress.symm.trans haddress')
    exact ⟨m, hm, hconveys⟩
  have htarget : (if url.credentials?.isSome then url.withoutCredentials else url).isSendable = true := by
    split_ifs
    · exact Web.Url.isSendable_withoutCredentials hsendable
    · exact hsendable
  unfold outgoing
  exact ⟨_, Outcome.bind_eq_ok.2 ⟨url, haddress, Outcome.check_eq_ok.2 ⟨by simp [haccept],
    Outcome.check_eq_ok.2 ⟨by simp [htarget], rfl⟩⟩⟩⟩

/-- The path of a request with intact segments is written behind that of the base address. -/
theorem write_path_of_intact {r : Remote} {parts : List String} (hbase : r.base.path = .segments parts)
    (hfree : IsSlashFree (.segments parts)) (hroot : r.base.path.write ≠ "//") {request : Request} {t : String}
    {rest : List String} (hsegments : request.segments = t :: rest) (hne : t ≠ "")
    (hintact : ∀ s ∈ t :: rest, Intact s) {url : Web.Url} (haddress : r.address request = .ok url) :
    url.path.write = Path.withoutSlash r.base.path.write
      ++ (Path.segments ((t :: rest).map Web.Path.encodeSegment)).write := by
  obtain ⟨url', haddress', hurl⟩ := exists_address hbase request
  obtain rfl := Except.ok.inj (haddress.symm.trans haddress')
  obtain ⟨ht, hrest⟩ := List.forall_mem_cons.1 hintact
  rw [hbase, Path.write_ne_iff hfree] at hroot
  rw [hurl, hbase, hsegments, Path.appendSegments_of_intact ht hne parts hrest, Path.rootOf_eq hroot,
    Path.write_append, Path.withoutSlash_write hfree]

section Paths

variable {base url : Web.Url} {parts rest : List String} {t : String}
  (hbase : base.path = .segments parts) (hfree : IsSlashFree (.segments parts)) (ht : Intact t)
  (hne : t ≠ "") (hurl : url.path = .segments (Path.appendSegments parts (t :: rest)))
include hfree ht

theorem isSlashFree_appendSegments :
    IsSlashFree (.segments (Path.appendSegments parts (t :: rest))) := by
  intro p hp
  rcases Path.mem_appendSegments ht hp with h | rfl | ⟨s, -, rfl⟩
  · exact hfree p h
  · exact List.not_mem_nil
  · exact Path.slash_not_mem_encodeSegment s

include hbase hurl

theorem arrives_iff_appendSegments :
    Arrives base (t :: rest) url ↔
      ∃ comps, Path.appendSegments parts (t :: rest) = Path.beforeSlash parts ++ comps ∧
        comps.map Web.percentDecode = (t :: rest).map String.toUTF8 := by
  have hall : IsSlashFree (.segments (Path.appendSegments parts (t :: rest))) :=
    isSlashFree_appendSegments hfree ht
  have hbefore : IsSlashFree (.segments (Path.beforeSlash parts)) := by
    intro p hp
    unfold Path.beforeSlash at hp
    split_ifs at hp
    · exact hfree p (List.dropLast_subset _ hp)
    · exact hfree p hp
  -- No segment has a slash, so equality of what is written is equality of lists.
  unfold Arrives
  rw [hbase, hurl, Path.withoutSlash_write hfree]
  refine exists_congr fun comps => ?_
  rw [← Path.write_append]
  constructor
  · rintro ⟨heq, hcomps, hdecode⟩
    have hwhole : IsSlashFree (.segments (Path.beforeSlash parts ++ comps)) :=
      List.forall_mem_append.2 ⟨hbefore, hcomps⟩
    exact ⟨(Path.write_inj hall hwhole).1 heq, hdecode⟩
  · rintro ⟨heq, hdecode⟩
    rw [heq] at hall ⊢
    exact ⟨rfl, (List.forall_mem_append.1 hall).2, hdecode⟩

include hne in
theorem arrives_iff_intact :
    Arrives base (t :: rest) url ↔ base.path.write ≠ "//" ∧ ∀ s ∈ t :: rest, Intact s := by
  rw [arrives_iff_appendSegments hbase hfree ht hurl, Path.appendSegments_eq_iff ht hne, hbase,
    Path.write_ne_iff hfree, List.forall_mem_cons, and_iff_right ht]

end Paths

/-- **When the segments of a request arrive.** Behind any base address that settings can give, a
request of the interface has an address, and its segments arrive in it exactly if the path of the
base address is not of two slashes and every segment is intact. Requests whose segments are intact
have one path only if they have the same segments. -/
theorem arrives_iff [Web.DomainReader] {settings : ServerSettings} {r : Remote}
    (h : settings.validate = .ok r.base)
    {request : Request} (hapi : request.segments.head? = some "api") :
    ∃ url, r.address request = .ok url ∧
      (Arrives r.base request.segments url ↔
        r.base.path.write ≠ "//" ∧ ∀ s ∈ request.segments, Intact s) ∧
      ∀ other : Request, other.segments.head? = some "api" →
        (∀ s ∈ request.segments ++ other.segments, Intact s) →
        (r.address other).map (·.path.write) = .ok url.path.write →
        other.segments = request.segments := by
  obtain ⟨parts, hbase, hfree⟩ := ServerSettings.exists_path h
  have hintact : Intact "api" := by decide
  have hne : "api" ≠ "" := by decide
  obtain ⟨rest, hrest⟩ := List.head?_eq_some_iff.1 hapi
  obtain ⟨url, haddress, hurl⟩ := exists_address hbase request
  refine ⟨url, haddress, ?_, ?_⟩
  · rw [hrest] at hurl ⊢
    exact arrives_iff_intact hbase hfree hintact hne hurl
  · intro other hother hall hsame
    obtain ⟨rest', hrest'⟩ := List.head?_eq_some_iff.1 hother
    obtain ⟨url', haddress', hurl'⟩ := exists_address hbase other
    rw [haddress'] at hsame
    have hwrite : url'.path.write = url.path.write := Except.ok.inj hsame
    rw [hrest, hrest'] at hall ⊢
    rw [hrest] at hurl
    rw [hrest'] at hurl'
    obtain ⟨hall, hall'⟩ := List.forall_mem_append.1 hall
    rw [hurl, hurl', Path.write_inj (isSlashFree_appendSegments hfree hintact)
      (isSlashFree_appendSegments hfree hintact)] at hwrite
    exact Path.appendSegments_inj hintact hne parts hall' hall hwrite

section Samples

open scoped Web.Domain

/-- A service below a path that ends in a slash. -/
def sample : Remote :=
  ⟨⟨"http", some ⟨"", none, .domain "svc.test", none⟩, .segments ["base", ""], none, none⟩, 30⟩

theorem validate_sample : ServerSettings.validate ⟨"http://svc.test/base/", 30⟩ = .ok sample.base :=
  Outcome.toOption_eq_some.1 (by decide +kernel)

/-- A name with a blank and a slash arrives, and no other name is asked for at its path. -/
theorem arrives_blank_and_slash :
    ServerSettings.validate ⟨"http://svc.test/base/", 30⟩ = .ok sample.base ∧
      ∃ url, sample.address (Resource.tables.below .get ["byName", "a b/c"]) = .ok url ∧
        Arrives sample.base ["api", "tables", "byName", "a b/c"] url ∧
        (sample.address (Resource.tables.below .get ["byName", "a b", "c"])).map (·.path.write) ≠
          .ok url.path.write := by
  obtain ⟨url, haddress, harrives, hinj⟩ := @arrives_iff _ _ sample validate_sample
    (Resource.tables.below .get ["byName", "a b/c"]) rfl
  refine ⟨validate_sample, url, haddress, harrives.2 ⟨by decide, by decide⟩, fun h => ?_⟩
  exact absurd (hinj _ rfl (by decide) h) (by decide)

/-- A name with a tab does not arrive: the path is that of the name without the tab. -/
theorem not_arrives_tab :
    ServerSettings.validate ⟨"http://svc.test/base/", 30⟩ = .ok sample.base ∧
      ∃ url, sample.address (Resource.tables.below .get ["byName", "a\tb"]) = .ok url ∧
        url.path.write = "/base/api/tables/byName/ab" ∧
        ¬ Arrives sample.base ["api", "tables", "byName", "a\tb"] url ∧
        sample.address (Resource.tables.below .get ["byName", "ab"]) = .ok url := by
  have hpath : Path.appendSegments ["base", ""] ["api", "tables", "byName", "a\tb"] =
      Path.appendSegments ["base", ""] ["api", "tables", "byName", "ab"] := by decide +kernel
  have hfree : IsSlashFree (.segments ["base", ""]) := by
    show ∀ p ∈ ["base", ""], '/' ∉ p.toList
    decide
  obtain ⟨url, haddress, hurl⟩ := @exists_address sample ["base", ""] rfl
    (Resource.tables.below .get ["byName", "a\tb"])
  -- Both names are encoded to the same segment, so the addresses are the same in all their parts.
  have hsame : sample.address (Resource.tables.below .get ["byName", "ab"]) = .ok url := by
    rw [← haddress]
    unfold address Web.Url.append?
    exact congrArg (fun parts => Except.ok { sample.base with path := .segments parts }) hpath.symm
  refine ⟨validate_sample, url, haddress, ?_, fun harrives => ?_, hsame⟩
  · rw [hurl]
    decide +kernel
  · have hintact := (arrives_iff_intact rfl hfree (by decide) (by decide) hurl).1 harrives
    exact absurd (hintact.2 "a\tb" (by decide)) (by decide)

end Samples

end Remote

end DataClient
