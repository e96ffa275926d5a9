import DataClient.Proofs.Web.Written

/-!
# Where a request goes

The segments and the parameters of a request are free texts. They are encoded behind the path and the
query of the base address, and what they are encoded to has none of the marks that part an address
(`Url.Tidy.exists_append`). So the address of a request leads to the service of the base address, as it
is made and as anyone reads it off its text (`Remote.address_stays`).
-/

set_option autoImplicit false

namespace DataClient

namespace Web.Url

/-- An address with the scheme, the authority and the fragment of another one, and with a query that
begins with that of the other one. -/
structure Extends (url base : Url) : Prop where
  scheme : url.scheme = base.scheme
  authority : url.authority = base.authority
  fragment : url.fragment = base.fragment
  query : ∀ q ∈ base.query, ∃ tail, url.query = some (q ++ tail)

/-- Whatever is added to a tidy address, the address extends it and is tidy. -/
theorem Tidy.exists_append {base : Url} (h : base.Tidy) (segments : List String)
    (parameters : List (String × String)) :
    ∃ url, base.append? segments parameters = some url ∧ url.Extends base ∧ url.Tidy ∧
      (parameters = [] → url.query = base.query) := by
  obtain ⟨parts, hpath, hne, hparts⟩ := h.path
  obtain ⟨hne', hparts'⟩ := Path.settled_appendSegments hne hparts segments
  unfold append?
  rw [hpath]
  dsimp only
  cases parameters with
  | nil =>
    exact ⟨_, rfl, ⟨rfl, rfl, rfl, fun q hq => ⟨"", by rw [String.append_empty]; exact hq⟩⟩,
      ⟨h.scheme, h.authority, ⟨_, rfl, hne', hparts'⟩, h.query, h.fragment⟩, fun _ => rfl⟩
  | cons p ps =>
    obtain ⟨tail, htail, hencoded⟩ := exists_appendPairs_eq (base.query.getD "") (p :: ps)
    rw [htail]
    refine ⟨_, rfl, ⟨rfl, rfl, rfl, fun q hq => ⟨tail, ?_⟩⟩,
      ⟨h.scheme, h.authority, ⟨_, rfl, hne', hparts'⟩, fun q hq => ?_, h.fragment⟩, fun hnil => nomatch hnil⟩
    · rw [show base.query = some q from hq]
      rfl
    · have hbefore : specialQuerySet.Encoded (base.query.getD "") := by
        cases hquery : base.query with
        | none => decide
        | some before => exact h.query before hquery
      cases hq
      exact hbefore.append hencoded

namespace Extends

variable {base url : Url} (h : url.Extends base) (hbase : base.Tidy) (hurl : url.Tidy)

include h

theorem place_eq : url.place = base.place := by
  unfold place
  rw [h.authority, h.scheme]

include hbase hurl

/-- Taken apart as a text, the address differs in its path and its query only. -/
theorem partsOf_eq : partsOf url.write.toList = { partsOf base.write.toList with
    path := url.path.write.toList, query := url.query.map String.toList } := by
  obtain ⟨a, ha, -⟩ := hbase.authority
  rw [hurl.partsOf_write (h.authority.trans ha), hbase.partsOf_write ha, h.scheme, h.fragment]

/-- What is read off the text of the address is what is read off that of the other one, but for the path
and the query. -/
theorem read_eq [DomainReader] : read url.write = (read base.write).map fun u =>
    { u with path := url.path, query := url.query } := by
  obtain ⟨a, ha, -⟩ := hbase.authority
  rw [hurl.read_write (h.authority.trans ha), hbase.read_write ha, h.scheme]
  cases readMachine base.scheme true a.write.toList with
  | error e => rfl
  | ok r => simp [Except.map, h.fragment]

end Extends

end Web.Url

/-! ## Requests to a service -/

/-- Settings that can be used give a tidy address. -/
theorem ServerSettings.tidy_of_validate [Web.DomainReader] {settings : ServerSettings}
    {base : Web.Url}
    (h : settings.validate = .ok base) : base.Tidy := by
  obtain ⟨hread, hscheme, -⟩ := validate_eq_ok h
  exact Web.Url.tidy_of_read hread hscheme

namespace Remote

theorem place_withoutCredentials (url : Web.Url) : url.withoutCredentials.place = url.place := by
  unfold Web.Url.place Web.Url.withoutCredentials
  rw [Option.map_map]
  rfl

/-- **No request leads elsewhere.** Behind settings that can be used, every request has an address. It
has the scheme, the user, the host, the port and the fragment of the base address, and a query that
begins with that of the base address; the same holds of the parts of its text and of what is read off
this text. The message that is made of the request goes to the machine of the base address. -/
theorem address_stays [Web.DomainReader] {settings : ServerSettings} {r : Remote}
    (h : settings.validate = .ok r.base)
    (request : Request) :
    ∃ url, r.address request = .ok url ∧ url.Extends r.base ∧
      (request.parameters = [] → url.query = r.base.query) ∧
      Web.Url.partsOf url.write.toList = { Web.Url.partsOf r.base.write.toList with
        path := url.path.write.toList, query := url.query.map String.toList } ∧
      Web.Url.read url.write = (Web.Url.read r.base.write).map (fun u =>
        { u with path := url.path, query := url.query }) ∧
      ∀ message, r.outgoing request = .ok message →
        message.target.scheme = r.base.scheme ∧ message.target.place = r.base.place := by
  have hbase := ServerSettings.tidy_of_validate h
  obtain ⟨url, happend, hextends, htidy, hquery⟩ := hbase.exists_append request.segments request.parameters
  have haddress : r.address request = .ok url := by
    unfold address
    rw [happend]
  refine ⟨url, haddress, hextends, hquery, hextends.partsOf_eq hbase htidy, hextends.read_eq hbase htidy,
    fun message hmessage => ?_⟩
  obtain ⟨url', haddress', hconveys⟩ := outgoing_eq_ok hmessage
  obtain rfl : url = url' := Except.ok.inj (haddress.symm.trans haddress')
  rcases hconveys.target with htarget | htarget
  · rw [htarget]
    exact ⟨hextends.scheme, hextends.place_eq⟩
  · rw [htarget, place_withoutCredentials]
    exact ⟨hextends.scheme, hextends.place_eq⟩

/-- A service whose address has all parts. -/
def sampleWithUser : Remote :=
  ⟨⟨"http", some ⟨"ann", some "pw", .domain "svc.test", some 8080⟩, .segments ["base", ""], some "k=v",
    some "top"⟩, 30⟩

/-- A request with texts that look like another authority, a query and a fragment. -/
def misleading : Request :=
  (Request.of .get ["..", "//evil.test", "a@b:1", "?x#y", "\\"]).withParameter "&#" "@/"

section

open scoped Web.Domain

/-- Such texts stay in the path and the query, and the address is read off its text. -/
theorem address_stays_misleading :
    ServerSettings.validate ⟨"http://ann:pw@svc.test:8080/base/?k=v#top", 30⟩ = .ok sampleWithUser.base ∧
      ∃ url, sampleWithUser.address misleading = .ok url ∧ url.Extends sampleWithUser.base ∧
        url.write = "http://ann:pw@svc.test:8080/base/%2F%2Fevil.test/a@b:1/%3Fx%23y/%5C?k=v&%26%23=%40%2F#top" ∧
        Web.Url.read url.write = .ok url := by
  have hvalid : ServerSettings.validate ⟨"http://ann:pw@svc.test:8080/base/?k=v#top", 30⟩
      = .ok sampleWithUser.base := Outcome.toOption_eq_some.1 (by decide +kernel)
  obtain ⟨url, haddress, hextends, -⟩ := address_stays hvalid misleading
  have hwrite : (sampleWithUser.address misleading).toOption.map (·.write) = some
      "http://ann:pw@svc.test:8080/base/%2F%2Fevil.test/a@b:1/%3Fx%23y/%5C?k=v&%26%23=%40%2F#top" := by
    decide +kernel
  have hread : (sampleWithUser.address misleading).toOption.bind (fun url => (Web.Url.read url.write).toOption)
      = (sampleWithUser.address misleading).toOption := by
    decide +kernel
  rw [haddress] at hwrite hread
  exact ⟨hvalid, url, haddress, hextends, Option.some.inj hwrite, Outcome.toOption_eq_some.1 hread⟩

end

end Remote

end DataClient
