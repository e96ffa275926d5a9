import DataClient.Proofs.Outcome
import DataClient.Proofs.Web.Written
import DataClient.Settings.File

/-!
# What the configuration file says

A file says something about each setting on its own, or is refused. Reading one replaces the
defaults field by field, so a file that is silent about a setting leaves the default in its place,
whatever it says about the other. Settings are refused for three reasons only.
-/

set_option autoImplicit false

namespace DataClient

/-! ## Replacing settings -/

namespace ServerSettings

variable {s s' : ServerSettings} {path : String}

@[simp] theorem override_none (s : ServerSettings) : s.override none none = s := rfl

theorem override_override (s : ServerSettings) (url url' : Option String)
    (seconds seconds' : Option Nat) :
    (s.override url seconds).override url' seconds'
      = s.override (url'.or url) (seconds'.or seconds) := by
  unfold override
  cases url' <;> cases seconds' <;> rfl

/-- **Each setting ends as the last that replaced it, or as it began.** What replaces the other
setting has no part in it. -/
theorem foldl_override (s : ServerSettings) (replacements : List (Option String × Option Nat)) :
    replacements.foldl (fun s r => s.override r.1 r.2) s
      = s.override (replacements.filterMap (·.1)).getLast? (replacements.filterMap (·.2)).getLast? := by
  induction replacements generalizing s with
  | nil => rfl
  | cons r rest ih =>
    obtain ⟨url, seconds⟩ := r
    rw [List.foldl_cons, ih, override_override]
    cases url <;> cases seconds <;> simp [List.getLast?_cons, Option.or_some]

end ServerSettings

/-! ## A file -/

namespace Toml

/-- The text that a value is. -/
def Node.text? : Node → Option String
  | .scalar _ (.string s) => some s
  | _ => none

/-- The number of seconds that a value is. -/
def Node.seconds? : Node → Option Nat
  | .scalar _ (.integer n) => if 0 ≤ n then some n.toNat else none
  | _ => none

/-- The values of a name. -/
def Entries.named (entries : Entries) (name : String) : List Node :=
  (List.filter (fun e : Key × Node => e.1.name == name) entries).map (·.2)

/-- The values that stand for a setting: by their name, or in a list by their place. A date has
none. -/
def Node.standFor (name : String) (place : Nat) : Node → Option (List Node)
  | .table _ _ entries => some (Entries.named entries name)
  | .array _ items => some items[place]?.toList
  | .tables items => some items[place]?.toList
  | .scalar _ (.date _) => some []
  | _ => none

/-- What a value says about a setting, if it can be read; of several values the last counts. -/
def Node.setting? {α : Type} (read : Node → Option α) (name : String) (place : Nat) (n : Node) :
    Option (Option α) := do
  let values ← n.standFor name place
  return (← values.mapM read).getLast?

/-- What a value says about the settings. -/
def Node.settings? (n : Node) : Option (Option String × Option Nat) := do
  return (← n.setting? Node.text? "base_url" 0, ← n.setting? Node.seconds? "timeout_secs" 1)

end Toml

namespace ServerSettings

open Toml Outcome

/-- What a document says about the settings. -/
def ofEntries? (entries : Entries) : Option (Option String × Option Nat) :=
  match entries.find? "server" with
  | some n => n.settings?
  | none => some (none, none)

/-- What a file says about the settings, if it can be read and makes sense. -/
def ofContent? : Except ReadFault ByteArray → Option (Option String × Option Nat)
  | .error _ => none
  | .ok bytes => do
    let text ← Text.ofBytes? bytes
    ofEntries? (← (Toml.read text).toOption)

variable {s s' : ServerSettings} {place : Nat} {n : Node}

theorem textOf_eq_ok {url : String} : textOf place n = .ok url ↔ n.text? = some url := by
  unfold textOf Node.text?
  split <;> simp_all

theorem secondsOf_eq_ok {seconds : Nat} :
    secondsOf place n = .ok seconds ↔ n.seconds? = some seconds := by
  unfold secondsOf Node.seconds?
  split
  · rename_i n
    by_cases h : 0 ≤ n <;> simp [h]
  · simp_all

theorem withEntry_baseUrl {entry : Key × Node} (h : entry.1.name = "base_url") :
    s.withEntry entry = .ok s' ↔
      ∃ url, entry.2.text? = some url ∧ s' = s.override (some url) none := by
  rw [withEntry, if_pos h, bind_eq_ok]
  simp only [textOf_eq_ok]
  exact exists_congr fun url => and_congr_right fun _ => ⟨fun h => (Except.ok.inj h).symm,
    fun h => h ▸ rfl⟩

theorem withEntry_timeout {entry : Key × Node} (h : entry.1.name = "timeout_secs") :
    s.withEntry entry = .ok s' ↔
      ∃ seconds, entry.2.seconds? = some seconds ∧ s' = s.override none (some seconds) := by
  have hurl : entry.1.name ≠ "base_url" := by rw [h]; decide
  rw [withEntry, if_neg hurl, if_pos h, bind_eq_ok]
  simp only [secondsOf_eq_ok]
  exact exists_congr fun seconds => and_congr_right fun _ => ⟨fun h => (Except.ok.inj h).symm,
    fun h => h ▸ rfl⟩

theorem withEntry_other {entry : Key × Node} (hurl : entry.1.name ≠ "base_url")
    (hseconds : entry.1.name ≠ "timeout_secs") : s.withEntry entry = .ok s := by
  rw [withEntry, if_neg hurl, if_neg hseconds]
  rfl

theorem named_cons (entry : Key × Node) (entries : Entries) (name : String) :
    Entries.named (entry :: entries) name =
      if entry.1.name = name then entry.2 :: entries.named name else entries.named name := by
  unfold Entries.named
  rw [List.filter_cons]
  by_cases h : entry.1.name = name <;> simp [h]

theorem mapM_cons_eq_some {α β : Type} {f : α → Option β} {x : α} {xs : List α} {ys : List β} :
    (x :: xs).mapM f = some ys ↔ ∃ y zs, f x = some y ∧ xs.mapM f = some zs ∧ ys = y :: zs := by
  simp [List.mapM_cons, Option.bind_eq_some_iff, eq_comm (a := ys)]

theorem getLast?_cons_eq_or {α : Type} (x : α) (xs : List α) :
    (x :: xs).getLast? = xs.getLast?.or (some x) := by
  rw [List.getLast?_cons]
  cases xs.getLast? <;> rfl

/-- A table says something about each setting by the entries of its name alone. -/
theorem foldlM_withEntry_eq_ok {entries : Entries} :
    List.foldlM withEntry s entries = .ok s' ↔ ∃ urls seconds,
      (entries.named "base_url").mapM Node.text? = some urls ∧
      (entries.named "timeout_secs").mapM Node.seconds? = some seconds ∧
      s' = s.override urls.getLast? seconds.getLast? := by
  induction entries generalizing s with
  | nil =>
    simp [Entries.named, pure, Except.pure, eq_comm]
  | cons entry rest ih =>
    rw [List.foldlM_cons, bind_eq_ok]
    by_cases hurl : entry.1.name = "base_url"
    · have hseconds : entry.1.name ≠ "timeout_secs" := by rw [hurl]; decide
      simp only [withEntry_baseUrl hurl, ih, named_cons, if_pos hurl, if_neg hseconds,
        mapM_cons_eq_some]
      constructor
      · rintro ⟨_, ⟨url, hvalue, rfl⟩, urls, seconds, hurls, hsecs, rfl⟩
        exact ⟨_, seconds, ⟨url, urls, hvalue, hurls, rfl⟩, hsecs,
          by rw [override_override, getLast?_cons_eq_or, Option.or_none]⟩
      · rintro ⟨_, seconds, ⟨url, urls, hvalue, hurls, rfl⟩, hsecs, rfl⟩
        exact ⟨_, ⟨url, hvalue, rfl⟩, urls, seconds, hurls, hsecs,
          by rw [override_override, getLast?_cons_eq_or, Option.or_none]⟩
    · by_cases hseconds : entry.1.name = "timeout_secs"
      · simp only [withEntry_timeout hseconds, ih, named_cons, if_neg hurl, if_pos hseconds,
          mapM_cons_eq_some]
        constructor
        · rintro ⟨_, ⟨second, hvalue, rfl⟩, urls, seconds, hurls, hsecs, rfl⟩
          exact ⟨urls, _, hurls, ⟨second, seconds, hvalue, hsecs, rfl⟩,
            by rw [override_override, getLast?_cons_eq_or, Option.or_none]⟩
        · rintro ⟨urls, _, hurls, ⟨second, seconds, hvalue, hsecs, rfl⟩, rfl⟩
          exact ⟨_, ⟨second, hvalue, rfl⟩, urls, seconds, hurls, hsecs,
            by rw [override_override, getLast?_cons_eq_or, Option.or_none]⟩
      · simp only [withEntry_other hurl hseconds, named_cons, if_neg hurl, if_neg hseconds, ← ih]
        exact ⟨fun ⟨_, h, hrest⟩ => Except.ok.inj h ▸ hrest, fun h => ⟨s, rfl, h⟩⟩

/-- A list says something about each setting by the item at its place. -/
theorem ofItems_eq_ok {items : List Node} :
    ofItems place items = .ok s ↔ ∃ urls seconds,
      items[0]?.toList.mapM Node.text? = some urls ∧
      items[1]?.toList.mapM Node.seconds? = some seconds ∧
      s = standard.override urls.getLast? seconds.getLast? := by
  match items with
  | [] => simp [ofItems, eq_comm]
  | [url] =>
    rw [ofItems, bind_eq_ok]
    simp only [textOf_eq_ok]
    constructor
    · rintro ⟨text, htext, hs⟩
      exact ⟨[text], [], by simp [htext], rfl, (Except.ok.inj hs).symm⟩
    · rintro ⟨urls, seconds, hurls, hseconds, rfl⟩
      obtain ⟨text, rest, htext, hrest, rfl⟩ := mapM_cons_eq_some.1 hurls
      cases hrest
      cases hseconds
      exact ⟨text, htext, rfl⟩
  | url :: second :: rest =>
    rw [ofItems]
    simp only [bind_eq_ok, textOf_eq_ok, secondsOf_eq_ok]
    constructor
    · rintro ⟨text, htext, number, hnumber, hs⟩
      exact ⟨[text], [number], by simp [htext], by simp [hnumber], (Except.ok.inj hs).symm⟩
    · rintro ⟨urls, seconds, hurls, hseconds, rfl⟩
      obtain ⟨text, urls, htext, hrest, rfl⟩ := mapM_cons_eq_some.1 hurls
      cases hrest
      obtain ⟨number, seconds, hnumber, hrest, rfl⟩ := mapM_cons_eq_some.1 hseconds
      cases hrest
      exact ⟨text, htext, number, hnumber, rfl⟩

theorem settings?_eq_some {given : Option String × Option Nat} :
    n.settings? = some given ↔ ∃ values values' urls seconds,
      n.standFor "base_url" 0 = some values ∧ n.standFor "timeout_secs" 1 = some values' ∧
      values.mapM Node.text? = some urls ∧ values'.mapM Node.seconds? = some seconds ∧
      given = (urls.getLast?, seconds.getLast?) := by
  unfold Node.settings? Node.setting?
  simp only [Option.bind_eq_bind, Option.bind_eq_some_iff, pure, Option.some.injEq]
  constructor
  · rintro ⟨_, ⟨values, hvalues, urls, hurls, rfl⟩, _, ⟨values', hvalues', seconds, hseconds, rfl⟩, rfl⟩
    exact ⟨values, values', urls, seconds, hvalues, hvalues', hurls, hseconds, rfl⟩
  · rintro ⟨values, values', urls, seconds, hvalues, hvalues', hurls, hseconds, rfl⟩
    exact ⟨_, ⟨values, hvalues, urls, hurls, rfl⟩, _, ⟨values', hvalues', seconds, hseconds, rfl⟩, rfl⟩

theorem ofNode_eq_ok :
    ofNode place n = .ok s ↔ ∃ given, n.settings? = some given ∧
      s = standard.override given.1 given.2 := by
  have hread : ∀ {values values' : List Node}, n.standFor "base_url" 0 = some values →
      n.standFor "timeout_secs" 1 = some values' →
      ((∃ given, n.settings? = some given ∧ s = standard.override given.1 given.2) ↔
        ∃ urls seconds, values.mapM Node.text? = some urls ∧
          values'.mapM Node.seconds? = some seconds ∧
          s = standard.override urls.getLast? seconds.getLast?) := by
    intro values values' hvalues hvalues'
    simp only [settings?_eq_some, hvalues, hvalues', Option.some.injEq]
    constructor
    · rintro ⟨_, ⟨_, _, urls, seconds, rfl, rfl, hurls, hseconds, rfl⟩, rfl⟩
      exact ⟨urls, seconds, hurls, hseconds, rfl⟩
    · rintro ⟨urls, seconds, hurls, hseconds, rfl⟩
      exact ⟨_, ⟨_, _, urls, seconds, rfl, rfl, hurls, hseconds, rfl⟩, rfl⟩
  match n with
  | .table _ _ entries =>
    rw [hread rfl rfl]
    exact foldlM_withEntry_eq_ok
  | .array _ items =>
    rw [hread rfl rfl]
    exact ofItems_eq_ok
  | .tables items =>
    rw [hread rfl rfl]
    exact ofItems_eq_ok
  | .scalar _ (.date _) =>
    rw [hread rfl rfl]
    simp [ofNode, eq_comm]
  | .scalar _ (.string _) | .scalar _ (.integer _) | .scalar _ (.float _)
  | .scalar _ (.boolean _) =>
    simp [ofNode, settings?_eq_some, Node.standFor]

theorem ofDocument_eq_ok {entries : Entries} :
    ofDocument entries = .ok s ↔ ∃ given, ofEntries? entries = some given ∧
      s = standard.override given.1 given.2 := by
  unfold ofDocument ofEntries? Entries.find?
  cases List.find? (fun e : Key × Node => e.1.name == "server") entries with
  | none => simp [eq_comm]
  | some entry => exact ofNode_eq_ok

/-- A file that is text says what its document says. -/
theorem ofContent?_toUTF8 (text : String) :
    ofContent? (.ok text.toUTF8) = (Toml.read text).toOption.bind ofEntries? := by
  rw [ofContent?, Web.ofBytes?_toUTF8]
  rfl

/-- **What a file says is put in the place of the defaults**, each setting on its own. -/
theorem ofFile_eq_ok {path : String} {content : Except ReadFault ByteArray} :
    ofFile path content = .ok s ↔ ∃ given, ofContent? content = some given ∧
      s = standard.override given.1 given.2 := by
  match content with
  | .error e => simp [ofFile, ofContent?]
  | .ok bytes =>
    simp only [ofFile, ofContent?]
    cases Text.ofBytes? bytes with
    | none => simp
    | some text =>
      simp only [ofText, mapError_eq_ok, bind_eq_ok, ofDocument_eq_ok, Option.bind_eq_bind,
        Option.bind_some, Option.bind_eq_some_iff, toOption_eq_some]
      constructor
      · rintro ⟨entries, hread, given, hgiven, rfl⟩
        exact ⟨given, ⟨entries, hread, hgiven⟩, rfl⟩
      · rintro ⟨given, ⟨entries, hread, hgiven⟩, rfl⟩
        exact ⟨entries, hread, given, hgiven, rfl⟩

/-- A file that is refused is an error of the configuration. -/
theorem ofFile_eq_error {path : String} {content : Except ReadFault ByteArray} {e : ClientError}
    (h : ofFile path content = .error e) : ∃ why, e = .config why := by
  unfold ofFile at h
  split at h
  · cases h
    exact ⟨_, rfl⟩
  · split at h
    · obtain ⟨offset, -, rfl⟩ := mapError_eq_error.1 h
      exact ⟨_, rfl⟩
    · cases h
      exact ⟨_, rfl⟩

/-- Settings from what is found where a file should be. A file that is not found leaves the
defaults. -/
def ofFound (path : String) : Option (Except ReadFault ByteArray) → Except ClientError ServerSettings
  | none => .ok standard
  | some content => ofFile path content

/-- What is found where a file should be says about the settings: nothing, if there is no file. -/
def ofFound? : Option (Except ReadFault ByteArray) → Option (Option String × Option Nat)
  | none => some (none, none)
  | some content => ofContent? content

theorem ofFound_eq_ok {path : String} {found : Option (Except ReadFault ByteArray)} :
    ofFound path found = .ok s ↔ ∃ given, ofFound? found = some given ∧
      s = standard.override given.1 given.2 := by
  cases found with
  | none => simp [ofFound, ofFound?, eq_comm]
  | some content => exact ofFile_eq_ok

theorem ofFound_eq_error {path : String} {found : Option (Except ReadFault ByteArray)}
    {e : ClientError} (h : ofFound path found = .error e) : ∃ why, e = .config why := by
  cases found with
  | none => cases h
  | some content => exact ofFile_eq_error h

/-! ## Settings that are refused -/

/-- Settings that cannot be used: there is no address, or not one of a service, or no time. -/
def Unusable [Web.DomainReader] (s : ServerSettings) : Prop :=
  (∃ fault, Web.Url.read s.baseUrl = .error fault) ∨
    (∃ url, Web.Url.read s.baseUrl = .ok url ∧ url.scheme ≠ "http" ∧ url.scheme ≠ "https") ∨
    s.timeoutSeconds = 0

/-- **Settings are refused for these reasons only**, and as errors of the configuration. An address
of a service always has a path, so the check for one never fails. -/
theorem validate_cases [Web.DomainReader] (s : ServerSettings) :
    (s.Unusable ∧ ∃ why, s.validate = .error (.config why)) ∨
      ¬ s.Unusable ∧ ∃ url, Web.Url.read s.baseUrl = .ok url ∧ s.validate = .ok url := by
  unfold validate
  cases hread : Web.Url.read s.baseUrl with
  | error fault => exact .inl ⟨.inl ⟨fault, hread⟩, _, rfl⟩
  | ok url =>
    by_cases hscheme : url.scheme ≠ "http" ∧ url.scheme ≠ "https"
    · exact .inl ⟨.inr (.inl ⟨url, hread, hscheme⟩), _, if_pos hscheme⟩
    · obtain ⟨parts, hpath, -⟩ :=
        (Web.Url.tidy_of_read hread (Decidable.or_iff_not_not_and_not.2 hscheme)).path
      have hplain : ¬ (!url.isHierarchical) = true := by simp [Web.Url.isHierarchical, hpath]
      by_cases htime : s.timeoutSeconds = 0
      · exact .inl ⟨.inr (.inr htime), _,
          (if_neg hscheme).trans ((if_neg hplain).trans (if_pos htime))⟩
      · refine .inr ⟨?_, url, rfl, (if_neg hscheme).trans ((if_neg hplain).trans (if_neg htime))⟩
        rintro (⟨fault, h⟩ | ⟨other, h, hother⟩ | h)
        · exact nomatch hread.symm.trans h
        · cases hread.symm.trans h
          exact hscheme hother
        · exact htime h

end ServerSettings

end DataClient
