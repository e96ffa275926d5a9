import DataClient.Proofs.Command.Dispatch
import Mathlib.Data.List.DropRight

/-!
# Opening a path

Every path is its trimmed form with slashes behind it, and no trimmed form ends in a slash. So the
paths of a view are those with slashes behind the one that it is mounted at, those of the root are
slashes alone, and no path is of two kinds (`Route.resolve_eq_view_iff`,
`Route.resolve_eq_redirect_iff`). Opening a path of a view runs like the command for that view, and
opening any other path is an error of the input (`Command.open_exact`).
-/

set_option autoImplicit false

namespace DataClient

namespace Route

/-! ## Slashes at the end -/

/-- So many slashes. -/
def slashes (n : Nat) : String := String.ofList (List.replicate n '/')

theorem trimSlashes_append_slashes (path : String) (n : Nat) :
    trimSlashes (path ++ slashes n) = trimSlashes path := by
  have hdrop (cs : List Char) :
      (cs ++ List.replicate n '/').rdropWhile (· = '/') = cs.rdropWhile (· = '/') := by
    induction n with
    | zero => rw [List.replicate_zero, List.append_nil]
    | succ n ih =>
      rw [List.replicate_succ', ← List.append_assoc, List.rdropWhile_concat_pos _ _ _ (by simp), ih]
  have hlist : (path ++ slashes n).toList = path.toList ++ List.replicate n '/' := by
    rw [String.toList_append, slashes, String.toList_ofList]
  unfold trimSlashes
  rw [hlist]
  exact congrArg String.ofList (hdrop path.toList)

/-- A path is its trimmed form with slashes behind it. -/
theorem exists_slashes (path : String) : ∃ n, path = trimSlashes path ++ slashes n := by
  have hdrop (cs : List Char) : ∃ n, cs = cs.rdropWhile (· = '/') ++ List.replicate n '/' := by
    induction cs using List.reverseRecOn with
    | nil => exact ⟨0, rfl⟩
    | append_singleton cs c ih =>
      by_cases hc : c = '/'
      · obtain ⟨n, hn⟩ := ih
        refine ⟨n + 1, ?_⟩
        rw [List.rdropWhile_concat_pos _ _ _ (by simpa using hc), List.replicate_succ',
          ← List.append_assoc, ← hn, hc]
      · refine ⟨0, ?_⟩
        rw [List.rdropWhile_concat_neg _ _ _ (by simpa using hc), List.replicate_zero, List.append_nil]
  obtain ⟨n, hn⟩ := hdrop path.toList
  refine ⟨n, ?_⟩
  rw [← String.toList_inj, String.toList_append, slashes, String.toList_ofList]
  unfold trimSlashes
  rw [String.toList_ofList]
  exact hn

/-- The paths of a trimmed form are those with slashes behind it. -/
theorem trimSlashes_eq_iff {s path : String} (hs : trimSlashes s = s) :
    trimSlashes path = s ↔ ∃ n, path = s ++ slashes n := by
  constructor
  · rintro rfl
    exact exists_slashes path
  · rintro ⟨n, rfl⟩
    rw [trimSlashes_append_slashes, hs]

theorem trimSlashes_eq_empty_iff {path : String} : trimSlashes path = "" ↔ ∃ n, path = slashes n := by
  rw [trimSlashes_eq_iff rfl]
  simp only [String.empty_append]

/-! ## What paths lead to -/

theorem find?_path_eq_some {s : String} {v : View} :
    View.all.find? (·.path == s) = some v ↔ v.path = s := by
  constructor
  · intro h
    simpa using List.find?_some h
  · rintro rfl
    cases v <;> rfl

theorem path_ne_empty (v : View) : v.path ≠ "" := by
  cases v <;> decide

theorem trimSlashes_path (v : View) : trimSlashes v.path = v.path := by
  cases v <;> decide

variable {path : String} {v : View}

/-- **The paths of a view** are those with slashes behind the one that it is mounted at. -/
theorem resolve_eq_view_iff : resolve path = .view v ↔ ∃ n, path = v.path ++ slashes n := by
  rw [← trimSlashes_eq_iff (trimSlashes_path v), resolve]
  generalize trimSlashes path = trimmed
  by_cases hempty : trimmed = ""
  · rw [if_pos hempty]
    exact iff_of_false nofun fun h => path_ne_empty v (h.symm.trans hempty)
  · rw [if_neg hempty, eq_comm (a := trimmed), ← find?_path_eq_some]
    cases View.all.find? (·.path == trimmed) <;> simp

/-- **The paths of the root** are slashes alone, and the root leads to its view. -/
theorem resolve_eq_redirect_iff {source target : String} :
    resolve path = .redirect source target ↔
      (∃ n, path = slashes n) ∧ source = "/" ∧ target = View.home.path := by
  rw [← trimSlashes_eq_empty_iff, resolve]
  generalize trimSlashes path = trimmed
  by_cases hempty : trimmed = ""
  · rw [if_pos hempty, and_iff_right hempty, Resolved.redirect.injEq, eq_comm, eq_comm (a := target)]
  · rw [if_neg hempty]
    refine iff_of_false (fun h => ?_) fun h => hempty h.1
    split at h <;> cases h

/-- What a path leads to does not depend on slashes at its end. -/
theorem resolve_append_slashes (path : String) (n : Nat) :
    resolve (path ++ slashes n) = resolve path := by
  unfold resolve
  rw [trimSlashes_append_slashes]

theorem resolve_home : resolve View.home.path = .view View.home :=
  resolve_eq_view_iff.2 ⟨0, by decide⟩

/-- A path ends at the view that it is looked up as, or that its redirect is. -/
theorem navigate_eq_some_iff :
    navigate path = some v ↔ resolve path = .view v ∨
      ∃ source target, resolve path = .redirect source target ∧ resolve target = .view v := by
  unfold navigate
  cases hpath : resolve path with
  | view w => simp
  | notFound => simp
  | redirect source target =>
    cases htarget : resolve target <;> simp [htarget]

/-- A path ends at no view exactly if nothing is found at it. -/
theorem navigate_eq_none_iff : navigate path = none ↔ resolve path = .notFound := by
  unfold navigate
  cases hpath : resolve path with
  | view w => simp
  | notFound => simp
  | redirect source target =>
    obtain ⟨-, -, rfl⟩ := resolve_eq_redirect_iff.1 hpath
    simp [resolve_home]

/-- The paths that end at a view: its own, and those of the root if it is the one for that. -/
theorem navigate_eq_some_iff_slashes :
    navigate path = some v ↔
      (∃ n, path = v.path ++ slashes n) ∨ v = View.home ∧ ∃ n, path = slashes n := by
  rw [navigate_eq_some_iff, resolve_eq_view_iff]
  refine or_congr_right ⟨?_, ?_⟩
  · rintro ⟨source, target, h, hv⟩
    obtain ⟨hslashes, -, rfl⟩ := resolve_eq_redirect_iff.1 h
    rw [resolve_home, Resolved.view.injEq] at hv
    exact ⟨hv.symm, hslashes⟩
  · rintro ⟨rfl, hslashes⟩
    exact ⟨_, _, resolve_eq_redirect_iff.2 ⟨hslashes, rfl, rfl⟩, resolve_home⟩

end Route

namespace Command

open Route

/-! ## Commands that run alike -/

section Alike

variable [Allocator]

/-- Two commands run alike: whatever the file of a query or the standard input holds, they end alike
over every exchange after the same requests, and so do whole runs of them in any surroundings. -/
structure RunsLike [Web.DomainReader] (c c' : Command) : Prop where
  dispatch : ∀ (format : OutputFormat) (content content' : Except ReadFault ByteArray)
    (exchange : Request → Except TransportError Response),
    (Plan.ofCommand format content c).through exchange
      = (Plan.ofCommand format content' c').through exchange
  perform : ∀ {m : Type → Type} [Monad m] (s : Surroundings m) (i : Invocation),
    { i with command := c }.perform s = { i with command := c' }.perform s

/-- The command ends with a result without any request. -/
def EndsWith (c : Command) (result : Except ClientError String) : Prop :=
  ∀ (format : OutputFormat) (content : Except ReadFault ByteArray)
    (exchange : Request → Except TransportError Response),
    (Plan.ofCommand format content c).through exchange = (.ok result, [])

/-- Commands that read nothing and have one plan run alike. -/
theorem RunsLike.of_plan [Web.DomainReader] {c c' : Command}
    (hplan : ∀ format content content',
      Plan.ofCommand format content c = Plan.ofCommand format content' c')
    (hfetch : ∀ {m : Type → Type} [Monad m] (s : Surroundings m), c.fetch s = c'.fetch s) :
    RunsLike c c' := by
  refine ⟨fun format content content' exchange => ?_, fun s i => ?_⟩
  · rw [hplan format content content']
  · have hplan' : (Plan.ofCommand i.format · c) = (Plan.ofCommand i.format · c') :=
      funext fun content => hplan i.format content content
    unfold Invocation.perform
    simp only [hfetch, congrFun hplan']
    rfl

variable {path : String} {sql : Option String}

/-- Opening a path runs like the command that the path stands for. -/
theorem Opens.runsLike [Web.DomainReader] {c : Command} (h : Opens path sql c) :
    RunsLike (.open path sql) c := by
  -- The three commands read no file and no input, so their plans do not depend on what these hold.
  have hcontent (format : OutputFormat) (content content' : Except ReadFault ByteArray) :
      Plan.ofCommand format content c = Plan.ofCommand format content' c := by
    cases h <;> rfl
  refine .of_plan (fun format content content' => h.plan_eq.trans (hcontent _ _ _)) fun s => ?_
  cases h <;> rfl

theorem endsWith_open_none (h : navigate path = none) :
    (Command.open path sql).EndsWith (.error (.input ("No view at '" ++ path ++ "'"))) := by
  intro format content exchange
  rw [Plan.ofCommand, h]
  rfl

theorem endsWith_open_query (h : navigate path = some .query) :
    (Command.open path none).EndsWith (.ok "SqlQuery: pass --sql to run a query\n") := by
  intro format content exchange
  rw [Plan.ofCommand, h]
  rfl

/-- A text for a query is not looked at outside of the view of queries. -/
theorem runsLike_open_of_ne [Web.DomainReader] (h : navigate path ≠ some .query)
    (sql sql' : Option String) :
    RunsLike (.open path sql) (.open path sql') := by
  refine .of_plan (fun format content content' => ?_) fun s => rfl
  rw [Plan.ofCommand, Plan.ofCommand]
  cases hview : navigate path with
  | none => rfl
  | some view =>
    cases view with
    | metrics | tables => rfl
    | query => exact absurd hview h

end Alike

/-- **Opening a path is running the command for it.** Slashes alone and the path of metrics are the
listing of metrics, the path of tables is the listing of tables, and the path of queries is the query
that is given, or a hint if none is; slashes behind a path do not matter. Every other path is an error
of the input, without a request. Looking a path up and following it agree on this, and a text for a
query matters for the view of queries only. -/
theorem open_exact [Allocator] [Web.DomainReader] (path : String) (sql : Option String) :
    ((∃ n, path = slashes n ∨ path = "/metrics" ++ slashes n) →
      RunsLike (.open path sql) (.metrics .list)) ∧
    ((∃ n, path = "/tables" ++ slashes n) → RunsLike (.open path sql) (.tables (.basic .list))) ∧
    ((∃ n, path = "/query" ++ slashes n) →
      (∀ text, sql = some text → RunsLike (.open path sql) (.query ⟨some text, none, none⟩)) ∧
      (sql = none →
        (Command.open path sql).EndsWith (.ok "SqlQuery: pass --sql to run a query\n"))) ∧
    ((∀ n, path ≠ slashes n ∧ ∀ v : View, path ≠ v.path ++ slashes n) →
      (Command.open path sql).EndsWith (.error (.input ("No view at '" ++ path ++ "'")))) ∧
    ((∀ n, path ≠ "/query" ++ slashes n) → ∀ sql', RunsLike (.open path sql) (.open path sql')) ∧
    (∀ v, resolve path = .view v ↔ ∃ n, path = v.path ++ slashes n) ∧
    (∀ source target, resolve path = .redirect source target ↔
      (∃ n, path = slashes n) ∧ source = "/" ∧ target = "/metrics") ∧
    (∀ source target, resolve path = .redirect source target → ∃ v, resolve target = .view v) ∧
    (∀ v, navigate path = some v ↔ resolve path = .view v ∨
      ∃ source target, resolve path = .redirect source target ∧ resolve target = .view v) ∧
    (navigate path = none ↔ resolve path = .notFound) ∧
    ∀ n, resolve (path ++ slashes n) = resolve path ∧ navigate (path ++ slashes n) = navigate path := by
  have hquery : navigate path = some .query ↔ ∃ n, path = "/query" ++ slashes n := by
    rw [navigate_eq_some_iff_slashes]
    exact or_iff_left fun h => nomatch h.1
  refine ⟨?_, ?_, ?_, ?_, ?_, fun v => resolve_eq_view_iff, fun _ _ => resolve_eq_redirect_iff, ?_,
    fun v => navigate_eq_some_iff, navigate_eq_none_iff, fun n => ?_⟩
  · rintro ⟨n, h⟩
    refine (Opens.metrics (navigate_eq_some_iff_slashes.2 ?_)).runsLike
    exact h.symm.imp (fun h => ⟨n, h⟩) fun h => ⟨rfl, n, h⟩
  · intro h
    exact (Opens.tables (navigate_eq_some_iff_slashes.2 (.inl h))).runsLike
  · intro h
    refine ⟨?_, ?_⟩
    · rintro text rfl
      exact (Opens.query (hquery.2 h)).runsLike
    · rintro rfl
      exact endsWith_open_query (hquery.2 h)
  · intro h
    refine endsWith_open_none (Option.eq_none_iff_forall_ne_some.2 fun v hv => ?_)
    rcases navigate_eq_some_iff_slashes.1 hv with ⟨n, hn⟩ | ⟨-, n, hn⟩
    · exact (h n).2 v hn
    · exact (h n).1 hn
  · intro h sql'
    exact runsLike_open_of_ne (fun hview => (hquery.1 hview).elim h) sql sql'
  · intro source target h
    obtain ⟨-, -, rfl⟩ := resolve_eq_redirect_iff.1 h
    exact ⟨_, resolve_home⟩
  · refine ⟨resolve_append_slashes path n, ?_⟩
    unfold navigate
    rw [resolve_append_slashes]

end Command

end DataClient
