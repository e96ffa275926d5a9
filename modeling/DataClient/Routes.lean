/-!
# Views and their paths

Three views are mounted at fixed paths, and the root leads to the first of them. Slashes at the end
of a path do not matter.
-/

set_option autoImplicit false

namespace DataClient

/-- A view that can be opened. -/
inductive View
  | metrics
  | tables
  | query
  deriving DecidableEq, Repr

namespace View

def all : List View := [.metrics, .tables, .query]

/-- Where a view is mounted. -/
def path : View → String
  | .metrics => "/metrics"
  | .tables => "/tables"
  | .query => "/query"

/-- What a view is called. -/
def name : View → String
  | .metrics => "MetricManagement"
  | .tables => "TableManagement"
  | .query => "SqlQuery"

/-- The view that the root leads to. -/
def home : View := .metrics

end View

/-- What a path leads to. -/
inductive Resolved
  | view (v : View)
  | redirect (source target : String)
  | notFound
  deriving DecidableEq, Repr

namespace Route

/-- A path without the slashes at its end. -/
def trimSlashes (path : String) : String :=
  String.ofList ((path.toList.reverse.dropWhile (· = '/')).reverse)

/-- Looks a path up, without following the redirect of the root. -/
def resolve (path : String) : Resolved :=
  let trimmed := trimSlashes path
  if trimmed = "" then .redirect "/" View.home.path
  else match View.all.find? (·.path == trimmed) with
    | some v => .view v
    | none => .notFound

/-- The view that a path ends at. -/
def navigate (path : String) : Option View :=
  match resolve path with
  | .view v => some v
  | .redirect _ target =>
    match resolve target with
    | .view v => some v
    | _ => none
  | .notFound => none

end Route

end DataClient
