import DataClient.Error
import DataClient.Web.Url

/-!
# Settings

Where the service is and how long to wait for it. Each setting is taken from the first source that
gives it: the command line, the environment, the configuration file, the default.
-/

set_option autoImplicit false

namespace DataClient

/-- The settings of a run, as given and not yet examined. -/
structure ServerSettings where
  baseUrl : String
  timeoutSeconds : Nat
  deriving DecidableEq, Repr

namespace ServerSettings

/-- The settings where none are given. -/
def standard : ServerSettings := ⟨"http://localhost:8080", 30⟩

/-- Settings with those replaced that are given. -/
def override (s : ServerSettings) (baseUrl : Option String) (timeoutSeconds : Option Nat) :
    ServerSettings :=
  ⟨baseUrl.getD s.baseUrl, timeoutSeconds.getD s.timeoutSeconds⟩

/-- The base address, if the settings can be used. -/
def validate [Web.DomainReader] (s : ServerSettings) : Except ClientError Web.Url := do
  let url ← (Web.Url.read s.baseUrl).mapError fun fault =>
    ClientError.config ("Invalid base URL '" ++ s.baseUrl ++ "': " ++ fault.message)
  if url.scheme ≠ "http" ∧ url.scheme ≠ "https" then
    throw (.config ("Invalid scheme '" ++ url.scheme ++ "'. Expected 'http' or 'https'"))
  if !url.isHierarchical then
    throw (.config ("Base URL '" ++ s.baseUrl ++ "' cannot carry a path"))
  if s.timeoutSeconds = 0 then throw (.config "timeout_secs must be greater than zero")
  return url

end ServerSettings

end DataClient
