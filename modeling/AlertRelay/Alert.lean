/-! Alerts: what the relay passes on. -/

namespace AlertRelay

inductive Severity
  | info
  | error
deriving DecidableEq, Repr

/-- Names the kind of an alert; receivers route and mute alerts by it. -/
structure AlertCode where
  name : String
  code : String
deriving DecidableEq, Repr

structure Alert where
  code : AlertCode
  message : String
  severity : Severity
  parentId : String
  originId : String
  timestamp : Float
deriving BEq

/-- A repository has a release that was not there before. -/
def Alert.newRelease (repo release tag : String) (timestamp : Float)
    (parentId originId : String) : Alert where
  code := ⟨"NewGitHubReleaseAlert", "github_alert_1"⟩
  message := "Repo: " ++ repo ++ " has a new release " ++ release ++ " tagged " ++ tag ++ "."
  severity := .info
  parentId := parentId
  originId := originId
  timestamp := timestamp

/-- The page of a repository could not be reached. -/
def Alert.pageInaccessible (repo : String) (timestamp : Float)
    (parentId originId : String) : Alert where
  code := ⟨"CannotAccessGitHubPageAlert", "github_alert_2"⟩
  message := "Github page inaccessible " ++ repo
  severity := .error
  parentId := parentId
  originId := originId
  timestamp := timestamp

end AlertRelay
