import AlertRelay.Alert
import AlertRelay.Json.Scan
import AlertRelay.Payload.Envelope

/-! Release monitoring of GitHub repositories. A success carries a counter of
releases; each release counted since the last observation yields an alert. This is
the rule of one source; sources are known by their names. -/

namespace AlertRelay

structure RepoMetadata where
  repoName : String
  lastMonitored : Float
  repoParentId : String
  repoId : String

structure RepoFailure where
  repoName : String
  time : Float
  repoParentId : String
  repoId : String

/-- How many releases there are, and how many there were last time. -/
structure Counter where
  current : Int
  previous : Option Int
deriving DecidableEq, Repr

structure Release where
  releaseName : String
  tagName : String
deriving DecidableEq, Repr

structure ReleaseData where
  counter : Counter
  releases : List (String × Release)
deriving DecidableEq, Repr

def RepoMetadata.shape : RecordShape := ⟨"RepoMetadata", 4⟩
def RepoFailure.shape : RecordShape := ⟨"RepoFailureMetadata", 4⟩
def Counter.shape : RecordShape := ⟨"Counter", 2⟩
def Release.shape : RecordShape := ⟨"Release", 2⟩
def ReleaseData.shape : RecordShape := ⟨"ReleaseData", 2⟩

def RepoMetadata.ofJson : Json → Except Mismatch RepoMetadata
  | .object members => do
    let lastMonitored ← readMember members "last_monitored" Json.asReal
    let repoId ← readMember members "repo_id" Json.asText
    let repoName ← readMember members "repo_name" Json.asText
    let repoParentId ← readMember members "repo_parent_id" Json.asText
    return {
      repoName := ← requireField "repo_name" repoName
      lastMonitored := ← requireField "last_monitored" lastMonitored
      repoParentId := ← requireField "repo_parent_id" repoParentId
      repoId := ← requireField "repo_id" repoId }
  | .array items => do
    let (repoName, rest) ← readElement RepoMetadata.shape 0 Json.asText items
    let (lastMonitored, rest) ← readElement RepoMetadata.shape 1 Json.asReal rest
    let (repoParentId, rest) ← readElement RepoMetadata.shape 2 Json.asText rest
    let (repoId, rest) ← readElement RepoMetadata.shape 3 Json.asText rest
    endElements items rest
    return { repoName, lastMonitored, repoParentId, repoId }
  | v => v.wrongType (.record RepoMetadata.shape)

def RepoFailure.ofJson : Json → Except Mismatch RepoFailure
  | .object members => do
    let repoId ← readMember members "repo_id" Json.asText
    let repoName ← readMember members "repo_name" Json.asText
    let repoParentId ← readMember members "repo_parent_id" Json.asText
    let time ← readMember members "time" Json.asReal
    return {
      repoName := ← requireField "repo_name" repoName
      time := ← requireField "time" time
      repoParentId := ← requireField "repo_parent_id" repoParentId
      repoId := ← requireField "repo_id" repoId }
  | .array items => do
    let (repoName, rest) ← readElement RepoFailure.shape 0 Json.asText items
    let (time, rest) ← readElement RepoFailure.shape 1 Json.asReal rest
    let (repoParentId, rest) ← readElement RepoFailure.shape 2 Json.asText rest
    let (repoId, rest) ← readElement RepoFailure.shape 3 Json.asText rest
    endElements items rest
    return { repoName, time, repoParentId, repoId }
  | v => v.wrongType (.record RepoFailure.shape)

def Counter.ofJson : Json → Except Mismatch Counter
  | .object members => do
    let current ← readMember members "current" Json.asSigned
    let previous ← readMember members "previous" (Json.orNull Json.asSigned)
    return { current := ← requireField "current" current, previous := previous.join }
  | .array items => do
    let (current, rest) ← readElement Counter.shape 0 Json.asSigned items
    let (previous, rest) ← readElement Counter.shape 1 (Json.orNull Json.asSigned) rest
    endElements items rest
    return { current, previous }
  | v => v.wrongType (.record Counter.shape)

def Release.ofJson : Json → Except Mismatch Release
  | .object members => do
    let releaseName ← readMember members "release_name" Json.asText
    let tagName ← readMember members "tag_name" Json.asText
    return {
      releaseName := ← requireField "release_name" releaseName
      tagName := ← requireField "tag_name" tagName }
  | .array items => do
    let (releaseName, rest) ← readElement Release.shape 0 Json.asText items
    let (tagName, rest) ← readElement Release.shape 1 Json.asText rest
    endElements items rest
    return { releaseName, tagName }
  | v => v.wrongType (.record Release.shape)

/-- Every member is read as a release, also one that is never asked for. -/
def releasesOfJson : Json → Except Mismatch (List (String × Release))
  | .object members => members.mapM fun m => (Release.ofJson m.2).map fun r => (m.1, r)
  | v => v.wrongType .map

def ReleaseData.ofJson : Json → Except Mismatch ReleaseData
  | .object members => do
    let counter ← readMember members "no_of_releases" Counter.ofJson
    let releases ← readMember members "releases" releasesOfJson
    return { counter := ← requireField "no_of_releases" counter, releases := releases.getD [] }
  | .array items => do
    let (counter, rest) ← readElement ReleaseData.shape 0 Counter.ofJson items
    let (releases, rest) ← match rest with
      | [] => .ok ([], [])
      | _ :: _ => readElement ReleaseData.shape 1 releasesOfJson rest
    endElements items rest
    return { counter, releases }
  | v => v.wrongType (.record ReleaseData.shape)

abbrev GitHubResult := Envelope RepoMetadata ReleaseData RepoFailure

def GitHubResult.ofJson (payload : Json) : Except Rejection GitHubResult :=
  Envelope.ofJson RepoMetadata.ofJson ReleaseData.ofJson RepoFailure.ofJson payload

/-- The integers of 64 bits with a sign. -/
def Signed (n : Int) : Prop := -0x8000000000000000 ≤ n ∧ n < 0x8000000000000000

instance (n : Int) : Decidable (Signed n) := inferInstanceAs (Decidable (_ ∧ _))

/-- The difference of two integers, unless it takes more than 64 bits. -/
def checkedSub (a b : Int) : Option Int := if Signed (a - b) then some (a - b) else none

/-- An integer as a size of 64 bits. -/
def toSize? (n : Int) : Option Nat := if 0 ≤ n ∧ n < 0x10000000000000000 then some n.toNat else none

/-- How many releases are new: none before a first observation, and none when
the count went down. Counts are never negative. -/
def Counter.delta (c : Counter) : Except Rejection Nat :=
  match c.previous with
  | none => .ok 0
  | some previous =>
    if c.current < 0 ∨ previous < 0 then
      .error (.unrecognized (.negativeCounter c.current previous))
    else
      let growth := max ((checkedSub c.current previous).getD 0) 0
      match toSize? growth with
      | some n => .ok n
      | none => .error (.unrecognized (.growthOutOfRange growth))

/-- The release with this number. -/
def ReleaseData.release? (d : ReleaseData) (index : Nat) : Option Release :=
  d.releases.lookup (toString index)

/-- The next `count` releases from `index` on; all of them have to be there. -/
def ReleaseData.collect (d : ReleaseData) (index : Nat) : Nat → Except Rejection (List Release)
  | 0 => .ok []
  | count + 1 =>
    match d.release? index with
    | none => .error (.missingItem index)
    | some r => (d.collect (index + 1) count).map (r :: ·)

def RepoMetadata.releaseAlert (m : RepoMetadata) (r : Release) : Alert :=
  .newRelease m.repoName r.releaseName r.tagName m.lastMonitored m.repoParentId m.repoId

def RepoFailure.alert (f : RepoFailure) : Alert :=
  .pageInaccessible f.repoName f.time f.repoParentId f.repoId

/-- The alerts of a result, all of them or none. -/
def GitHubResult.alerts : GitHubResult → Except Rejection (List Alert)
  | .success metadata data => do
    let delta ← data.counter.delta
    let releases ← data.collect 0 delta
    return releases.map metadata.releaseAlert
  | .failure metadata => .ok [metadata.alert]

/-- The alerts of a payload. -/
def gitHubAlerts (payload : Json) : Except Rejection (List Alert) := do
  (← GitHubResult.ofJson payload).alerts

/-- The rule of one source. -/
structure Rule where
  source : String
  alerts : Json → Except Rejection (List Alert)

def Rule.gitHub : Rule := ⟨"github", gitHubAlerts⟩

/-- The rule for a source, if there is one. -/
def Rule.forSource (source : String) : Option Rule :=
  if source = Rule.gitHub.source then some .gitHub else none

/-- The alerts of a message body. -/
def Rule.classify (r : Rule) (body : ByteArray) : Except Rejection (List Alert) :=
  match readJsonBytes? body with
  | none => .error (.unrecognized .notJson)
  | some payload => r.alerts payload

end AlertRelay
