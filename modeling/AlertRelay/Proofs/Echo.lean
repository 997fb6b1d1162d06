import AlertRelay.Payload.GitHub
import AlertRelay.Proofs.Decoding
import AlertRelay.Proofs.WireReading

/-! What a relay makes of its own alerts when they come back to it. The text of an
alert is an object with the six members of an alert, whatever its strings say, and
neither a result nor an error is among them. -/

namespace AlertRelay

theorem memberValue?_eq_none {members : List (String × Json)} {name : String} (h : ∀ m ∈ members, m.1 ≠ name) :
    memberValue? members name = none :=
  List.lookup_eq_none_iff.mpr fun m hm => bne_iff_ne.mpr (h m hm).symm

def Alert.memberNames : List String := ["alert_code", "message", "severity", "parent_id", "origin_id", "timestamp"]

/-- A timestamp is read as a value of which nothing is inside; one that is not finite is read as null. -/
theorem timestamp_reads (x : Float) :
    ∃ d v, Reads (Json.float x).chars d ∧ ∀ depth, Document.valueWithin d depth = some v := by
  by_cases hx : x.isFinite = true
  · obtain ⟨n, y, -, hvalue, hread⟩ := float_reads hx
    exact ⟨.number n, .float y, hread, fun _ => hvalue⟩
  · have hchars : (Json.float x).chars = ['n', 'u', 'l', 'l'] := by
      rw [Json.chars, numberChars, if_neg hx]
    exact ⟨.null, .null, by rw [hchars]; exact null_closes.reads, fun _ => rfl⟩

/-- The text of an alert is read as an object that has no members but those of an alert. -/
theorem Alert.readJsonBytes?_wire (a : Alert) : ∃ members, readJsonBytes? a.wire.toUTF8 = some (.object members) ∧
    ∀ m ∈ members, m.1 ∈ memberNames := by
  obtain ⟨d, v, hread, hvalue⟩ := timestamp_reads a.timestamp
  let members : List (String × Json) := [
    ("alert_code", .object (orderMembers [("name", .text a.code.name), ("code", .text a.code.code)])),
    ("message", .text a.message), ("severity", .text a.severity.wireName), ("parent_id", .text a.parentId),
    ("origin_id", .text a.originId), ("timestamp", v)]
  have hscan : scanDocument a.wire.toList = (.object (a.textMembers ++ [(some "timestamp", d)]) true, true) := by
    rw [wire, Json.print, String.toList_ofList]
    exact (a.toJson_closes hread).parses.scanDocument
  have hmembers : memberValues (a.textMembers ++ [(some "timestamp", d)]) 126 = some members := by
    simp [textMembers, memberValues, Document.valueWithin, AlertCode.document, hvalue, members]
  have hdocument : Document.value? (.object (a.textMembers ++ [(some "timestamp", d)]) true) =
      some (.object (orderMembers members)) := by
    rw [Document.value?, depthLimit, Document.valueWithin, hmembers]
    rfl
  refine ⟨orderMembers members, ?_, fun m hm => ?_⟩
  · rw [readJsonBytes?_toUTF8, readJson?, hscan]
    exact hdocument
  · have hname := List.mem_map_of_mem (f := Prod.fst) (mem_orderMembers hm)
    exact hname

/-- The rule takes no alert for a payload. -/
theorem Rule.gitHub_classify_wire (a : Alert) :
    Rule.gitHub.classify a.wire.toUTF8 = .error (.unrecognized .noOutcome) := by
  obtain ⟨members, hread, hnames⟩ := a.readJsonBytes?_wire
  have hresult : memberValue? members "result" = none :=
    memberValue?_eq_none fun m hm he => absurd (he ▸ hnames m hm) (by decide)
  have herror : memberValue? members "error" = none :=
    memberValue?_eq_none fun m hm he => absurd (he ▸ hnames m hm) (by decide)
  have hpayload : gitHubAlerts (.object members) = .error (.unrecognized .noOutcome) := by
    rw [gitHubAlerts, GitHubResult.ofJson_object_of_neither hresult herror]
    rfl
  simp only [classify, hread]
  exact hpayload

end AlertRelay
