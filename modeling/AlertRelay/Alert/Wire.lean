import AlertRelay.Alert
import AlertRelay.Json.Printing
import AlertRelay.Json.Record

/-! The wire form of alerts: compact JSON with the fields in a fixed order. -/

namespace AlertRelay

def Severity.wireName : Severity → String
  | .info => "INFO"
  | .error => "ERROR"

def AlertCode.toJson (c : AlertCode) : Json :=
  .object [("name", .text c.name), ("code", .text c.code)]

def Alert.toJson (a : Alert) : Json :=
  .object [
    ("alert_code", a.code.toJson),
    ("message", .text a.message),
    ("severity", .text a.severity.wireName),
    ("parent_id", .text a.parentId),
    ("origin_id", .text a.originId),
    ("timestamp", .float a.timestamp)]

/-- The text that is published for an alert. -/
def Alert.wire (a : Alert) : String := a.toJson.print

def severityNames : List String := ["INFO", "ERROR"]

def severityNamed (name : String) : Except Mismatch Severity :=
  if name = "INFO" then .ok .info
  else if name = "ERROR" then .ok .error
  else .error (.unknownVariant name severityNames)

/-- A severity by its name, or as an object whose only member has that name and is null. -/
def Json.asSeverity : Json → Except Mismatch Severity
  | .text s => severityNamed s
  | .object [(name, v)] => do
    let s ← severityNamed name
    v.asNull
    return s
  | .object _ => .error (.wrongValue .map .singleKey)
  | v => v.wrongType .variant

/-- A severity in a text; the name is looked at before what follows it. -/
def Document.readSeverity : Document → Except ReadError Severity
  | .text (some s) => (severityNamed s).mapError .mismatch
  | .object ((some name, d) :: more) closed => do
    let s ← (severityNamed name).mapError .mismatch
    d.scalar Json.asNull
    if closed && more.isEmpty then .ok s else .error .malformed
  | _ => .error .malformed

def Document.readString (d : Document) : Except ReadError String := d.scalar Json.asText

structure AlertCode.Draft where
  name : Option String := none
  code : Option String := none

def AlertCode.Draft.member (c : Draft) (name : String) (d : Document) : Except ReadError Draft :=
  if name = "name" then do
    refuseSecond c.name name
    return { c with name := some (← d.readString) }
  else if name = "code" then do
    refuseSecond c.code name
    return { c with code := some (← d.readString) }
  else .ok c

def AlertCode.Draft.finish (c : Draft) : Except Mismatch AlertCode := do
  return { name := ← requireField "name" c.name, code := ← requireField "code" c.code }

def AlertCode.shape : RecordShape := ⟨"AlertCode", 2⟩

def AlertCode.reader : RecordReader AlertCode.Draft AlertCode where
  shape := AlertCode.shape
  blank := {}
  member := AlertCode.Draft.member
  finish := AlertCode.Draft.finish
  elements items closed := do
    let (name, items) ← nextElement AlertCode.shape 0 none Document.readString closed items
    let (code, items) ← nextElement AlertCode.shape 1 none Document.readString closed items
    lastElement closed items
    return { name, code }

structure Alert.Draft where
  code : Option AlertCode := none
  message : Option String := none
  severity : Option Severity := none
  parentId : Option String := none
  originId : Option String := none
  timestamp : Option Float := none

def Document.readReal (d : Document) : Except ReadError Float := d.scalar Json.asReal

def Alert.Draft.member (a : Draft) (name : String) (d : Document) : Except ReadError Draft :=
  if name = "alert_code" then do
    refuseSecond a.code name
    return { a with code := some (← AlertCode.reader.read d) }
  else if name = "message" then do
    refuseSecond a.message name
    return { a with message := some (← d.readString) }
  else if name = "severity" then do
    refuseSecond a.severity name
    return { a with severity := some (← d.readSeverity) }
  else if name = "parent_id" then do
    refuseSecond a.parentId name
    return { a with parentId := some (← d.readString) }
  else if name = "origin_id" then do
    refuseSecond a.originId name
    return { a with originId := some (← d.readString) }
  else if name = "timestamp" then do
    refuseSecond a.timestamp name
    return { a with timestamp := some (← d.readReal) }
  else .ok a

def Alert.Draft.finish (a : Draft) : Except Mismatch Alert := do
  return {
    code := ← requireField "alert_code" a.code
    message := ← requireField "message" a.message
    severity := ← requireField "severity" a.severity
    parentId := ← requireField "parent_id" a.parentId
    originId := ← requireField "origin_id" a.originId
    timestamp := ← requireField "timestamp" a.timestamp }

def Alert.shape : RecordShape := ⟨"AlertEvent", 6⟩

def Alert.reader : RecordReader Alert.Draft Alert where
  shape := Alert.shape
  blank := {}
  member := Alert.Draft.member
  finish := Alert.Draft.finish
  elements items closed := do
    let (code, items) ← nextElement Alert.shape 0 none AlertCode.reader.read closed items
    let (message, items) ← nextElement Alert.shape 1 none Document.readString closed items
    let (severity, items) ← nextElement Alert.shape 2 none Document.readSeverity closed items
    let (parentId, items) ← nextElement Alert.shape 3 none Document.readString closed items
    let (originId, items) ← nextElement Alert.shape 4 none Document.readString closed items
    let (timestamp, items) ← nextElement Alert.shape 5 none Document.readReal closed items
    lastElement closed items
    return { code, message, severity, parentId, originId, timestamp }

/-- Reads an alert from its wire form. -/
def Alert.ofWire (text : String) : Except ReadError Alert := Alert.reader.readText text.toList

/-- Reads an alert from bytes. -/
def Alert.ofBytes (body : ByteArray) : Except ReadError Alert := Alert.reader.readBytes body

end AlertRelay
