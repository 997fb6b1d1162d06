import AlertRelay.Json.Field

/-! The outer form of a monitoring result: a `result` with metadata and data, or
an `error` with metadata. A `result` is looked at first. A payload of another form
is rejected. -/

namespace AlertRelay

/-- What makes a payload unrecognized. -/
inductive PayloadFault
  | notJson
  | notObject
  | noOutcome
  | missingMember (name : String)
  | content (name : String) (mismatch : Mismatch)
  | negativeCounter (current previous : Int)
  | growthOutOfRange (growth : Int)
  | described (text : String)

def PayloadFault.message : PayloadFault → String
  | .notJson => "invalid JSON: " ++ ReadError.malformed.message
  | .notObject => "payload is not a JSON object"
  | .noOutcome => "expected a `result` or `error` key"
  | .missingMember name => "missing `" ++ name ++ "`"
  | .content name m => "`" ++ name ++ "`: " ++ m.message
  | .negativeCounter current previous =>
    "negative counter: current " ++ toString current ++ ", previous " ++ toString previous
  | .growthOutOfRange growth => "counter delta " ++ toString growth ++ " out of range"
  | .described text => text

inductive Rejection
  | unrecognized (fault : PayloadFault)
  | missingItem (index : Nat)

def Rejection.message : Rejection → String
  | .unrecognized fault => "received unexpected data: " ++ fault.message
  | .missingItem index =>
    "payload announced item " ++ toString index ++ " but did not supply it"

inductive Envelope (μ δ φ : Type)
  | success (metadata : μ) (data : δ)
  | failure (metadata : φ)

/-- Reads a member that has to be there. -/
def readContent {α : Type} (parent : Json) (name : String) (read : Json → Except Mismatch α) :
    Except Rejection α :=
  match parent.get? name with
  | none => .error (.unrecognized (.missingMember name))
  | some v => (read v).mapError fun m => .unrecognized (.content name m)

/-- Reads an envelope, its parts by the given functions. -/
def Envelope.ofJson {μ δ φ : Type} (metadata : Json → Except Mismatch μ)
    (data : Json → Except Mismatch δ) (failure : Json → Except Mismatch φ)
    (payload : Json) : Except Rejection (Envelope μ δ φ) :=
  match payload with
  | .object members =>
    match memberValue? members "result", memberValue? members "error" with
    | some result, _ => do
      let m ← readContent result "meta_data" metadata
      let d ← readContent result "data" data
      return .success m d
    | none, some error => do return .failure (← readContent error "meta_data" failure)
    | none, none => .error (.unrecognized .noOutcome)
  | _ => .error (.unrecognized .notObject)

/-- An envelope whose parts may be any values. -/
def Envelope.ofAnyJson (payload : Json) : Except Rejection (Envelope Json Json Json) :=
  Envelope.ofJson .ok .ok .ok payload

end AlertRelay
