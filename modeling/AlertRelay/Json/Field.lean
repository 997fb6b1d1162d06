import AlertRelay.Json.Mismatch

/-! Typed parts of a JSON value. A record is read from an object by the names
of its fields or from an array by their order. -/

namespace AlertRelay

def Json.wrongType {α : Type} (v : Json) (expected : Expected) : Except Mismatch α :=
  .error (.wrongType v.found expected)

def Json.asText : Json → Except Mismatch String
  | .text s => .ok s
  | v => v.wrongType .text

/-- The double nearest to an integer of 64 bits. -/
def intToFloat (n : Int) : Float :=
  if n < 0 then -n.natAbs.toUInt64.toFloat else n.toNat.toUInt64.toFloat

def Json.asReal : Json → Except Mismatch Float
  | .int n => .ok (intToFloat n)
  | .float x => .ok x
  | v => v.wrongType .real

/-- A signed integer of 64 bits. -/
def Json.asSigned : Json → Except Mismatch Int
  | .int n => if n.toNat < UInt64.size / 2 then .ok n else .error (.wrongValue (.int n) .signed)
  | v => v.wrongType .signed

/-- An unsigned integer of 64 bits. -/
def Json.asUnsigned (expected : Expected) : Json → Except Mismatch Nat
  | .int n => if n < 0 then .error (.wrongValue (.int n) expected) else .ok n.toNat
  | v => v.wrongType expected

/-- A value that may be null. -/
def Json.orNull {α : Type} (read : Json → Except Mismatch α) : Json → Except Mismatch (Option α)
  | .null => .ok none
  | v => (read v).map some

def Json.asNull : Json → Except Mismatch Unit
  | .null => .ok ()
  | v => v.wrongType .unit

/-- Reads the member with this name, if there is one. -/
def readMember {α : Type} (members : List (String × Json)) (name : String)
    (read : Json → Except Mismatch α) : Except Mismatch (Option α) :=
  match memberValue? members name with
  | none => .ok none
  | some v => (read v).map some

/-- A field without which there is no record. -/
def requireField {α : Type} (name : String) : Option α → Except Mismatch α
  | some a => .ok a
  | none => .error (.missingField name)

/-- Reads the next element of an array as the field with this index. -/
def readElement {α : Type} (shape : RecordShape) (index : Nat) (read : Json → Except Mismatch α) :
    List Json → Except Mismatch (α × List Json)
  | [] => .error (.wrongLength index (.elements shape))
  | v :: rest => (read v).map fun a => (a, rest)

/-- An array must not go on after the last field. -/
def endElements (all rest : List Json) : Except Mismatch Unit :=
  if rest.isEmpty then .ok () else .error (.wrongLength all.length .fewerElements)

end AlertRelay
