import AlertRelay.Json.Field
import AlertRelay.Json.Scan

/-! Reading a record straight from a text. The text is read from left to right
and the first fault counts, be it in its form or in its content. A value that
cannot have the expected type is not looked into, and members with unknown
names are skipped whatever they hold. -/

namespace AlertRelay

/-- Reads a scalar; a container is known by its first character. -/
def Document.scalar {α : Type} (d : Document) (read : Json → Except Mismatch α) :
    Except ReadError α :=
  let v := match d with
    | .array _ _ => some (.array [])
    | .object _ _ => some (.object [])
    | d => d.value?
  match v with
  | none => .error .malformed
  | some v => (read v).mapError .mismatch

/-- Refuses a second value for a field. -/
def refuseSecond {α : Type} (field : Option α) (name : String) : Except ReadError Unit :=
  if field.isSome then .error (.mismatch (.duplicateField name)) else .ok ()

/-- How a record is read: from members, which fill a draft one by one, or from
elements in order. -/
structure RecordReader (δ α : Type) where
  shape : RecordShape
  blank : δ
  member : δ → String → Document → Except ReadError δ
  finish : δ → Except Mismatch α
  elements : List Document → Bool → Except ReadError α

/-- Fills a draft with one member. -/
def RecordReader.fill {δ α : Type} (r : RecordReader δ α) (draft : δ)
    (m : Option String × Document) : Except ReadError δ :=
  match m.1 with
  | none => .error .malformed
  | some name => r.member draft name m.2

/-- Reads a record from a document; missing fields are noticed at the closing brace. -/
def RecordReader.read {δ α : Type} (r : RecordReader δ α) : Document → Except ReadError α
  | .object members closed => do
    let draft ← members.foldlM r.fill r.blank
    if closed then (r.finish draft).mapError .mismatch else .error .malformed
  | .array items closed => r.elements items closed
  | d => d.scalar fun v => v.wrongType (.record r.shape)

/-- The next element as the field with this index; `default` stands in where the array ends. -/
def nextElement {α : Type} (shape : RecordShape) (index : Nat) (default : Option α)
    (read : Document → Except ReadError α) (closed : Bool) :
    List Document → Except ReadError (α × List Document)
  | d :: rest => (read d).map fun a => (a, rest)
  | [] =>
    if closed then
      match default with
      | some a => .ok (a, [])
      | none => .error (.mismatch (.wrongLength index (.elements shape)))
    else .error .malformed

/-- The end of an array that has been read as a record. -/
def lastElement (closed : Bool) (rest : List Document) : Except ReadError Unit :=
  if closed && rest.isEmpty then .ok () else .error .malformed

/-- Reads a scanned document as a record; what follows the record is looked at last. -/
def RecordReader.readWhole {δ α : Type} (r : RecordReader δ α) (scanned : Document × Bool) :
    Except ReadError α := do
  let a ← r.read scanned.1
  if scanned.2 then .ok a else .error .malformed

def RecordReader.readText {δ α : Type} (r : RecordReader δ α) (text : List Char) :
    Except ReadError α :=
  r.readWhole (scanDocument text)

/-- Reads bytes as a record; strings that are skipped need not be UTF-8. -/
def RecordReader.readBytes {δ α : Type} (r : RecordReader δ α) (bytes : ByteArray) :
    Except ReadError α :=
  r.readWhole (scanBytes bytes)

end AlertRelay
