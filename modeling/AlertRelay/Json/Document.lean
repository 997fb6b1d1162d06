import AlertRelay.Json.Numeral

/-! What a text says as far as it is JSON. Containers that the text leaves open
and values that it spoils are kept and marked, so that a reader can tell which
fault comes first. A document without such marks has a JSON value. -/

namespace AlertRelay

/-- The characters of a string literal while it is read, latest first. An
escaped surrogate waits for its other half; `valid` is lost when it is not found
and when bytes in the literal spell no character. -/
structure Spelling where
  chars : List Char
  surrogate : Option Nat
  valid : Bool
deriving DecidableEq, Repr

def Spelling.empty : Spelling := ⟨[], none, true⟩

def Spelling.push (s : Spelling) (c : Char) : Spelling :=
  { chars := c :: s.chars, surrogate := none, valid := s.valid && s.surrogate.isNone }

/-- Spoils a literal. -/
def Spelling.spoil (s : Spelling) : Spelling := { s with valid := false }

/-- The character of a pair of surrogates. -/
def pairedChar (high low : Nat) : Char :=
  Char.ofNat (0x10000 + (high - 0xd800) * 0x400 + (low - 0xdc00))

/-- Adds an escaped code unit of 16 bits. -/
def Spelling.pushUnit (s : Spelling) (u : Nat) : Spelling :=
  match s.surrogate with
  | some high =>
    if 0xdc00 ≤ u ∧ u < 0xe000 then
      { s with chars := pairedChar high u :: s.chars, surrogate := none }
    else s.spoil
  | none =>
    if 0xd800 ≤ u ∧ u < 0xdc00 then { s with surrogate := some u }
    else if 0xdc00 ≤ u ∧ u < 0xe000 then s.spoil
    else s.push (Char.ofNat u)

/-- The text that was spelled, if it is one. -/
def Spelling.text? (s : Spelling) : Option String :=
  if s.valid && s.surrogate.isNone then some (String.ofList s.chars.reverse) else none

inductive Document
  | null
  | bool (b : Bool)
  | number (n : Numeral)
  | text (s : Option String)
  | array (items : List Document) (closed : Bool)
  | object (members : List (Option String × Document)) (closed : Bool)
  | broken

/-- How many containers may be open around a value, itself included. -/
def depthLimit : Nat := 127

mutual

/-- The value of a document nested at most `depth` containers deep. -/
def Document.valueWithin : Document → Nat → Option Json
  | .null, _ => some .null
  | .bool b, _ => some (.bool b)
  | .number n, _ => n.value?
  | .text s, _ => s.map .text
  | .array _ _, 0 => none
  | .array items closed, depth + 1 => if closed then (itemValues items depth).map .array else none
  | .object _ _, 0 => none
  | .object members closed, depth + 1 =>
    if closed then (memberValues members depth).map fun ms => .object (orderMembers ms) else none
  | .broken, _ => none

def itemValues : List Document → Nat → Option (List Json)
  | [], _ => some []
  | d :: rest, depth =>
    match d.valueWithin depth with
    | none => none
    | some v => (itemValues rest depth).map (v :: ·)

def memberValues : List (Option String × Document) → Nat → Option (List (String × Json))
  | [], _ => some []
  | (name, d) :: rest, depth =>
    match name, d.valueWithin depth with
    | some n, some v => (memberValues rest depth).map ((n, v) :: ·)
    | _, _ => none

end

/-- The JSON value of a document without faults. -/
def Document.value? (d : Document) : Option Json := d.valueWithin depthLimit

end AlertRelay
