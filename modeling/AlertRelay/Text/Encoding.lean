/-! Where bytes stop being UTF-8. -/

namespace AlertRelay

/-- The first byte that does not fit, and how many bytes from there on are
refused together; no number if the bytes end within a character. -/
structure Utf8Fault where
  index : Nat
  length : Option Nat
deriving DecidableEq, Repr

def Utf8Fault.message (f : Utf8Fault) : String :=
  match f.length with
  | some n =>
    "invalid utf-8 sequence of " ++ toString n ++ " bytes from index " ++ toString f.index
  | none => "incomplete utf-8 byte sequence from index " ++ toString f.index

/-- How many bytes follow a first byte, and the bounds of the first of them. -/
def utf8Lead? (b : UInt8) : Option (Nat × UInt8 × UInt8) :=
  if b < 0x80 then some (0, 0, 0)
  else if 0xc2 ≤ b && b ≤ 0xdf then some (1, 0x80, 0xbf)
  else if b = 0xe0 then some (2, 0xa0, 0xbf)
  else if b = 0xed then some (2, 0x80, 0x9f)
  else if 0xe1 ≤ b && b ≤ 0xef then some (2, 0x80, 0xbf)
  else if b = 0xf0 then some (3, 0x90, 0xbf)
  else if 0xf1 ≤ b && b ≤ 0xf3 then some (3, 0x80, 0xbf)
  else if b = 0xf4 then some (3, 0x80, 0x8f)
  else none

/-- The bytes still owed to a character that began at `start`; the next one
lies between `low` and `high`. -/
structure Utf8State where
  index : Nat
  start : Nat
  owed : Nat
  low : UInt8
  high : UInt8

def Utf8State.step (s : Utf8State) (b : UInt8) : Except Utf8Fault Utf8State :=
  match s.owed with
  | 0 =>
    match utf8Lead? b with
    | some (n, low, high) => .ok ⟨s.index + 1, s.index, n, low, high⟩
    | none => .error ⟨s.index, some 1⟩
  | n + 1 =>
    if s.low ≤ b && b ≤ s.high then .ok ⟨s.index + 1, s.start, n, 0x80, 0xbf⟩
    else .error ⟨s.start, some (s.index - s.start)⟩

/-- The first fault of the bytes. -/
def utf8Fault? (bytes : List UInt8) : Option Utf8Fault :=
  match bytes.foldlM Utf8State.step ⟨0, 0, 0, 0, 0⟩ with
  | .error f => some f
  | .ok s => if s.owed = 0 then none else some ⟨s.start, none⟩

theorem utf8Fault?_nil : utf8Fault? [] = none := rfl

/-- The text of bytes without a fault. -/
def utf8Text (bytes : List UInt8) : String := (String.fromUTF8? ⟨bytes.toArray⟩).getD ""

/-- The text of bytes, or their first fault. -/
def decodeUtf8 (bytes : List UInt8) : Except Utf8Fault String :=
  match utf8Fault? bytes with
  | none => .ok (utf8Text bytes)
  | some f => .error f

end AlertRelay
