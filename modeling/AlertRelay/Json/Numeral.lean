import AlertRelay.Json.Value

/-! Numbers as JSON texts write them, and the values they are read as. Integers
of 64 bits are exact. A fraction is read in one pass: as many digits as fit 64
bits make the significand, and powers of ten are applied to its double, so the
last place may differ from the nearest double. -/

namespace AlertRelay

/-- A number as written; digits are most significant first. -/
structure Numeral where
  negative : Bool
  whole : List Nat
  fraction : List Nat
  exponent : Option (Bool × List Nat)
deriving DecidableEq, Repr

/-- A significand of 64 bits and a power of ten; `full` once a digit did not fit. -/
structure Significand where
  value : Nat
  exponent : Int
  full : Bool
deriving DecidableEq, Repr

/-- A digit before the point counts by its place if it no longer fits. -/
def Significand.pushWhole (s : Significand) (d : Nat) : Significand :=
  if !s.full && decide (s.value * 10 + d < UInt64.size) then { s with value := s.value * 10 + d }
  else { s with exponent := s.exponent + 1, full := true }

/-- A digit after the point is dropped if it no longer fits. -/
def Significand.pushFraction (s : Significand) (d : Nat) : Significand :=
  if !s.full && decide (s.value * 10 + d < UInt64.size) then
    { s with value := s.value * 10 + d, exponent := s.exponent - 1 }
  else { s with full := true }

/-- The digits before the point. -/
def Numeral.wholePart (n : Numeral) : Significand :=
  n.whole.foldl Significand.pushWhole ⟨0, 0, false⟩

/-- All digits; those after the point start anew with the room that is left. -/
def Numeral.significand (n : Numeral) : Significand :=
  n.fraction.foldl Significand.pushFraction { n.wholePart with full := false }

/-- The double nearest to a power of ten. -/
def powerOfTen (k : Nat) : Float := Float.ofScientific 1 false k

/-- Divides by `10 ^ k`, in steps whose powers are doubles. -/
def divideByTens (x : Float) (k : Nat) : Float :=
  if k ≤ 308 then x / powerOfTen k
  else if x == 0 then x
  else divideByTens (x / powerOfTen 308) (k - 308)
termination_by k

/-- Multiplies by `10 ^ k`, unless the power exceeds every double. -/
def multiplyByTens (x : Float) (k : Nat) : Option Float :=
  if k ≤ 308 then some (x * powerOfTen k)
  else if x == 0 then some x
  else none

/-- The double for `value * 10 ^ exponent`; none if it is too large. -/
def scaleByTens (value : Nat) (exponent : Int) : Option Float :=
  let x := value.toUInt64.toFloat
  let scaled :=
    if 0 ≤ exponent then multiplyByTens x exponent.toNat
    else some (divideByTens x exponent.natAbs)
  scaled.filter Float.isFinite

/-- Exponents are counted in 31 bits. -/
def exponentLimit : Nat := 0x7fffffff

/-- The value of the digits of an exponent, or one above the limit if it is larger. -/
def exponentValue (ds : List Nat) : Nat :=
  ds.foldl (fun e d => min (10 * e + d) (exponentLimit + 1)) 0

/-- The magnitude of a numeral as a double. -/
def Numeral.magnitude? (n : Numeral) : Option Float :=
  let s := n.significand
  match n.exponent with
  | none => scaleByTens s.value s.exponent
  | some (below, ds) =>
    let e := exponentValue ds
    if exponentLimit < e then
      if !below && s.value != 0 then none else some 0
    else scaleByTens s.value (if below then s.exponent - e else s.exponent + e)

/-- The integer that a numeral stands for, if it has the form of one and fits 64
bits. Zero with a sign is no integer. -/
def Numeral.int? (n : Numeral) : Option Int :=
  let s := n.wholePart
  if n.fraction.isEmpty && n.exponent.isNone && !s.full then
    if !n.negative then some s.value
    else if 0 < s.value ∧ s.value ≤ UInt64.size / 2 then some (-s.value)
    else none
  else none

/-- The value of a numeral; none if it is out of range. -/
def Numeral.value? (n : Numeral) : Option Json :=
  match n.int? with
  | some i => some (.int i)
  | none => n.magnitude?.map fun x => .float (if n.negative then -x else x)

end AlertRelay
