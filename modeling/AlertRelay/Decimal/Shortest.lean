/-! The shortest decimal that reads back as a given binary fraction. A double
`m * 2 ^ q` stands for the interval of reals that round to it; the first power
of ten with a multiple inside the interval fixes the number of digits, and of
two such multiples the nearer one is taken. -/

namespace AlertRelay

/-- The number `digits * 10 ^ exponent`. -/
structure Decimal where
  digits : Nat
  exponent : Int
deriving DecidableEq, Repr

/-- The decimal digits of a number, most significant first. -/
def decimalDigits (n : Nat) : List Char := Nat.toDigits 10 n

/-- A positive number `value / unit` with the bounds of the reals that round
to it; `closed` tells whether the bounds themselves do. -/
structure Rounding where
  lower : Nat
  value : Nat
  upper : Nat
  unit : Nat
  closed : Bool
deriving DecidableEq, Repr

/-- The significands of doubles with all their bits start here, at `2 ^ 52`. -/
def fullSignificand : Nat := 0x10000000000000

/-- The interval around `m * 2 ^ q`, in quarters of a unit in the last place.
At a power of two the neighbour below is only half as far away. -/
def Rounding.ofBinary (m : Nat) (q : Int) : Rounding :=
  let low := if m = fullSignificand ∧ -1074 < q then 4 * m - 1 else 4 * m - 2
  let up := Nat.pow 2 (q - 2).toNat
  { lower := low * up
    value := 4 * m * up
    upper := (4 * m + 2) * up
    unit := Nat.pow 2 (2 - q).toNat
    closed := m % 2 = 0 }

/-- The same number with its unit multiplied by `10 ^ k`. -/
def Rounding.scale (r : Rounding) (k : Int) : Rounding :=
  let f := Nat.pow 10 (-k).toNat
  { r with
    lower := r.lower * f
    value := r.value * f
    upper := r.upper * f
    unit := r.unit * Nat.pow 10 k.toNat }

/-- Whether `d` units round to the number. -/
def Rounding.admits (r : Rounding) (d : Nat) : Bool :=
  if r.closed then decide (r.lower ≤ d * r.unit ∧ d * r.unit ≤ r.upper)
  else decide (r.lower < d * r.unit ∧ d * r.unit < r.upper)

/-- The multiple of the unit that rounds to the number, if one does: the nearer
of the two neighbours, and the even one at equal distance. -/
def Rounding.nearest? (r : Rounding) : Option Nat :=
  let d := r.value / r.unit
  let below := r.value - d * r.unit
  let above := (d + 1) * r.unit - r.value
  match r.admits d, r.admits (d + 1) with
  | true, true => some (if below < above ∨ below = above ∧ d % 2 = 0 then d else d + 1)
  | true, false => some d
  | false, true => some (d + 1)
  | false, false => none

/-- The least `k` up to `fuel` for which `value * 10 ^ k` reaches `unit`. -/
def firstPlace (value unit : Nat) : Nat → Nat
  | 0 => 0
  | fuel + 1 => if unit ≤ value then 0 else firstPlace (value * 10) unit fuel + 1

/-- The exponent of the first decimal digit. -/
def Rounding.magnitude (r : Rounding) : Int :=
  if r.unit ≤ r.value then ((decimalDigits (r.value / r.unit)).length : Int) - 1
  else -(firstPlace r.value r.unit 330 : Int)

/-- Tries one decimal place more at a time, from the place `k` on. -/
def Rounding.search (r : Rounding) (k : Int) : Nat → Decimal
  | 0 => ⟨r.value, 0⟩
  | fuel + 1 =>
    match (r.scale k).nearest? with
    | some d => ⟨d, k⟩
    | none => r.search (k - 1) fuel

/-- The shortest decimal that rounds to `m * 2 ^ q`, for `0 < m`. -/
def shortestDecimal (m : Nat) (q : Int) : Decimal :=
  let r := Rounding.ofBinary m q
  r.search r.magnitude 18

end AlertRelay
