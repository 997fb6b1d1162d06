import AlertRelay.Decimal.Shortest

/-! The text of a double: the shortest digits that read back, positional for
exponents from -5 to 15 and with an explicit exponent elsewhere. -/

namespace AlertRelay

/-- The sign, significand and exponent of the double with these bits. -/
structure Unpacked where
  negative : Bool
  significand : Nat
  exponent : Int
deriving DecidableEq, Repr

def Unpacked.ofBits (bits : UInt64) : Unpacked :=
  let n := bits.toNat
  let fraction := n % fullSignificand
  let biased : Nat := n / fullSignificand % 2048
  { negative := UInt64.size / 2 ≤ n
    significand := if biased = 0 then fraction else fraction + fullSignificand
    exponent := if biased = 0 then -1074 else (biased : Int) - 1075 }

/-- Digits without the zeros at their end. -/
def dropEndZeros (ds : List Char) : List Char :=
  (ds.reverse.dropWhile (· == '0')).reverse

/-- Digits with a point after the first `n`, and a zero where a side is empty. -/
def withPoint (ds : List Char) (n : Nat) : List Char :=
  let whole := ds.take n ++ List.replicate (n - ds.length) '0'
  let fraction := ds.drop n
  whole ++ '.' :: (if fraction.isEmpty then ['0'] else fraction)

/-- A point after the first digit, if more follow, and the exponent with its sign. -/
def scientific (ds : List Char) (e : Int) : List Char :=
  let exponent := (if e < 0 then '-' else '+') :: decimalDigits e.natAbs
  match ds with
  | [] => []
  | [d] => d :: 'e' :: exponent
  | d :: rest => d :: '.' :: rest ++ 'e' :: exponent

/-- Digits whose first one has the decimal exponent `e`. -/
def placeDigits (ds : List Char) (e : Int) : List Char :=
  if e < -5 ∨ 16 ≤ e then scientific ds e
  else if e < 0 then '0' :: '.' :: List.replicate (-e - 1).toNat '0' ++ ds
  else withPoint ds (e + 1).toNat

def Decimal.chars (d : Decimal) : List Char :=
  let ds := decimalDigits d.digits
  placeDigits (dropEndZeros ds) (d.exponent + ds.length - 1)

def Unpacked.chars (u : Unpacked) : List Char :=
  let magnitude :=
    if u.significand = 0 then ['0', '.', '0']
    else (shortestDecimal u.significand u.exponent).chars
  if u.negative then '-' :: magnitude else magnitude

/-- The text of a finite double. -/
def floatChars (x : Float) : List Char := (Unpacked.ofBits x.toBits).chars

/-- The text of any double; the values that are no numbers have names. -/
def floatText (x : Float) : String :=
  if x.isNaN then "NaN"
  else if x.isInf then (if x < 0 then "-inf" else "inf")
  else String.ofList (floatChars x)

end AlertRelay
