/-!
Double precision numbers cut and rounded to whole values by their binary form.
A finite number is its significand times two to the power of its exponent
field less 1075, so the exponent field alone tells how many fraction bits the
significand has.
-/

namespace MiniAbap.Number

def twoTo (power : Nat) : Nat :=
  Nat.pow 2 power

def tenTo (power : Nat) : Nat :=
  Nat.pow 10 power

def exponentField (x : Float) : Nat :=
  ((x.toBits >>> 52) &&& 0x7ff).toNat

def fractionField (x : Float) : Nat :=
  (x.toBits &&& 0xfffffffffffff).toNat

def isNegative (x : Float) : Bool :=
  x.toBits >>> 63 == 1

def significand (x : Float) : Nat :=
  if exponentField x = 0 then fractionField x else fractionField x + twoTo 52

def wholeField : Nat := 1075

def oneField : Nat := 1023

/-- Drops the fraction. Both zeros, and everything between minus one and one,
    give positive zero. -/
def truncate (x : Float) : Float :=
  if exponentField x < oneField then 0
  else if exponentField x < wholeField then
    let fractionBits := (wholeField - exponentField x).toUInt64
    Float.ofBits ((x.toBits >>> fractionBits) <<< fractionBits)
  else x

/-- Rounds to the nearest whole number, halves away from zero. The sign is
    kept, also that of zero. -/
def roundHalfAway (x : Float) : Float :=
  if exponentField x < wholeField then
    let fractionBits := wholeField - exponentField x
    let whole := (significand x + twoTo (fractionBits - 1)) / twoTo fractionBits
    let magnitude := whole.toUInt64.toFloat
    if isNegative x then -magnitude else magnitude
  else x

def powerTimes (product base : Float) (exponent : Nat) : Float :=
  let product := if exponent % 2 = 1 then product * base else product
  if exponent / 2 = 0 then product
  else powerTimes product (base * base) (exponent / 2)
termination_by exponent
decreasing_by omega

/-- Decimal places beyond this many never round anything. -/
def mostDecimals : Nat := 2147483647

/-- Rounds to a number of decimal places, halves away from zero. Where the
    scaling leaves the range of finite numbers the value is kept as it is. -/
def roundToDecimals (x : Float) (decimals : Nat) : Float :=
  if mostDecimals < decimals then x
  else
    let scale := powerTimes 1 10 decimals
    if scale.isFinite then
      let rounded := roundHalfAway (x * scale) / scale
      if rounded.isFinite then rounded else x
    else x

def largestCount : Nat := 9007199254740991

def count? (x : Float) : Option Nat :=
  if x.isFinite && 0 ≤ x && truncate x == x && x ≤ largestCount.toFloat then
    some x.toUInt64.toNat
  else none

end MiniAbap.Number
