import MiniAbap.Number.Whole
import MiniAbap.Text.Name

/-!
Decimal text of double precision numbers. A number is written with the fewest
digits that read back to it; among those the nearest decimal is taken, and of
two equally near ones the greater. It is laid out without an exponent. Reading
accepts an exponent as well and rounds to the nearest number.
-/

namespace MiniAbap.Number

/-- The positive decimal `0.d₁d₂… · 10 ^ point`. -/
structure Decimal where
  digits : Text
  point : Int

/-- A positive number with the two ends of the interval of reals that round to
    it, as numerators over one denominator. The ends belong to the interval
    where the significand is even. -/
structure Span where
  low : Nat
  value : Nat
  high : Nat
  denominator : Nat
  closed : Bool

/-- The span of a finite number other than zero, ignoring its sign. Below a
    power of two the neighbours stand twice as close as above it. -/
def Span.of (x : Float) : Span :=
  let quarters := 4 * significand x
  let belowGap := if fractionField x = 0 ∧ 1 < exponentField x then 1 else 2
  let shift := max 1 (exponentField x)
  let up := shift - (wholeField + 2)
  let down := (wholeField + 2) - shift
  { low := (quarters - belowGap) * twoTo up
    value := quarters * twoTo up
    high := (quarters + 2) * twoTo up
    denominator := twoTo down
    closed := significand x % 2 = 0 }

def scaled (numerator denominator : Nat) (power : Int) : Nat × Nat :=
  (numerator * tenTo power.toNat, denominator * tenTo (-power).toNat)

def Span.reaches (span : Span) (power : Int) : Bool :=
  let ratio := scaled span.value span.denominator (-power)
  ratio.2 ≤ ratio.1

def Span.climb (span : Span) : Nat → Int → Int
  | 0, power => power
  | steps + 1, power =>
      if span.reaches power then span.climb steps (power + 1) else power

/-- The least power of ten above the value. The binary logarithms give a lower
    bound that misses it by at most three. -/
def Span.magnitude (span : Span) : Int :=
  let binary : Int := (Nat.log2 span.value : Int) - Nat.log2 span.denominator - 1
  span.climb 4 (binary * 30103 / 100000 - 1)

def Span.pick? (span : Span) (magnitude : Int) (count : Nat) : Option Nat :=
  let power := (count : Int) - magnitude
  let (value, unit) := scaled span.value span.denominator power
  let (low, _) := scaled span.low span.denominator power
  let (high, _) := scaled span.high span.denominator power
  let below := value / unit
  let above := below + 1
  let belowFits := if span.closed then low ≤ below * unit else low < below * unit
  let aboveFits := if span.closed then above * unit ≤ high else above * unit < high
  match decide belowFits, decide aboveFits with
  | true, true =>
      if 2 * (value - below * unit) < unit then some below else some above
  | true, false => some below
  | false, true => some above
  | false, false => none

def trimZeros (digits : Text) : Text :=
  (digits.reverse.dropWhile (· == '0')).reverse

/-- The decimal with the fewest digits in the span, trying `count`, `count + 1`
    and so on. Seventeen digits always suffice. -/
def Span.fewest (span : Span) (magnitude : Int) : Nat → Nat → Decimal
  | 0, count =>
      let (value, unit) := scaled span.value span.denominator (count - magnitude)
      let digits := Nat.toDigits 10 (value / unit)
      ⟨trimZeros digits, digits.length - count + magnitude⟩
  | tries + 1, count =>
      match span.pick? magnitude count with
      | some chosen =>
          let digits := Nat.toDigits 10 chosen
          ⟨trimZeros digits, digits.length - count + magnitude⟩
      | none => span.fewest magnitude tries (count + 1)

def shortest (x : Float) : Decimal :=
  let span := Span.of x
  span.fewest span.magnitude 17 1

def Decimal.layout (decimal : Decimal) : Text :=
  let before := decimal.point.toNat
  if decimal.point ≤ 0 then
    '0' :: '.' :: (List.replicate (-decimal.point).toNat '0' ++ decimal.digits)
  else if before < decimal.digits.length then
    decimal.digits.take before ++ '.' :: decimal.digits.drop before
  else
    decimal.digits ++ List.replicate (before - decimal.digits.length) '0'

def text (x : Float) : Text :=
  if x.isNaN then "NaN".toList
  else if x.isInf then
    if isNegative x then "-Infinity".toList else "Infinity".toList
  else if x == 0 then ['0']
  else if isNegative x then '-' :: (shortest x).layout
  else (shortest x).layout

/-- Powers of ten beyond this bound leave the range of double precision
    whatever digits they scale, up to the number of those digits. -/
def powerBound : Nat := 400

def nearest (digits : Text) (power : Int) : Float :=
  let value := Text.digitsValue digits
  if value = 0 then 0
  else if (powerBound : Int) < power then 1 / 0
  else if power + digits.length < -powerBound then 0
  else Float.ofScientific value (decide (power < 0)) power.natAbs

def splitSign : Text → Bool × Text
  | '-' :: rest => (true, rest)
  | '+' :: rest => (false, rest)
  | rest => (false, rest)

def readPower? : Text → Option Int
  | [] => some 0
  | mark :: rest =>
      let (negative, digits) := splitSign rest
      if (mark == 'e' || mark == 'E') && !digits.isEmpty && Text.isDigits digits then
        let size : Int := Text.digitsValue digits
        some (if negative then -size else size)
      else none

def splitDigits (text : Text) : Text × Text × Text :=
  let whole := text.takeWhile Char.isDigit
  match text.dropWhile Char.isDigit with
  | '.' :: rest => (whole, rest.takeWhile Char.isDigit, rest.dropWhile Char.isDigit)
  | rest => (whole, [], rest)

/-- Reads a signed decimal numeral: digits with at most one point, at least one
    of them, then an optional exponent. -/
def read? (text : Text) : Option Float :=
  let (negative, unsigned) := splitSign text
  let (whole, fraction, rest) := splitDigits unsigned
  if whole.isEmpty && fraction.isEmpty then none
  else
    (readPower? rest).map fun power =>
      let magnitude := nearest (whole ++ fraction) (power - fraction.length)
      if negative then -magnitude else magnitude

end MiniAbap.Number
