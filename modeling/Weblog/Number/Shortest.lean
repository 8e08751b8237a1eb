import Weblog.Number.Binary64

/-!
# The shortest decimal of a floating-point number

Among the decimals that read back as a given number of the format, the text shows one with the
fewest digits, and of those the nearest. A point is written where the decimal point falls within
sixteen digits of the front or within five zeros of it; beyond, the number has an exponent.
-/

namespace Weblog.Binary64

open Text

/-- The decimals that round to a number: the bounds, as numerators over one denominator, and
whether the bounds themselves still belong. -/
structure Interval where
  low : Nat
  value : Nat
  high : Nat
  denominator : Nat
  closed : Bool

/-- The decimals that round to a number other than zero. The gap below a power of two is half the
gap above it. -/
def interval (x : Binary64) : Interval :=
  let up := 1 <<< x.exponent.toNat
  let below := if x.mantissa = 1 <<< 52 ∧ minExponent < x.exponent then 1 else 2
  { low := (4 * x.mantissa - below) * up
    value := 4 * x.mantissa * up
    high := (4 * x.mantissa + 2) * up
    denominator := 4 <<< (-x.exponent).toNat
    closed := x.mantissa % 2 = 0 }

/-- Whether a decimal, a quotient of two whole numbers, lies in an interval. -/
def Interval.holds (i : Interval) (numerator denominator : Nat) : Bool :=
  let scaled := numerator * i.denominator
  if i.closed then i.low * denominator ≤ scaled && scaled ≤ i.high * denominator
  else i.low * denominator < scaled && scaled < i.high * denominator

/-- The power of ten just above a value: the least one, looked for from a guess upwards. -/
def magnitude (i : Interval) : (fuel : Nat) → (guess : Int) → Int
  | 0, guess => guess
  | fuel + 1, guess =>
    if i.value * tenTo (-guess).toNat < i.denominator * tenTo guess.toNat then guess
    else magnitude i fuel (guess + 1)

/-- The multiple of a power of ten that lies in the interval and is nearest to the value. -/
def onGrid? (i : Interval) (power : Int) : Option Nat :=
  let up := tenTo power.toNat
  let down := tenTo (-power).toNat
  let floor := i.value * down / (i.denominator * up)
  let near := fun n => i.holds (n * up) down
  let distance := fun n : Nat =>
    ((n * up * i.denominator : Nat) - (i.value * down : Nat) : Int).natAbs
  match near floor, near (floor + 1) with
  | true, true => some (if distance (floor + 1) < distance floor then floor + 1 else floor)
  | true, false => some floor
  | false, true => some (floor + 1)
  | false, false => none

/-- The digits and the power of ten of the shortest decimal, tried with more and more digits. Only
the next power of ten above the value can end in a zero. -/
def search (i : Interval) (top : Int) : (fuel digits : Nat) → Nat × Int
  | 0, _ => (0, 0)
  | fuel + 1, digits =>
    match onGrid? i (top - digits) with
    | some n => if n % 10 = 0 then (n / 10, top - digits + 1) else (n, top - digits)
    | none => search i top fuel (digits + 1)

/-- The shortest decimal of a number other than zero: a whole number that does not end in zero,
and the power of ten it is scaled by. -/
def shortest (x : Binary64) : Nat × Int :=
  let i := x.interval
  let guess : Int := ((x.mantissa.log2 : Int) + x.exponent) * 3 / 10 - 2
  search i (magnitude i 60 guess) 17 1

/-- Where a decimal point falls among the digits, and how the number is laid out for it. -/
def layoutDigits (digits : List Char) (power : Int) : List Char :=
  let point := (digits.length : Int) + power
  if 0 ≤ power ∧ point ≤ 16 then digits ++ List.replicate power.toNat '0' ++ ['.', '0']
  else if 0 < point ∧ point ≤ 16 then
    digits.take point.toNat ++ '.' :: digits.drop point.toNat
  else if -5 < point ∧ point ≤ 0 then
    '0' :: '.' :: (List.replicate (-point).toNat '0' ++ digits)
  else
    let head := if digits.length = 1 then digits else digits.take 1 ++ '.' :: digits.drop 1
    head ++ 'e' :: signedDecimal (point - 1)

/-- The shortest decimal of a number that reads back as it. -/
def toChars (x : Binary64) : List Char :=
  let size :=
    if x.mantissa = 0 then ['0', '.', '0']
    else layoutDigits (decimal x.shortest.1) x.shortest.2
  if x.negative then '-' :: size else size

end Weblog.Binary64
