import Weblog.Text.Digits

/-!
# Floating-point numbers of 64 bits

The finite numbers of the binary format of 64 bits, as a sign, an integer of 53 bits and a power of
two. Sums are not needed; a product, a quotient or a whole number is rounded once, to the nearest
number of the format and to the even one of two that are equally near. `ofDecimal?` scales a whole
number by a power of ten in steps that each round.
-/

namespace Weblog

open Text

/-- A quotient rounded to the nearest whole number, and to the even one of two. -/
def Nat.roundQuotient (numerator denominator : Nat) : Nat :=
  let quotient := numerator / denominator
  let rest := numerator % denominator
  if 2 * rest > denominator ∨ 2 * rest = denominator ∧ quotient % 2 = 1 then quotient + 1
  else quotient

/-- A finite number of the format: plus or minus `mantissa * 2 ^ exponent`. -/
structure Binary64 where
  negative : Bool
  mantissa : Nat
  exponent : Int
  deriving DecidableEq

namespace Binary64

def minExponent : Int := -1074

def maxExponent : Int := 971

def zero : Binary64 := ⟨false, 0, minExponent⟩

/-- The size of a number as a quotient of two whole numbers. -/
def ratio (x : Binary64) : Nat × Nat :=
  (x.mantissa <<< x.exponent.toNat, 1 <<< (-x.exponent).toNat)

/-- The number of the format nearest to a quotient, or nothing if it is too great. -/
def ofRatio? (numerator denominator : Nat) : Option Binary64 :=
  if numerator = 0 then some zero
  else
    let guess : Int := (numerator.log2 : Int) - denominator.log2 - 53
    let scaled (exponent : Int) : Nat × Nat :=
      (numerator <<< (-exponent).toNat, denominator <<< exponent.toNat)
    let first := scaled guess
    let exponent := max minExponent (if first.1 < first.2 <<< 53 then guess else guess + 1)
    let final := scaled exponent
    let mantissa := Nat.roundQuotient final.1 final.2
    let result : Binary64 :=
      if mantissa = 1 <<< 53 then ⟨false, 1 <<< 52, exponent + 1⟩ else ⟨false, mantissa, exponent⟩
    if result.exponent ≤ maxExponent then some result else none

/-- The product of two sizes. -/
def mul? (x y : Binary64) : Option Binary64 :=
  ofRatio? (x.ratio.1 * y.ratio.1) (x.ratio.2 * y.ratio.2)

/-- The quotient of two sizes. -/
def div? (x y : Binary64) : Option Binary64 :=
  ofRatio? (x.ratio.1 * y.ratio.2) (x.ratio.2 * y.ratio.1)

/-- The greatest power of ten that one step of scaling multiplies or divides by. -/
def maxScale : Nat := 308

/-- A size scaled by a power of ten, or nothing if it becomes too great. A power beyond the reach
of one step is divided out in several, until nothing is left. -/
def scale? (x : Binary64) (power : Int) : Option Binary64 :=
  if power.natAbs ≤ maxScale then do
    let ten ← ofRatio? (tenTo power.natAbs) 1
    if 0 ≤ power then x.mul? ten else x.div? ten
  else if x.mantissa = 0 then some x
  else if 0 ≤ power then none
  else do
    let ten ← ofRatio? (tenTo maxScale) 1
    let smaller ← x.div? ten
    scale? smaller (power + maxScale)
termination_by (-power).toNat
decreasing_by
  simp only [maxScale] at *
  omega

/-- A whole number scaled by a power of ten, with a sign. -/
def ofDecimal? (negative : Bool) (significand : Nat) (power : Int) : Option Binary64 := do
  let x ← ofRatio? significand 1
  let y ← x.scale? power
  return { y with negative }

end Binary64

end Weblog
