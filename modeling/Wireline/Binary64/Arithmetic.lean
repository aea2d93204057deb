import Wireline.Binary64.Basic

/-!
# Rounding and arithmetic of doubles

Every operation here computes an exact ratio of natural numbers and rounds it once, to the nearest
double, a tie to the one with the even significand (`ofRatio`). Narrower formats are widened the
same way, which is exact. A count of nanoseconds is read off a number of seconds by the same rule,
to the nearest whole number with ties to the even one (`toNanoseconds`).
-/

set_option autoImplicit false
set_option relaxedAutoImplicit false

namespace Wireline.Binary64

/-- The whole number nearest to `num / den`, an exact half going to the even neighbour. -/
def roundQuotient (num den : Nat) : Nat :=
  let quotient := num / den
  let double := 2 * (num % den)
  if double < den then quotient
  else if den < double then quotient + 1
  else quotient + quotient % 2

/-- The ratio `num / den` times two to the power `shift`, as a ratio. -/
def shiftRatio (num den : Nat) (shift : Int) : Nat × Nat :=
  if 0 ≤ shift then (num <<< shift.toNat, den) else (num, den <<< (-shift).toNat)

/-- The power of two at or below a positive ratio, as an exponent. -/
def floorLog2 (num den : Nat) : Int :=
  let guess : Int := (num.log2 : Int) - den.log2
  let (a, b) := shiftRatio num den (-guess)
  if b ≤ a then guess else guess - 1

/-- The double nearest to `num / den`, with the given sign. A ratio too large for any finite double
becomes infinity, and one too small becomes zero. -/
def ofRatio (negative : Bool) (num den : Nat) : Binary64 :=
  if num = 0 then ofMagnitude negative 0
  else
    let unit := max (floorLog2 num den - 52) (-1074)
    let (a, b) := shiftRatio num den (-unit)
    let magnitude := (unit + 1074).toNat * leadingBit + roundQuotient a b
    ofMagnitude negative (min magnitude infinite)

/-- The double nearest to `mantissa` times two to the power `exponent`. -/
def ofScaled (negative : Bool) (mantissa : Nat) (exponent : Int) : Binary64 :=
  let (num, den) := shiftRatio mantissa 1 exponent
  ofRatio negative num den

def ofNat (n : Nat) : Binary64 :=
  ofRatio false n 1

def ofInt (n : Int) : Binary64 :=
  ofRatio (n < 0) n.natAbs 1

/-- Widens a half-precision word of 16 bits. -/
def ofBinary16 (word : Nat) : Binary64 :=
  let negative := decide (0x8000 ≤ word % 0x10000)
  let field : Nat := word / 0x400 % 0x20
  let fraction := word % 0x400
  if field = 31 then if fraction = 0 then infinity negative else nan
  else if field = 0 then ofScaled negative fraction (-24)
  else ofScaled negative (fraction + 0x400) ((field : Int) - 25)

/-- Widens a single-precision word of 32 bits. What is not a number keeps its sign and payload and
becomes quiet. -/
def ofBinary32 (word : Nat) : Binary64 :=
  let negative := decide (0x80000000 ≤ word % 0x100000000)
  let field : Nat := word / 0x800000 % 0x100
  let fraction := word % 0x800000
  if field = 255 then
    if fraction = 0 then infinity negative
    else ofMagnitude negative (0x7ff8000000000000 + fraction % 0x400000 * 0x20000000)
  else if field = 0 then ofScaled negative fraction (-149)
  else ofScaled negative (fraction + 0x800000) ((field : Int) - 150)

/-- A finite number in units of two to the power `unit`, which is not above its exponent. -/
def inUnits (x : Binary64) (unit : Int) : Int :=
  let units : Nat := x.significand <<< (x.exponent - unit).toNat
  if x.negative then -(units : Int) else units

/-- The product, rounded once. -/
def mul (x y : Binary64) : Binary64 :=
  let negative := x.negative != y.negative
  if x.isNaN || y.isNaN then nan
  else if !x.isFinite || !y.isFinite then
    if x.magnitude = 0 ∨ y.magnitude = 0 then nan else infinity negative
  else ofScaled negative (x.significand * y.significand) (x.exponent + y.exponent)

/-- The sum, rounded once. An exact sum of zero is negative only if both terms are. -/
def add (x y : Binary64) : Binary64 :=
  if x.isNaN || y.isNaN then nan
  else if !x.isFinite then if !y.isFinite && x.negative != y.negative then nan else x
  else if !y.isFinite then y
  else
    let unit := min x.exponent y.exponent
    let total := x.inUnits unit + y.inUnits unit
    if total = 0 then ofMagnitude (x.negative && y.negative) 0
    else ofScaled (total < 0) total.natAbs unit

/-- Multiplies `x` into `product` once for each unit of `power`, by squaring `x` along the binary
digits of `power`. `digits` bounds their number. -/
def powFrom : (digits : Nat) → (product x : Binary64) → (power : Nat) → Binary64
  | 0, product, _, _ => product
  | digits + 1, product, x, power =>
    if power = 0 then product
    else
      let product := if power % 2 = 1 then mul product x else product
      powFrom digits product (mul x x) (power / 2)

/-- The power of `x` by repeated squaring, each product rounded. -/
def pow (x : Binary64) (power : Nat) : Binary64 :=
  powFrom (power.log2 + 1) one x power

/-- A number of seconds as whole nanoseconds, to the nearest one. Negative numbers, infinities and
what is not a number give `0`. -/
def toNanoseconds (x : Binary64) : Nat :=
  if x.negative || !x.isFinite then 0
  else
    let (num, den) := shiftRatio (x.significand * 1000000000) 1 x.exponent
    roundQuotient num den

/-- A decimal `mantissa` times ten to the power `exponent`. The exponent is cut off where every
further power of ten would give zero or infinity. -/
def ofDecimal (negative : Bool) (mantissa : Nat) (exponent : Int) : Binary64 :=
  if mantissa = 0 then ofMagnitude negative 0
  else if 400 < exponent then infinity negative
  else
    let digits : Int := (Nat.toDigits 10 mantissa).length
    if digits + exponent < -400 then ofMagnitude negative 0
    else if 0 ≤ exponent then ofRatio negative (mantissa * Nat.pow 10 exponent.toNat) 1
    else ofRatio negative mantissa (Nat.pow 10 (-exponent).toNat)

end Wireline.Binary64
