import Wireline.Binary64.Basic

/-!
# Shortest decimal text of a double

The digits written for a finite double are the fewest that lie closer to it than to any other
double, and of two candidates with that many digits the nearer one, an exact tie going up
(`shortest`). Around the number lies the interval of reals that round to it; on the grid of decimals
with a given number of places only the two neighbours of the number can be the nearest in it, and
the coarsest grid with a neighbour in the interval gives the digits.

Two layouts of these digits are in use. `Layout.plain` writes every number positionally and a whole
number without a point. `Layout.exact` always shows a fraction, and uses an exponent for numbers
below `1e-4` or from `1e16` on.
-/

set_option autoImplicit false
set_option relaxedAutoImplicit false

namespace Wireline.Binary64

/-- A positive decimal: its digits, first not zero, and the power of ten of the first digit. -/
structure Decimal where
  digits : List Char
  leading : Int
  deriving DecidableEq

/-- The interval of a positive finite double in quarters of its unit: the lower end, the number and
the upper end, and whether the ends belong to it. The gap below a power of two is half as wide. -/
def interval (x : Binary64) : Nat × Nat × Nat × Bool :=
  let m := x.significand
  let narrow := m == leadingBit && decide (2 * leadingBit ≤ x.magnitude)
  (4 * m - (if narrow then 1 else 2), 4 * m, 4 * m + 2, m % 2 == 0)

/-- The number of decimal digits of a natural number. -/
def width (n : Nat) : Nat :=
  (Nat.toDigits 10 n).length

/-- Looks for the coarsest grid on which a neighbour of `value / scale` lies in the interval, from
the grid of `10 ^ place / scale` downwards. All quantities are multiplied by ten when the place can
go no lower. Gives the chosen multiple of the grid and its place. -/
def search (closed : Bool) : (steps : Nat) → (low value high scale : Nat) → (place : Int) →
    Nat × Int
  | 0, _, value, _, scale, place => (value / scale, place)
  | steps + 1, low, value, high, scale, place =>
    let below := value / scale
    let inside (n : Nat) : Bool :=
      if closed then low ≤ n * scale && n * scale ≤ high else low < n * scale && n * scale < high
    let remainder := 2 * (value % scale)
    if inside below && (remainder < scale || !inside (below + 1)) then (below, place)
    else if inside (below + 1) then (below + 1, place)
    else search closed steps (low * 10) (value * 10) (high * 10) scale (place - 1)

/-- The shortest digits of a positive finite double. -/
def shortest (x : Binary64) : Decimal :=
  let (low, value, high, closed) := interval x
  let unit := x.exponent - 2
  -- `value * 2 ^ unit` as a ratio of natural numbers
  let up := 1 <<< unit.toNat
  let down := 1 <<< (-unit).toNat
  -- the power of ten at or below the number
  let guess : Int :=
    if down ≤ value * up then width (value * up / down) - 1
    else -(width ((down - 1) / (value * up)) : Int)
  let grid := Nat.pow 10 guess.toNat
  let lift := Nat.pow 10 (-guess).toNat
  let (multiple, place) :=
    search closed 17 (low * up * lift) (value * up * lift) (high * up * lift) (down * grid) guess
  let digits := (Nat.toDigits 10 multiple).reverse.dropWhile (· == '0') |>.reverse
  ⟨digits, place + (width multiple : Int) - 1⟩

/-- How digits are laid out as text. -/
structure Layout where
  /-- Powers of ten of the first digit from `lowest` up to but not including `highest` are written
  positionally, all others with an exponent. -/
  lowest : Option Int
  highest : Option Int
  /-- Whether a whole number gets a fraction of one zero. -/
  fraction : Bool

/-- Never an exponent, and whole numbers bare. -/
def Layout.plain : Layout :=
  ⟨none, none, false⟩

/-- A fraction in every positional number, and an exponent below `1e-4` and from `1e16` on. -/
def Layout.exact : Layout :=
  ⟨some (-4), some 16, true⟩

/-- Writes digits positionally. -/
def positional (fraction : Bool) (d : Decimal) : List Char :=
  if d.leading < 0 then
    '0' :: '.' :: (List.replicate (-d.leading - 1).toNat '0' ++ d.digits)
  else
    let whole := d.leading.toNat + 1
    let digits := d.digits ++ List.replicate (whole - d.digits.length) '0'
    let rest := digits.drop whole
    digits.take whole ++
      if rest.isEmpty then if fraction then ['.', '0'] else [] else '.' :: rest

/-- Writes digits with an exponent, the point after the first digit. -/
def scientific (d : Decimal) : List Char :=
  let power := (toString d.leading).toList
  match d.digits with
  | first :: second :: rest => first :: '.' :: second :: rest ++ 'e' :: power
  | digits => digits ++ 'e' :: power

/-- The text of a double in a layout. -/
def text (layout : Layout) (x : Binary64) : String :=
  let sign := if x.negative then ['-'] else []
  if x.isNaN then "NaN"
  else if !x.isFinite then String.ofList (sign ++ "inf".toList)
  else if x.magnitude = 0 then
    String.ofList (sign ++ '0' :: if layout.fraction then ['.', '0'] else [])
  else
    let d := shortest (ofMagnitude false x.magnitude)
    let inRange := layout.lowest.all (· ≤ d.leading) && layout.highest.all (d.leading < ·)
    String.ofList (sign ++ if inRange then positional layout.fraction d else scientific d)

end Wireline.Binary64
