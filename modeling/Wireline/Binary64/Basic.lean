/-!
# Double-precision numbers

A `Binary64` is the 64-bit word of an IEEE 754 double. Its sign is the top bit, and the other 63
bits are its magnitude: numbers of one sign are ordered as their magnitudes are, infinity has the
magnitude `infinite`, and every larger one is not a number. A finite number is its significand times
a power of two (`significand`, `exponent`).

Comparisons are numeric: the two zeros are one number (`same`, `le`, `lt`). For equality, all words
that are not a number count as one value, which makes `same` an equivalence (`same_refl`,
`same_symm`, `same_trans`).
-/

set_option autoImplicit false
set_option relaxedAutoImplicit false

namespace Wireline

/-- A double-precision number, as its word. -/
structure Binary64 where
  bits : UInt64
  deriving DecidableEq, Inhabited

namespace Binary64

/-- The weight of the sign bit in a word. -/
def signBit : Nat :=
  0x8000000000000000

/-- The weight of the lowest exponent bit in a word, which is also the weight of the leading bit of
a significand. -/
def leadingBit : Nat :=
  0x10000000000000

/-- The number with a given sign and magnitude. -/
def ofMagnitude (negative : Bool) (magnitude : Nat) : Binary64 :=
  ⟨UInt64.ofNat (magnitude % signBit + if negative then signBit else 0)⟩

/-- All bits but the sign. -/
def magnitude (x : Binary64) : Nat :=
  x.bits.toNat % signBit

/-- Whether the sign bit is set, also for zeros and for what is not a number. -/
def negative (x : Binary64) : Bool :=
  signBit ≤ x.bits.toNat

/-- The magnitude of the two infinities. -/
def infinite : Nat :=
  0x7ff0000000000000

/-- The number without its sign. -/
def abs (x : Binary64) : Binary64 :=
  ofMagnitude false x.magnitude

/-- Whether the word stands for no number. -/
def isNaN (x : Binary64) : Bool :=
  infinite < x.magnitude

def isFinite (x : Binary64) : Bool :=
  x.magnitude < infinite

/-- The quiet word that stands for no number. -/
def nan : Binary64 :=
  ofMagnitude false 0x7ff8000000000000

def infinity (negative : Bool) : Binary64 :=
  ofMagnitude negative infinite

def zero : Binary64 :=
  ofMagnitude false 0

def one : Binary64 :=
  ofMagnitude false 0x3ff0000000000000

/-- The integer that orders the numbers: the magnitude with its sign, so that both zeros get `0`. -/
def rank (x : Binary64) : Int :=
  if x.negative then -(x.magnitude : Int) else x.magnitude

/-- Numeric equality, with all words that are not a number counted as one value. -/
def same (x y : Binary64) : Bool :=
  if x.isNaN || y.isNaN then x.isNaN && y.isNaN else x.rank == y.rank

/-- Numeric order. What is not a number is neither above nor below anything. -/
def le (x y : Binary64) : Bool :=
  !x.isNaN && !y.isNaN && decide (x.rank ≤ y.rank)

def lt (x y : Binary64) : Bool :=
  !x.isNaN && !y.isNaN && decide (x.rank < y.rank)

/-- The integer factor of a finite number. -/
def significand (x : Binary64) : Nat :=
  let fraction := x.magnitude % leadingBit
  if x.magnitude / leadingBit = 0 then fraction else fraction + leadingBit

/-- The power of two that goes with `significand`. -/
def exponent (x : Binary64) : Int :=
  let field : Nat := x.magnitude / leadingBit
  if field = 0 then -1074 else (field : Int) - 1075

theorem same_refl (x : Binary64) : same x x = true := by
  cases h : x.isNaN <;> simp [same, h]

theorem same_symm {x y : Binary64} (h : same x y = true) : same y x = true := by
  unfold same at *
  cases hx : x.isNaN <;> cases hy : y.isNaN <;> simp_all

theorem same_trans {x y z : Binary64} (hxy : same x y = true) (hyz : same y z = true) :
    same x z = true := by
  unfold same at *
  cases hx : x.isNaN <;> cases hy : y.isNaN <;> cases hz : z.isNaN <;> simp_all

end Binary64

end Wireline
