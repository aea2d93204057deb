/-!
# Decimal digits

Reading and writing runs of ASCII digits. `number` gives the number that a run stands for, and
`padded` writes a number with zeros in front up to a width, where a sign counts as part of the
width. The digits that a number is written in stand for it (`number_toDigits`), and no number is too
large for its digits (`number_lt`).
-/

set_option autoImplicit false
set_option relaxedAutoImplicit false

namespace Wireline.Text

/-- The number that a run of digits stands for. -/
def number (digits : List Char) : Nat :=
  digits.foldl (fun n digit ↦ n * 10 + (digit.toNat - '0'.toNat)) 0

theorem foldl_digits_lt (digits : List Char) :
    ∀ n : Nat, digits.all Char.isDigit = true →
      digits.foldl (fun n digit ↦ n * 10 + (digit.toNat - '0'.toNat)) n <
        (n + 1) * Nat.pow 10 digits.length := by
  induction digits with
  | nil => intro n _; simp
  | cons c rest ih =>
    intro n hdigits
    simp only [List.all_cons, Bool.and_eq_true] at hdigits
    have hc : c.toNat ≤ 57 := by
      have := hdigits.1
      simp only [Char.isDigit, Bool.and_eq_true, decide_eq_true_eq] at this
      exact UInt32.le_iff_toNat_le.mp this.2
    have hz : '0'.toNat = 48 := rfl
    refine Nat.lt_of_lt_of_le (ih _ hdigits.2) ?_
    have hpow : Nat.pow 10 (c :: rest).length = Nat.pow 10 rest.length * 10 := rfl
    rw [hpow, Nat.mul_comm (Nat.pow 10 rest.length) 10, ← Nat.mul_assoc]
    refine Nat.mul_le_mul_right _ ?_
    show n * 10 + (c.toNat - '0'.toNat) + 1 ≤ _
    omega

/-- A run of digits stands for a number below the power of ten with its length. -/
theorem number_lt {digits : List Char} (h : digits.all Char.isDigit = true) :
    number digits < Nat.pow 10 digits.length := by
  have := foldl_digits_lt digits 0 h
  rwa [Nat.zero_add, Nat.one_mul] at this

theorem number_eq_ofDigitChars (digits : List Char) :
    number digits = Nat.ofDigitChars 10 digits 0 := by
  have hstep : (fun n (digit : Char) ↦ n * 10 + (digit.toNat - '0'.toNat)) =
      fun n digit ↦ 10 * n + (digit.toNat - '0'.toNat) := by
    funext n digit
    rw [Nat.mul_comm]
  rw [number, hstep]
  rfl

/-- The digits of a number stand for it. -/
theorem number_toDigits (n : Nat) : number (Nat.toDigits 10 n) = n := by
  rw [number_eq_ofDigitChars, Nat.ofDigitChars_ten_toDigits]

/-- Reads exactly `count` digits from the front. -/
def digits? (count : Nat) (text : List Char) : Option (Nat × List Char) :=
  let run := text.take count
  if run.length = count ∧ run.all Char.isDigit then some (number run, text.drop count) else none

/-- The digits at the front, and what follows them. -/
def digitRun (text : List Char) : List Char × List Char :=
  text.span Char.isDigit

/-- Reads one character with a property from the front. -/
def char? (accepts : Char → Bool) : List Char → Option (List Char)
  | [] => none
  | c :: rest => if accepts c then some rest else none

/-- The decimal digits of a number with zeros in front up to a width. -/
def padded (width : Nat) (n : Int) : List Char :=
  let sign := if n < 0 then ['-'] else []
  let digits := Nat.toDigits 10 n.natAbs
  sign ++ List.replicate (width - sign.length - digits.length) '0' ++ digits

end Wireline.Text
