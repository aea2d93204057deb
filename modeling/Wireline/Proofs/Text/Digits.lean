import Mathlib.Algebra.Ring.Nat
import Wireline.Text.Digits

/-!
# Numbers in digits

Zeros in front of a run of digits do not change the number that it stands for, so a number that is
written up to a width is read again from that many characters (`digits?_padded`). A negative number
does not start with a digit, and a number that is too long for its width has a digit right after it.
Without a width, the text of an integer determines it (`toString_int_injective`).
-/

set_option autoImplicit false
set_option relaxedAutoImplicit false

namespace Wireline.Text

theorem char?_cons {accepts : Char → Bool} {c : Char} (h : accepts c = true) (rest : List Char) :
    char? accepts (c :: rest) = some rest :=
  if_pos h

theorem char?_self (c : Char) (rest : List Char) : char? (· == c) (c :: rest) = some rest :=
  char?_cons (beq_self_eq_true c) rest

theorem char?_cons_eq_none {accepts : Char → Bool} {c : Char} (h : accepts c = false)
    (rest : List Char) : char? accepts (c :: rest) = none :=
  if_neg (Bool.eq_false_iff.mp h)

theorem number_zeros_append (count : Nat) (digits : List Char) :
    number (List.replicate count '0' ++ digits) = number digits := by
  rw [number_eq_ofDigitChars, number_eq_ofDigitChars, Nat.ofDigitChars_append,
    Nat.ofDigitChars_replicate_zero, Nat.mul_zero]

theorem digits?_append {run : List Char} (hdigits : run.all Char.isDigit = true)
    (rest : List Char) : digits? run.length (run ++ rest) = some (number run, rest) := by
  simp only [digits?, List.take_left, List.drop_left]
  exact if_pos ⟨trivial, hdigits⟩

section Natural

variable (width : Nat) {n : Int} (hn : 0 ≤ n)

include hn

theorem padded_eq : padded width n =
    List.replicate (width - (Nat.toDigits 10 n.natAbs).length) '0' ++ Nat.toDigits 10 n.natAbs := by
  unfold padded
  rw [if_neg (Int.not_lt.mpr hn)]
  rfl

theorem number_padded : number (padded width n) = n.natAbs := by
  rw [padded_eq _ hn, number_zeros_append, number_toDigits]

theorem isDigit_padded : (padded width n).all Char.isDigit = true := by
  rw [padded_eq _ hn, List.all_append, List.all_replicate, Bool.and_eq_true]
  refine ⟨by split <;> rfl, List.all_eq_true.mpr fun c hc ↦ ?_⟩
  exact Nat.isDigit_of_mem_toDigits (by decide) (by decide) hc

variable {width} (hwidth : 0 < width)

include hwidth

theorem length_padded (hlt : n.natAbs < 10 ^ width) : (padded width n).length = width := by
  have hlength : (Nat.toDigits 10 n.natAbs).length ≤ width :=
    (Nat.length_toDigits_le_iff (by decide) hwidth).mpr hlt
  rw [padded_eq _ hn, List.length_append, List.length_replicate]
  omega

/-- A number that is written up to a width is read from that many characters. -/
theorem digits?_padded (hlt : n.natAbs < 10 ^ width) (rest : List Char) :
    digits? width (padded width n ++ rest) = some (n.natAbs, rest) := by
  have hread := digits?_append (isDigit_padded width hn) rest
  rwa [length_padded hn hwidth hlt, number_padded _ hn] at hread

/-- What is too long for its width has one more digit after it. -/
theorem digits?_padded_of_large (hlarge : 10 ^ width ≤ n.natAbs) (rest : List Char) :
    ∃ m c others, c.isDigit = true ∧
      digits? width (padded width n ++ rest) = some (m, c :: others) := by
  have hlength : width < (padded width n).length := by
    have hdigits : width < (Nat.toDigits 10 n.natAbs).length := by
      rw [← Nat.not_le, Nat.length_toDigits_le_iff (by decide) hwidth]
      omega
    rw [padded_eq _ hn, List.length_append]
    omega
  have hall := List.all_eq_true.mp (isDigit_padded width hn)
  have hrun : ((padded width n).take width).all Char.isDigit = true :=
    List.all_eq_true.mpr fun c hc ↦ hall c (List.mem_of_mem_take hc)
  have hsplit : padded width n ++ rest = (padded width n).take width ++
      (padded width n)[width] :: ((padded width n).drop (width + 1) ++ rest) := by
    rw [← List.cons_append, ← List.drop_eq_getElem_cons hlength, ← List.append_assoc,
      List.take_append_drop]
  have hread := digits?_append hrun
    ((padded width n)[width] :: ((padded width n).drop (width + 1) ++ rest))
  rw [← hsplit, List.length_take, Nat.min_eq_left (Nat.le_of_lt hlength)] at hread
  exact ⟨_, _, _, hall _ (List.getElem_mem hlength), hread⟩

end Natural

/-- The sign of a negative number is no digit. -/
theorem digits?_padded_of_neg {width count : Nat} {n : Int} (hn : n < 0) (hcount : 0 < count)
    (rest : List Char) : digits? count (padded width n ++ rest) = none := by
  obtain ⟨count, rfl⟩ := Nat.exists_eq_add_one_of_ne_zero (Nat.ne_of_gt hcount)
  have hhead : ∃ others, padded width n ++ rest = '-' :: others := by
    unfold padded
    rw [if_pos hn]
    exact ⟨_, rfl⟩
  obtain ⟨others, hothers⟩ := hhead
  rw [hothers, digits?, if_neg]
  rintro ⟨-, hdigits⟩
  simp at hdigits

/-! ### Integers -/

/-- A minus sign in front of the digits of a negative integer, and none otherwise. -/
theorem toList_toString_int (n : Int) : (toString n).toList =
    if n < 0 then '-' :: Nat.toDigits 10 n.natAbs else Nat.toDigits 10 n.natAbs := by
  cases n with
  | ofNat m =>
    have hsign : ¬Int.ofNat m < 0 := Int.not_lt.mpr (Int.natCast_nonneg m)
    rw [if_neg hsign, Int.toString_eq_repr]
    exact Nat.toList_repr
  | negSucc m =>
    rw [if_pos (Int.negSucc_lt_zero m), Int.toString_eq_repr]
    show ("-" ++ (m + 1).repr).toList = _
    rw [String.toList_append, Nat.toList_repr]
    rfl

theorem mem_toString_int {n : Int} {c : Char} (h : c ∈ (toString n).toList) :
    c = '-' ∨ c.isDigit = true := by
  have hdigits (hc : c ∈ Nat.toDigits 10 n.natAbs) : c.isDigit = true :=
    Nat.isDigit_of_mem_toDigits (by decide) (by decide) hc
  rw [toList_toString_int] at h
  split at h
  · exact (List.mem_cons.mp h).imp_right hdigits
  · exact .inr (hdigits h)

theorem toString_int_injective {m n : Int} (h : toString m = toString n) : m = n := by
  have hlist := congrArg String.toList h
  have hsame {k l : Nat} (hdigits : Nat.toDigits 10 k = Nat.toDigits 10 l) : k = l := by
    rw [← number_toDigits k, hdigits, number_toDigits]
  have hminus (k : Nat) : '-' ∉ Nat.toDigits 10 k := fun hmem ↦
    absurd (Nat.isDigit_of_mem_toDigits (by decide) (by decide) hmem) (by decide)
  rw [toList_toString_int, toList_toString_int] at hlist
  split at hlist <;> split at hlist
  · have := hsame (List.cons.inj hlist).2
    omega
  · exact absurd (hlist ▸ List.mem_cons_self) (hminus _)
  · exact absurd (hlist ▸ List.mem_cons_self) (hminus _)
  · have := hsame hlist
    omega
end Wireline.Text
