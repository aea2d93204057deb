/-!
# Octets

A frame, a field and a piece of a frame are all lists of octets. This module holds the two readings
of such a list that the wire uses: as a number, highest octet first, and as hexadecimal text.

Reading a number back from the octets it was written in gives the number (`toNat_ofNat`), no number
is too large for its octets (`toNat_lt`), and reading hexadecimal text gives the octets it was
written from (`ofHexDigits?_hexDigits`).
-/

set_option autoImplicit false
set_option relaxedAutoImplicit false

namespace Wireline

/-- A sequence of octets. -/
abbrev Octets := List UInt8

namespace Octets

/-- How many numbers can be told apart by `width` octets. -/
def capacity (width : Nat) : Nat :=
  Nat.pow 256 width

theorem capacity_succ (width : Nat) : capacity (width + 1) = capacity width * 256 := rfl

theorem capacity_pos (width : Nat) : 0 < capacity width :=
  Nat.pow_pos (by decide)

/-- The number `n` in `width` octets, highest first. What does not fit is dropped at the front. -/
def ofNat : (width : Nat) → (n : Nat) → Octets
  | 0, _ => []
  | width + 1, n => UInt8.ofNat (n / capacity width) :: ofNat width n

/-- The number that octets stand for, highest first. -/
def toNat (octets : Octets) : Nat :=
  octets.foldl (fun n octet ↦ n * 256 + octet.toNat) 0

theorem length_ofNat (width n : Nat) : (ofNat width n).length = width := by
  induction width with
  | zero => rfl
  | succ width ih => simp [ofNat, ih]

theorem foldl_ofNat (width : Nat) :
    ∀ n start : Nat, n < capacity width →
      (ofNat width n).foldl (fun n octet ↦ n * 256 + octet.toNat) start =
        start * capacity width + n := by
  induction width with
  | zero =>
    intro n start h
    have hzero : n = 0 := Nat.lt_one_iff.mp h
    simp [ofNat, capacity, hzero]
  | succ width ih =>
    intro n start h
    have hpos := capacity_pos width
    have htop : n / capacity width < 256 := by
      rw [Nat.div_lt_iff_lt_mul hpos, Nat.mul_comm]
      rwa [capacity_succ] at h
    have hdigits : ∀ m, ofNat width m = ofNat width (m % capacity width) := by
      clear ih h htop hpos
      induction width with
      | zero => intro m; rfl
      | succ width ih =>
        intro m
        simp only [ofNat]
        rw [ih m, ih (m % capacity (width + 1))]
        congr 1
        · apply UInt8.toNat_inj.mp
          simp only [UInt8.toNat_ofNat', Nat.reducePow]
          rw [capacity_succ, Nat.mod_mul_right_div_self, Nat.mod_mod]
        · rw [capacity_succ, Nat.mod_mul_right_mod]
    simp only [ofNat, List.foldl_cons, UInt8.toNat_ofNat']
    rw [hdigits, ih _ _ (Nat.mod_lt _ hpos), Nat.mod_eq_of_lt htop]
    rw [capacity_succ, Nat.add_mul, Nat.mul_assoc, Nat.mul_comm 256, Nat.add_assoc,
      Nat.mul_comm (n / capacity width), Nat.div_add_mod]

theorem toNat_ofNat {width n : Nat} (h : n < capacity width) : toNat (ofNat width n) = n := by
  simp [toNat, foldl_ofNat width n 0 h]

theorem foldl_lt (octets : Octets) :
    ∀ start bound : Nat, start < bound →
      octets.foldl (fun n octet ↦ n * 256 + octet.toNat) start <
        bound * capacity octets.length := by
  induction octets with
  | nil =>
    intro start bound h
    simpa [capacity] using h
  | cons octet rest ih =>
    intro start bound h
    have hoctet := octet.toNat_lt
    have hnext := ih (start * 256 + octet.toNat) (bound * 256) (by omega)
    rw [List.foldl_cons, List.length_cons, capacity_succ, Nat.mul_comm (capacity _),
      ← Nat.mul_assoc]
    exact hnext

theorem toNat_lt (octets : Octets) : octets.toNat < capacity octets.length := by
  have h := foldl_lt octets 0 1 Nat.zero_lt_one
  rwa [Nat.one_mul] at h

/-- The value of a hexadecimal digit, in either case. -/
def hexDigit? (c : Char) : Option Nat :=
  if '0' ≤ c ∧ c ≤ '9' then some (c.toNat - 48)
  else if 'a' ≤ c ∧ c ≤ 'f' then some (c.toNat - 87)
  else if 'A' ≤ c ∧ c ≤ 'F' then some (c.toNat - 55)
  else none

/-- The lower-case digits of the octets, two for each. -/
def hexDigits (octets : Octets) : List Char :=
  octets.flatMap fun octet ↦ [Nat.digitChar (octet.toNat / 16), Nat.digitChar (octet.toNat % 16)]

/-- The octets that a list of hexadecimal digits stands for: two digits make an octet, and nothing
else may stand between them. -/
def ofHexDigits? : List Char → Option Octets
  | [] => some []
  | high :: low :: rest => do
    let high ← hexDigit? high
    let low ← hexDigit? low
    let octets ← ofHexDigits? rest
    return UInt8.ofNat (high * 16 + low) :: octets
  | [_] => none

theorem hexDigit?_digitChar {n : Nat} (h : n < 16) : hexDigit? (Nat.digitChar n) = some n := by
  revert n
  decide

theorem ofHexDigits?_hexDigits (octets : Octets) : ofHexDigits? octets.hexDigits = some octets := by
  induction octets with
  | nil => rfl
  | cons octet rest ih =>
    have hhigh : octet.toNat / 16 < 16 := by have := octet.toNat_lt; omega
    have hlow : octet.toNat % 16 < 16 := by omega
    have happ : hexDigits (octet :: rest) = Nat.digitChar (octet.toNat / 16) ::
        Nat.digitChar (octet.toNat % 16) :: hexDigits rest := by
      simp [hexDigits]
    have hjoin : octet.toNat / 16 * 16 + octet.toNat % 16 = octet.toNat := by omega
    rw [happ, ofHexDigits?, hexDigit?_digitChar hhigh, hexDigit?_digitChar hlow, ih]
    simp only [Option.bind_eq_bind, Option.bind_some, hjoin]
    rw [UInt8.ofNat_toNat]
    rfl

/-- The octets as lower-case hexadecimal text. -/
def toHex (octets : Octets) : String :=
  String.ofList octets.hexDigits

/-- Reads hexadecimal text. -/
def ofHex? (text : String) : Option Octets :=
  ofHexDigits? text.toList

end Octets

end Wireline
