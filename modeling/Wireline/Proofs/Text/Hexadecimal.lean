import Mathlib.Data.List.Basic
import Wireline.Octets

/-!
# Hexadecimal digits

A hexadecimal digit of either case stands for a half of an octet. The digits of octets stand for
their halves, one after the other (`hexDigits_eq_map`), and whatever digits stand for these are read
as the octets, and no others (`ofHexDigits?_eq_some_iff`). In lower case they are the digits that
are written (`map_toLower`).
-/

set_option autoImplicit false
set_option relaxedAutoImplicit false

namespace Wireline.Octets

variable {octets : Octets} {digits : List Char}

/-! ### One digit -/

theorem toNat_lt_of_hexDigit? {c : Char} (h : (hexDigit? c).isSome) : c.toNat < 128 := by
  have hle {bound : Char} (hbound : bound.toNat < 128) (hc : c ≤ bound) : c.toNat < 128 :=
    Nat.lt_of_le_of_lt (UInt32.le_iff_toNat_le.mp hc) hbound
  unfold hexDigit? at h
  split at h
  · next hrange => exact hle (by decide) hrange.2
  · split at h
    · next hrange => exact hle (by decide) hrange.2
    · split at h
      · next hrange => exact hle (by decide) hrange.2
      · cases h

/-- What a digit stands for is written as the same digit in lower case. -/
theorem digit_of_hexDigit? {c : Char} {n : Nat} (h : hexDigit? c = some n) :
    n < 16 ∧ c ≠ '-' ∧ c.toLower = Nat.digitChar n := by
  have hascii : ∀ code < 128, ∀ m ∈ hexDigit? (Char.ofNat code),
      m < 16 ∧ Char.ofNat code ≠ '-' ∧ (Char.ofNat code).toLower = Nat.digitChar m := by
    decide
  have hdigit := hascii c.toNat (toNat_lt_of_hexDigit? (by rw [h]; rfl)) n
  rw [Char.ofNat_toNat] at hdigit
  exact hdigit h

/-! ### Halves of octets -/

/-- The two halves of each octet, the higher one first. -/
def halves (octets : Octets) : List Nat :=
  octets.flatMap fun octet ↦ [octet.toNat / 16, octet.toNat % 16]

theorem halves_cons (octet : UInt8) (rest : Octets) :
    halves (octet :: rest) = octet.toNat / 16 :: octet.toNat % 16 :: rest.halves := rfl

theorem length_halves (octets : Octets) : octets.halves.length = 2 * octets.length := by
  induction octets with
  | nil => rfl
  | cons octet rest ih =>
    rw [halves_cons, List.length_cons, List.length_cons, List.length_cons, ih]
    omega

theorem hexDigits_eq_map (octets : Octets) :
    octets.hexDigits = octets.halves.map Nat.digitChar := by
  rw [hexDigits, halves, List.map_flatMap]
  rfl

theorem length_hexDigits (octets : Octets) : octets.hexDigits.length = 2 * octets.length := by
  rw [hexDigits_eq_map, List.length_map, length_halves]

/-- Two digits are read as the octet with these halves. -/
theorem halves_ofNat {high low : Nat} (hhigh : high < 16) (hlow : low < 16) :
    (UInt8.ofNat (high * 16 + low)).toNat / 16 = high ∧
      (UInt8.ofNat (high * 16 + low)).toNat % 16 = low := by
  have hfits : high * 16 + low < 256 := by omega
  rw [UInt8.toNat_ofNat', Nat.mod_eq_of_lt hfits]
  omega

/-! ### Reading -/

/-- Digits are read as the octets whose halves they stand for. -/
theorem ofHexDigits?_eq_some_iff :
    ofHexDigits? digits = some octets ↔ digits.map hexDigit? = octets.halves.map some := by
  induction digits using ofHexDigits?.induct generalizing octets with
  | case1 =>
    cases octets with
    | nil => exact iff_of_true rfl rfl
    | cons octet rest => exact iff_of_false (by rintro ⟨⟩) (by rintro ⟨⟩)
  | case2 first second others ih =>
    constructor
    · intro hread
      simp only [ofHexDigits?, Option.bind_eq_bind, Option.bind_eq_some_iff] at hread
      obtain ⟨high, hhigh, low, hlow, rest, hrest, hoctets⟩ := hread
      obtain ⟨hhalf, hhalf'⟩ :=
        halves_ofNat (digit_of_hexDigit? hhigh).1 (digit_of_hexDigit? hlow).1
      rw [← Option.some.inj hoctets, halves_cons, hhalf, hhalf', List.map_cons, List.map_cons,
        hhigh, hlow, ih.mp hrest]
      rfl
    · intro hhalves
      cases octets with
      | nil => cases hhalves
      | cons octet rest =>
        rw [halves_cons] at hhalves
        simp only [List.map_cons, List.cons.injEq] at hhalves
        obtain ⟨hhigh, hlow, hrest⟩ := hhalves
        have hjoin : octet.toNat / 16 * 16 + octet.toNat % 16 = octet.toNat := by omega
        simp only [ofHexDigits?, hhigh, hlow, ih.mpr hrest, Option.bind_eq_bind, Option.bind_some,
          hjoin, UInt8.ofNat_toNat]
        rfl
  | case3 single =>
    refine iff_of_false (by rintro ⟨⟩) fun hhalves ↦ ?_
    have hlength := congrArg List.length hhalves
    rw [List.length_map, List.length_map, length_halves, List.length_singleton] at hlength
    omega

theorem isSome_of_ofHexDigits? (h : ofHexDigits? digits = some octets) {c : Char}
    (hc : c ∈ digits) : (hexDigit? c).isSome := by
  have hmem := List.mem_map_of_mem (f := hexDigit?) hc
  rw [ofHexDigits?_eq_some_iff.mp h] at hmem
  obtain ⟨n, -, hn⟩ := List.mem_map.mp hmem
  rw [← hn]
  rfl

theorem exists_ofHexDigits? (h : ∀ c ∈ digits, (hexDigit? c).isSome)
    (heven : digits.length % 2 = 0) : ∃ octets, ofHexDigits? digits = some octets := by
  induction digits using ofHexDigits?.induct with
  | case1 => exact ⟨[], rfl⟩
  | case2 first second others ih =>
    simp only [List.forall_mem_cons, Option.isSome_iff_exists] at h
    obtain ⟨⟨high, hhigh⟩, ⟨low, hlow⟩, hothers⟩ := h
    obtain ⟨octets, hoctets⟩ := ih (by simpa only [Option.isSome_iff_exists] using hothers)
      (by rw [List.length_cons, List.length_cons] at heven; omega)
    exact ⟨_, by rw [ofHexDigits?, hhigh, hlow, hoctets]; rfl⟩
  | case3 single => simp at heven

/-- Digits that are read as octets are the digits of these, in lower case. -/
theorem map_toLower (h : ofHexDigits? digits = some octets) :
    digits.map Char.toLower = octets.hexDigits := by
  let lower (digit : Option Nat) : Char := Nat.digitChar (digit.getD 0)
  have hlower : ∀ c ∈ digits, c.toLower = lower (hexDigit? c) := by
    intro c hc
    obtain ⟨n, hn⟩ := Option.isSome_iff_exists.mp (isSome_of_ofHexDigits? h hc)
    rw [hn]
    exact (digit_of_hexDigit? hn).2.2
  calc digits.map Char.toLower
    _ = (digits.map hexDigit?).map lower := by
        rw [List.map_map]
        exact List.map_congr_left hlower
    _ = (octets.halves.map some).map lower := by rw [ofHexDigits?_eq_some_iff.mp h]
    _ = octets.hexDigits := by
        rw [List.map_map, hexDigits_eq_map]
        rfl

end Wireline.Octets
