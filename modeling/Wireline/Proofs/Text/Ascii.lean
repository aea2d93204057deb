import Wireline.Text.Utf8

/-!
# Text in ASCII

A character below 128 is written as the octet with its number. So a text of such characters has one
octet for each of them (`octets_of_ascii`), and octets below 128 are those of one text only, which
has one character for each octet (`toList_of_ascii`).
-/

set_option autoImplicit false
set_option relaxedAutoImplicit false

namespace Wireline.Text

theorem octets_eq_flatMap (text : String) :
    octets text = text.toList.flatMap String.utf8EncodeChar := by
  rw [octets, ← String.utf8Encode_toList, List.utf8Encode]
  exact List.toList_data_toByteArray

theorem octets_injective {first second : String} (h : octets first = octets second) :
    first = second := by
  have hread := ofOctets?_octets first
  rw [h, ofOctets?_octets] at hread
  exact (Option.some.inj hread).symm

theorem utf8EncodeChar_of_ascii {c : Char} (h : c.toNat < 128) :
    String.utf8EncodeChar c = [c.toUInt8] := by
  refine String.utf8EncodeChar_eq_singleton (Char.utf8Size_eq_one_iff.mpr ?_)
  exact UInt32.le_iff_toNat_le.mpr (Nat.le_of_lt_succ h)

theorem octets_of_ascii {text : String} (h : ∀ c ∈ text.toList, c.toNat < 128) :
    octets text = text.toList.map Char.toUInt8 := by
  rw [octets_eq_flatMap]
  generalize text.toList = chars at h
  induction chars with
  | nil => rfl
  | cons c rest ih =>
    rw [List.flatMap_cons, List.map_cons, utf8EncodeChar_of_ascii (h c List.mem_cons_self),
      ih fun other hother ↦ h other (List.mem_cons_of_mem c hother)]
    rfl

theorem length_octets_of_ascii {text : String} (h : ∀ c ∈ text.toList, c.toNat < 128) :
    (octets text).length = text.toList.length := by
  rw [octets_of_ascii h, List.length_map]

theorem toUInt8_ofUInt8 (octet : UInt8) : (Char.ofUInt8 octet).toUInt8 = octet :=
  UInt8.toUInt8_toUInt32 octet

theorem ofUInt8_toUInt8 {c : Char} (h : c.toNat < 128) : Char.ofUInt8 c.toUInt8 = c := by
  have hfits : c.toNat < 256 := Nat.lt_trans h (by decide)
  refine Char.toNat_inj.mp ?_
  show c.val.toUInt8.toUInt32.toNat = c.toNat
  rw [UInt8.toNat_toUInt32, UInt32.toNat_toUInt8]
  exact Nat.mod_eq_of_lt hfits

theorem toList_of_ascii {text : String} (h : ∀ octet ∈ octets text, octet < 128) :
    text.toList = (octets text).map Char.ofUInt8 := by
  let spelled := String.ofList ((octets text).map Char.ofUInt8)
  have hlist : spelled.toList = (octets text).map Char.ofUInt8 := String.toList_ofList
  have hascii : ∀ c ∈ spelled.toList, c.toNat < 128 := by
    rw [hlist]
    intro c hc
    obtain ⟨octet, hoctet, rfl⟩ := List.mem_map.mp hc
    exact h octet hoctet
  have hsame : octets spelled = octets text := by
    rw [octets_of_ascii hascii, hlist, List.map_map]
    exact List.map_id'' toUInt8_ofUInt8 _
  rw [← hlist, octets_injective hsame]

end Wireline.Text
