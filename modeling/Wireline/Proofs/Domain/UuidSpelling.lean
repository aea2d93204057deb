import Mathlib.Data.Fintype.Fin
import Wireline.Proofs.Domain.Uuid
import Wireline.Proofs.Text.Ascii
import Wireline.Proofs.Text.Hexadecimal

/-!
# How UUIDs are spelled

A UUID is spelled with thirty-two hexadecimal digits, or with hyphens between the groups of them
(`Uuid.IsSpelling`). Exactly these texts are read, and the text of what was read is the grouped form
in lower case (`spelling_read_exactly`).

When a text is read, hyphens are looked for at four octets only, and then all of them are left out,
wherever they stand. The number of digits makes up for it: of thirty-six octets thirty-two are left,
so the four hyphens that were found are all there are (`placed_and_count_iff`). As every digit is a
character of ASCII, octets and characters have the same places.
-/

set_option autoImplicit false
set_option relaxedAutoImplicit false

namespace Wireline

namespace Uuid

/-! ### Forms of texts -/

/-- What an octet stands for as a hexadecimal digit of ASCII. -/
def digit? (octet : UInt8) : Option Nat :=
  Octets.hexDigit? (Char.ofUInt8 octet)

/-- Thirty-two digits. -/
def IsBare (octets : Octets) : Prop :=
  octets.length = 32 ∧ ∀ octet ∈ octets, (digit? octet).isSome

/-- Thirty-six octets, with hyphens between the groups and digits everywhere else. -/
def IsGrouped (octets : Octets) : Prop :=
  octets.length = 36 ∧ ∀ place (h : place < octets.length),
    if place ∈ [8, 13, 18, 23] then octets[place] = hyphen else (digit? octets[place]).isSome

/-- The octets are those of the text of some UUID, in one of the two forms. -/
def IsSpelling (octets : Octets) : Prop :=
  IsBare octets ∨ IsGrouped octets

instance : DecidablePred IsBare := fun octets ↦
  inferInstanceAs (Decidable (octets.length = 32 ∧ ∀ octet ∈ octets, (digit? octet).isSome))

instance : DecidablePred IsGrouped := fun octets ↦
  inferInstanceAs (Decidable (octets.length = 36 ∧ ∀ place (h : place < octets.length),
    if place ∈ [8, 13, 18, 23] then octets[place] = hyphen else (digit? octets[place]).isSome))

instance : DecidablePred IsSpelling := fun octets ↦
  inferInstanceAs (Decidable (IsBare octets ∨ IsGrouped octets))

/-- There is nothing but hyphens and digits. -/
def IsPlain (octets : Octets) : Prop :=
  ∀ octet ∈ octets, octet ≠ hyphen → (digit? octet).isSome

section Octets

variable {octets : Octets}

theorem ne_hyphen_of_digit? {octet : UInt8} (h : (digit? octet).isSome) : octet ≠ hyphen := by
  rintro rfl
  cases h

theorem length_filter_ne_hyphen (octets : Octets) :
    (octets.filter (· ≠ hyphen)).length + octets.count hyphen = octets.length := by
  have hsplit := List.length_eq_countP_add_countP (· == hyphen) (l := octets)
  rw [hsplit, Nat.add_comm, List.count, ← List.countP_eq_length_filter]
  simp only [ne_eq, beq_iff_eq]

theorem mem_hyphenPlaces_iff (place : Fin 36) :
    place ∈ hyphenPlaces ↔ (place : Nat) ∈ [8, 13, 18, 23] := by
  revert place
  decide

/-- The hyphens that were looked for are all there are if and only if there are four. -/
theorem placed_and_count_iff (h : octets.length = 36) :
    ((∀ place ∈ hyphenPlaces, octets.get (place.cast h.symm) = hyphen) ∧
        octets.count hyphen = 4) ↔
      ∀ place : Fin 36, octets.get (place.cast h.symm) = hyphen ↔ place ∈ hyphenPlaces := by
  let found : Finset (Fin 36) := {place | octets.get (place.cast h.symm) = hyphen}
  have hcount : found.card = octets.count hyphen :=
    Fin.card_filter_univ_eq_vector_get_eq_count hyphen ⟨octets, h⟩
  have hplaces : hyphenPlaces.toFinset.card = 4 := rfl
  have hfound (place : Fin 36) : place ∈ found ↔ octets.get (place.cast h.symm) = hyphen :=
    Finset.mem_filter_univ place
  constructor
  · rintro ⟨hplaced, hfour⟩ place
    have hsubset : hyphenPlaces.toFinset ⊆ found := fun place hplace ↦
      (hfound place).mpr (hplaced place (List.mem_toFinset.mp hplace))
    have hsame := Finset.eq_of_subset_of_card_le hsubset (by rw [hcount, hfour, hplaces])
    rw [← hfound, ← hsame, List.mem_toFinset]
  · intro hexact
    have hsame : found = hyphenPlaces.toFinset :=
      Finset.ext fun place ↦ by rw [hfound, hexact, List.mem_toFinset]
    exact ⟨fun place ↦ (hexact place).mpr, by rw [← hcount, hsame, hplaces]⟩

theorem isGrouped_iff (h : octets.length = 36) (hplain : IsPlain octets) :
    IsGrouped octets ↔ (∀ place ∈ hyphenPlaces, octets.get (place.cast h.symm) = hyphen) ∧
      (octets.filter (· ≠ hyphen)).length = 32 := by
  have hlength := length_filter_ne_hyphen octets
  have hthirtyTwo : (octets.filter (· ≠ hyphen)).length = 32 ↔ octets.count hyphen = 4 := by
    omega
  rw [hthirtyTwo, placed_and_count_iff h]
  constructor
  · rintro ⟨-, hplaces⟩ place
    have hplace := hplaces place (Nat.lt_of_lt_of_eq place.isLt h.symm)
    rw [mem_hyphenPlaces_iff]
    split at hplace
    · next hmem => exact iff_of_true hplace hmem
    · next hmem => exact iff_of_false (ne_hyphen_of_digit? hplace) hmem
  · refine fun hexact ↦ ⟨h, fun place hplace ↦ ?_⟩
    have hiff := hexact ⟨place, Nat.lt_of_lt_of_eq hplace h⟩
    rw [mem_hyphenPlaces_iff] at hiff
    split
    · next hmem => exact hiff.mpr hmem
    · next hmem => exact hplain _ (List.getElem_mem hplace) (mt hiff.mp hmem)

theorem IsSpelling.isPlain (h : IsSpelling octets) : IsPlain octets := by
  intro octet hoctet hne
  rcases h with ⟨-, hdigits⟩ | ⟨-, hplaces⟩
  · exact hdigits octet hoctet
  · obtain ⟨place, hplace, rfl⟩ := List.getElem_of_mem hoctet
    have hthere := hplaces place hplace
    split at hthere
    · exact absurd hthere hne
    · exact hthere

theorem IsPlain.lt (h : IsPlain octets) : ∀ octet ∈ octets, octet < 128 := by
  intro octet hoctet
  by_cases hhyphen : octet = hyphen
  · rw [hhyphen]
    decide
  · exact UInt8.lt_iff_toNat_lt.mpr (Octets.toNat_lt_of_hexDigit? (h octet hoctet hhyphen))

end Octets

/-! ### Reading -/

section Ascii

variable {text : String} (hascii : ∀ c ∈ text.toList, c.toNat < 128)

include hascii

theorem toUInt8_ne_hyphen_iff {c : Char} (hc : c ∈ text.toList) :
    c.toUInt8 ≠ hyphen ↔ c ≠ '-' := by
  refine not_congr ⟨fun hhyphen ↦ ?_, fun hhyphen ↦ by rw [hhyphen]; rfl⟩
  rw [← Text.ofUInt8_toUInt8 (hascii c hc), hhyphen]
  rfl

/-- Hyphens are left out of the octets where they are left out of the characters. -/
theorem filter_octets : (Text.octets text).filter (· ≠ hyphen) =
    (text.toList.filter (· ≠ '-')).map Char.toUInt8 := by
  rw [Text.octets_of_ascii hascii, List.filter_map]
  congr 1
  refine List.filter_congr fun c hc ↦ ?_
  exact decide_eq_decide.mpr (toUInt8_ne_hyphen_iff hascii hc)

theorem length_filter_octets : ((Text.octets text).filter (· ≠ hyphen)).length =
    (text.toList.filter (· ≠ '-')).length := by
  rw [filter_octets hascii, List.length_map]

theorem map_digit? {digits : List Char} (hdigits : digits ⊆ text.toList) :
    (digits.map Char.toUInt8).map digit? = digits.map Octets.hexDigit? := by
  rw [List.map_map]
  refine List.map_congr_left fun c hc ↦ ?_
  rw [Function.comp_apply, digit?, Text.ofUInt8_toUInt8 (hascii c (hdigits hc))]

end Ascii

section Reading

variable {text : String} {digits : List Char} {uuid : Uuid}

theorem IsPlain.ascii (h : IsPlain (Text.octets text)) : ∀ c ∈ text.toList, c.toNat < 128 := by
  rw [Text.toList_of_ascii h.lt]
  intro c hc
  obtain ⟨octet, hoctet, rfl⟩ := List.mem_map.mp hc
  exact h.lt octet hoctet

theorem digits?_of_bare (h : (Text.octets text).length = 32) : digits? text = some text.toList :=
  if_pos h

theorem digits?_of_grouped (h : (Text.octets text).length = 36) : digits? text =
    if (∀ place ∈ hyphenPlaces, (Text.octets text).get (place.cast h.symm) = hyphen) ∧
        (Text.octets (String.ofList (text.toList.filter (· ≠ '-')))).length = 32 then
      some (text.toList.filter (· ≠ '-'))
    else none := by
  have hnotBare : (Text.octets text).length ≠ 32 := by omega
  rw [digits?, if_neg hnotBare, ungroup?, dif_pos h]
  simp only [List.all_eq_true, beq_iff_eq]

theorem digits?_of_length (hbare : (Text.octets text).length ≠ 32)
    (hgrouped : (Text.octets text).length ≠ 36) : digits? text = none := by
  rw [digits?, if_neg hbare, ungroup?, dif_neg hgrouped]

section Plain

variable (hplain : IsPlain (Text.octets text))

include hplain

theorem isBare_iff (hlength : (Text.octets text).length = 32) :
    IsBare (Text.octets text) ↔ text.toList.filter (· ≠ '-') = text.toList := by
  have hchars := Text.length_octets_of_ascii hplain.ascii
  have hfilter := length_filter_octets hplain.ascii
  constructor
  · rintro ⟨-, hdigits⟩
    have hall : ((Text.octets text).filter (· ≠ hyphen)).length = (Text.octets text).length :=
      List.length_filter_eq_length_iff.mpr fun octet hoctet ↦
        decide_eq_true (ne_hyphen_of_digit? (hdigits octet hoctet))
    exact List.filter_eq_self.mpr (List.length_filter_eq_length_iff.mp (by omega))
  · intro hsame
    rw [hsame, ← hchars] at hfilter
    refine ⟨hlength, fun octet hoctet ↦ hplain octet hoctet ?_⟩
    exact of_decide_eq_true (List.length_filter_eq_length_iff.mp hfilter octet hoctet)

/-- What is left without the hyphens has an octet for each character. -/
theorem length_octets_filter : (Text.octets (String.ofList (text.toList.filter (· ≠ '-')))).length =
    (text.toList.filter (· ≠ '-')).length := by
  rw [Text.length_octets_of_ascii, String.toList_ofList]
  rw [String.toList_ofList]
  exact fun c hc ↦ hplain.ascii c (List.mem_filter.mp hc).1

/-- Of a text of hyphens and digits, thirty-two digits are taken if it has one of the two forms. -/
theorem digits?_eq_some_iff :
    (digits? text = some (text.toList.filter (· ≠ '-')) ∧
      (text.toList.filter (· ≠ '-')).length = 32) ↔ IsSpelling (Text.octets text) := by
  have hchars := Text.length_octets_of_ascii hplain.ascii
  by_cases hbare : (Text.octets text).length = 32
  · have hnotGrouped : ¬ IsGrouped (Text.octets text) := fun h ↦ by have := h.1; omega
    rw [digits?_of_bare hbare, Option.some.injEq, IsSpelling, or_iff_left hnotGrouped,
      isBare_iff hplain hbare, eq_comm, and_iff_left_iff_imp]
    intro hsame
    rw [hsame, ← hchars, hbare]
  · have hnotBare : ¬ IsBare (Text.octets text) := fun h ↦ hbare h.1
    rw [IsSpelling, or_iff_right hnotBare]
    by_cases hgrouped : (Text.octets text).length = 36
    · rw [digits?_of_grouped hgrouped, length_octets_filter hplain, isGrouped_iff hgrouped hplain,
        length_filter_octets hplain.ascii, Option.ite_none_right_eq_some, and_iff_left rfl,
        and_assoc, and_self]
    · rw [digits?_of_length hbare hgrouped]
      exact iff_of_false (by rintro ⟨⟨⟩, -⟩) fun h ↦ hgrouped h.1

end Plain

theorem parse_eq_ok_iff : parse text = .ok uuid ↔
    ∃ digits, digits? text = some digits ∧ Octets.ofHexDigits? digits = some uuid.octets := by
  have hparse : parse text = .ok uuid ↔ parse? text = some uuid := by
    unfold parse
    cases parse? text <;> simp
  have hoctets (octets : Octets) : ofOctets? octets = some uuid ↔ octets = uuid.octets := by
    rw [ofOctets?, Option.dite_none_right_eq_some]
    refine ⟨fun ⟨_, h⟩ ↦ by rw [← Option.some.inj h], ?_⟩
    rintro rfl
    exact ⟨uuid.length_octets, rfl⟩
  rw [hparse, parse?]
  simp only [Option.bind_eq_bind, Option.bind_eq_some_iff, hoctets, exists_eq_right]

theorem isPlain_of_chars (h : ∀ c ∈ text.toList, c ≠ '-' → (Octets.hexDigit? c).isSome) :
    IsPlain (Text.octets text) := by
  have hascii : ∀ c ∈ text.toList, c.toNat < 128 := by
    intro c hc
    by_cases hhyphen : c = '-'
    · rw [hhyphen]
      decide
    · exact Octets.toNat_lt_of_hexDigit? (h c hc hhyphen)
  intro octet hoctet hne
  rw [Text.octets_of_ascii hascii] at hoctet
  obtain ⟨c, hc, rfl⟩ := List.mem_map.mp hoctet
  rw [digit?, Text.ofUInt8_toUInt8 (hascii c hc)]
  exact h c hc ((toUInt8_ne_hyphen_iff hascii hc).mp hne)

/-- In a text that is read there is nothing but hyphens and digits, and its digits are what is left
without the hyphens. -/
theorem isPlain_of_read {octets : Octets} (hdigits : digits? text = some digits)
    (hread : Octets.ofHexDigits? digits = some octets) :
    IsPlain (Text.octets text) ∧ digits = text.toList.filter (· ≠ '-') := by
  have hsome : ∀ c ∈ digits, (Octets.hexDigit? c).isSome := fun c ↦
    Octets.isSome_of_ofHexDigits? hread
  by_cases hbare : (Text.octets text).length = 32
  · obtain rfl := Option.some.inj ((digits?_of_bare hbare).symm.trans hdigits)
    refine ⟨isPlain_of_chars fun c hc _ ↦ hsome c hc, (List.filter_eq_self.mpr fun c hc ↦ ?_).symm⟩
    obtain ⟨n, hn⟩ := Option.isSome_iff_exists.mp (hsome c hc)
    exact decide_eq_true (Octets.digit_of_hexDigit? hn).2.1
  · by_cases hgrouped : (Text.octets text).length = 36
    · rw [digits?_of_grouped hgrouped, Option.ite_none_right_eq_some, Option.some.injEq] at hdigits
      obtain ⟨-, rfl⟩ := hdigits
      refine ⟨isPlain_of_chars fun c hc hne ↦ hsome c ?_, rfl⟩
      exact List.mem_filter.mpr ⟨hc, decide_eq_true hne⟩
    · rw [digits?_of_length hbare hgrouped] at hdigits
      cases hdigits

/-- The digits stand for the halves of the octets, one after the other. Hyphens are left out. -/
def Spells (octets : Octets) (uuid : Uuid) : Prop :=
  (octets.filter (· ≠ hyphen)).map digit? = uuid.octets.halves.map some

theorem spells_iff (hplain : IsPlain (Text.octets text)) : Spells (Text.octets text) uuid ↔
    Octets.ofHexDigits? (text.toList.filter (· ≠ '-')) = some uuid.octets := by
  rw [Octets.ofHexDigits?_eq_some_iff, Spells, filter_octets hplain.ascii,
    map_digit? hplain.ascii (List.filter_subset_self _)]

theorem length_of_ofHexDigits? (h : Octets.ofHexDigits? digits = some uuid.octets) :
    digits.length = 32 := by
  have hlength := congrArg List.length (Octets.ofHexDigits?_eq_some_iff.mp h)
  rwa [List.length_map, List.length_map, Octets.length_halves, uuid.length_octets] at hlength

theorem parse_iff_spells : parse text = .ok uuid ↔
    IsSpelling (Text.octets text) ∧ Spells (Text.octets text) uuid := by
  rw [parse_eq_ok_iff]
  constructor
  · rintro ⟨digits, hdigits, hread⟩
    obtain ⟨hplain, rfl⟩ := isPlain_of_read hdigits hread
    exact ⟨(digits?_eq_some_iff hplain).mp ⟨hdigits, length_of_ofHexDigits? hread⟩,
      (spells_iff hplain).mpr hread⟩
  · rintro ⟨hform, hspells⟩
    exact ⟨_, ((digits?_eq_some_iff hform.isPlain).mpr hform).1,
      (spells_iff hform.isPlain).mp hspells⟩

/-- Whatever has one of the two forms spells some UUID. -/
theorem exists_spells (hform : IsSpelling (Text.octets text)) :
    ∃ uuid, Spells (Text.octets text) uuid := by
  have hplain := hform.isPlain
  have hlength := ((digits?_eq_some_iff hplain).mpr hform).2
  have hsome : ∀ c ∈ text.toList.filter (· ≠ '-'), (Octets.hexDigit? c).isSome := by
    intro c hc
    obtain ⟨hmem, hne⟩ := List.mem_filter.mp hc
    have hoctet := hplain c.toUInt8
    rw [Text.octets_of_ascii hplain.ascii, digit?, Text.ofUInt8_toUInt8 (hplain.ascii c hmem),
      toUInt8_ne_hyphen_iff hplain.ascii hmem] at hoctet
    exact hoctet (List.mem_map_of_mem hmem) (of_decide_eq_true hne)
  obtain ⟨octets, hread⟩ := Octets.exists_ofHexDigits? hsome (by rw [hlength])
  have hoctets := congrArg List.length (Octets.ofHexDigits?_eq_some_iff.mp hread)
  rw [List.length_map, List.length_map, Octets.length_halves, hlength] at hoctets
  exact ⟨⟨octets, by omega⟩, (spells_iff hplain).mpr hread⟩

/-! ### Printing -/

theorem ascii_digitChar : ∀ n < 16, (Nat.digitChar n).toNat < 128 := by decide

theorem ascii_text (uuid : Uuid) : ∀ c ∈ uuid.text.toList, c.toNat < 128 := by
  intro c hc
  rcases mem_text hc with rfl | ⟨n, hn, rfl⟩
  · decide
  · exact ascii_digitChar n hn

theorem length_hexDigits (uuid : Uuid) : uuid.octets.hexDigits.length = 32 := by
  rw [Octets.length_hexDigits, uuid.length_octets]

/-- The text of a UUID has a hyphen at each place and no other one. -/
theorem digits?_text (uuid : Uuid) : digits? uuid.text = some uuid.octets.hexDigits := by
  have hgrouped : (Text.octets uuid.text).length = 36 := by
    rw [Text.length_octets_of_ascii uuid.ascii_text, toList_text,
      length_grouped uuid.length_hexDigits]
  have hascii : ∀ c ∈ (String.ofList uuid.octets.hexDigits).toList, c.toNat < 128 := by
    rw [String.toList_ofList]
    intro c hc
    obtain ⟨n, hn, rfl⟩ := Octets.mem_hexDigits hc
    exact ascii_digitChar n hn
  rw [digits?_of_grouped hgrouped, filter_text, if_pos]
  constructor
  · intro place hplace
    have hhyphen := getElem?_grouped uuid.length_hexDigits place
      ((mem_hyphenPlaces_iff place).mp hplace)
    rw [List.get_eq_getElem, ← Option.some_inj, ← List.getElem?_eq_getElem]
    simp only [Fin.val_cast, Text.octets_of_ascii uuid.ascii_text, List.getElem?_map, toList_text,
      hhyphen]
    rfl
  · rw [Text.length_octets_of_ascii hascii, String.toList_ofList, length_hexDigits]

theorem parse_text (uuid : Uuid) : parse uuid.text = .ok uuid :=
  parse_eq_ok_iff.mpr ⟨_, digits?_text uuid, Octets.ofHexDigits?_hexDigits uuid.octets⟩

theorem getElem?_of_isGrouped (h : IsGrouped (Text.octets text)) :
    ∀ place ∈ [8, 13, 18, 23], text.toList[place]? = some '-' := by
  have hplain : IsPlain (Text.octets text) := IsSpelling.isPlain (.inr h)
  intro place hplace
  have hbound : place < (Text.octets text).length := by
    have := h.1
    simp only [List.mem_cons, List.not_mem_nil, or_false] at hplace
    omega
  have hhyphen := h.2 place hbound
  rw [if_pos hplace] at hhyphen
  rw [Text.toList_of_ascii hplain.lt, List.getElem?_map, List.getElem?_eq_getElem hbound, hhyphen]
  rfl

/-- What is printed for a text that was read are its digits in lower case. -/
theorem toList_text_of_parse (h : parse text = .ok uuid) :
    uuid.text.toList = grouped ((text.toList.filter (· ≠ '-')).map Char.toLower) := by
  obtain ⟨digits, hdigits, hread⟩ := parse_eq_ok_iff.mp h
  rw [toList_text, ← Octets.map_toLower hread, (isPlain_of_read hdigits hread).2]

theorem text_of_isGrouped (h : parse text = .ok uuid) (hgrouped : IsGrouped (Text.octets text)) :
    uuid.text = text.toLower := by
  have hplain : IsPlain (Text.octets text) := IsSpelling.isPlain (.inr hgrouped)
  have hlength : text.toList.length = 36 := by
    rw [← Text.length_octets_of_ascii hplain.ascii, hgrouped.1]
  have hdigits := ((digits?_eq_some_iff hplain).mpr (.inr hgrouped)).2
  have hsame := grouped_filter hlength (getElem?_of_isGrouped hgrouped) hdigits
  apply String.toList_injective
  rw [toList_text_of_parse h, ← map_toLower_grouped, hsame]
  exact String.toList_map.symm

theorem text_of_isBare (h : parse text = .ok uuid) (hbare : IsBare (Text.octets text)) :
    uuid.text = String.ofList (grouped text.toLower.toList) := by
  have hplain : IsPlain (Text.octets text) := IsSpelling.isPlain (.inl hbare)
  have hsame := ((digits?_eq_some_iff hplain).mpr (.inl hbare)).1
  rw [digits?_of_bare hbare.1, Option.some.injEq] at hsame
  apply String.toList_injective
  rw [toList_text_of_parse h, ← hsame, String.toList_ofList]
  exact congrArg grouped String.toList_map.symm

/-- A text is read as a UUID if and only if it is thirty-two hexadecimal digits of either case, or
thirty-six octets with hyphens at four places and such digits everywhere else. Two digits stand for
an octet of the UUID. Every other text is malformed. The text of a UUID is read as that UUID, and
whatever text is read, the UUID is printed as its grouped form in lower case. -/
theorem spelling_read_exactly :
    (∀ text uuid, parse text = .ok uuid ↔
      IsSpelling (Text.octets text) ∧ Spells (Text.octets text) uuid) ∧
    (∀ text, IsSpelling (Text.octets text) → ∃ uuid, parse text = .ok uuid) ∧
    (∀ text, ¬ IsSpelling (Text.octets text) → parse text = .error (.malformed .uuid text)) ∧
    (∀ uuid : Uuid, parse uuid.text = .ok uuid) ∧
    ∀ text uuid, parse text = .ok uuid →
      (IsGrouped (Text.octets text) → uuid.text = text.toLower) ∧
      (IsBare (Text.octets text) → uuid.text = String.ofList (grouped text.toLower.toList)) := by
  refine ⟨fun text uuid ↦ parse_iff_spells, fun text hform ↦ ?_, fun text hform ↦ ?_, parse_text,
    fun text uuid h ↦ ⟨text_of_isGrouped h, text_of_isBare h⟩⟩
  · obtain ⟨uuid, hspells⟩ := exists_spells hform
    exact ⟨uuid, parse_iff_spells.mpr ⟨hform, hspells⟩⟩
  · cases hparse : parse? text with
    | none => rw [parse, hparse]
    | some uuid =>
      have hread : parse text = .ok uuid := by rw [parse, hparse]
      exact absurd (parse_iff_spells.mp hread).1 hform

/-- Upper case in groups is read and printed in lower case. With a letter of two octets in it, a
text of as many octets is malformed. -/
theorem spelling_read_exactly_octets :
    let uuid : Uuid := ⟨[0xa1, 0xb2, 0xc3, 0xd4, 1, 2, 0x43, 4, 0x85, 6, 7, 8, 9, 10, 11, 12], rfl⟩
    parse "A1B2C3D4-0102-4304-8506-0708090A0B0C" = .ok uuid ∧
      uuid.text = "a1b2c3d4-0102-4304-8506-0708090a0b0c" ∧
      parse "A1B2C3D4-0102-4304-8506-0708090A0Bé" =
        .error (.malformed .uuid "A1B2C3D4-0102-4304-8506-0708090A0Bé") := by
  intro uuid
  obtain ⟨hiff, -, hmalformed, -, htext⟩ := spelling_read_exactly
  have hgrouped : IsGrouped (Text.octets "A1B2C3D4-0102-4304-8506-0708090A0B0C") := by decide
  have hspells : Spells (Text.octets "A1B2C3D4-0102-4304-8506-0708090A0B0C") uuid := by rfl
  have hparse := (hiff _ uuid).mpr ⟨.inr hgrouped, hspells⟩
  have hlower : "A1B2C3D4-0102-4304-8506-0708090A0B0C".toLower =
      "a1b2c3d4-0102-4304-8506-0708090a0b0c" :=
    String.toList_injective (String.toList_map.trans rfl)
  exact ⟨hparse, hlower ▸ (htext _ uuid hparse).1 hgrouped, hmalformed _ (by decide)⟩

end Reading

end Uuid

end Wireline
