import Wireline.Domain.Uuid

/-!
# The text of a UUID

The text is made of lower-case hexadecimal digits and hyphens (`mem_text`), and without its hyphens
it is the digits of the octets (`filter_text`). So no two UUIDs have one text (`text_injective`).
Characters with hyphens at the right places and no other ones are the groups of their digits
(`grouped_filter`).
-/

set_option autoImplicit false
set_option relaxedAutoImplicit false

namespace Wireline

theorem Octets.mem_hexDigits {octets : Octets} {c : Char} (h : c ∈ octets.hexDigits) :
    ∃ n < 16, c = Nat.digitChar n := by
  obtain ⟨octet, -, hc⟩ := List.mem_flatMap.mp h
  have hlt := octet.toNat_lt
  simp only [List.mem_cons, List.not_mem_nil, or_false] at hc
  rcases hc with rfl | rfl
  · exact ⟨octet.toNat / 16, by omega, rfl⟩
  · exact ⟨octet.toNat % 16, by omega, rfl⟩

namespace Uuid

/-- Hyphens between groups of 8, 4, 4, 4 and more characters. -/
def grouped (digits : List Char) : List Char :=
  digits.take 8 ++ '-' :: (digits.drop 8).take 4 ++ '-' :: (digits.drop 12).take 4 ++
    '-' :: (digits.drop 16).take 4 ++ '-' :: digits.drop 20

theorem toList_text (uuid : Uuid) : uuid.text.toList = grouped uuid.octets.hexDigits :=
  String.toList_ofList

theorem mem_text {uuid : Uuid} {c : Char} (h : c ∈ uuid.text.toList) :
    c = '-' ∨ ∃ n < 16, c = Nat.digitChar n := by
  have hdigits : c = '-' ∨ c ∈ uuid.octets.hexDigits := by
    rw [toList_text, grouped] at h
    simp only [List.mem_append, List.mem_cons] at h
    rcases h with (((h | h | h) | h | h) | h | h) | h | h
    all_goals first
      | exact .inl h
      | exact .inr (List.mem_of_mem_take h)
      | exact .inr (List.mem_of_mem_drop (List.mem_of_mem_take h))
      | exact .inr (List.mem_of_mem_drop h)
  exact hdigits.imp_right Octets.mem_hexDigits

/-- The groups make up the digits. -/
theorem join_groups (digits : List Char) :
    digits.take 8 ++ ((digits.drop 8).take 4 ++ ((digits.drop 12).take 4 ++
      ((digits.drop 16).take 4 ++ digits.drop 20))) = digits := by
  have htwelve : digits.drop 12 = (digits.drop 8).drop 4 := by rw [List.drop_drop]
  have hsixteen : digits.drop 16 = (digits.drop 12).drop 4 := by rw [List.drop_drop]
  have htwenty : digits.drop 20 = (digits.drop 16).drop 4 := by rw [List.drop_drop]
  rw [htwenty, List.take_append_drop, hsixteen, List.take_append_drop, htwelve,
    List.take_append_drop, List.take_append_drop]

/-- A text without its hyphens. -/
theorem filter_text (uuid : Uuid) :
    uuid.text.toList.filter (· ≠ '-') = uuid.octets.hexDigits := by
  have hdigit : ∀ n < 16, Nat.digitChar n ≠ '-' := by decide
  have hkept {part : List Char} (hpart : part ⊆ uuid.octets.hexDigits) :
      part.filter (· ≠ '-') = part := by
    refine List.filter_eq_self.mpr fun c hc ↦ ?_
    obtain ⟨n, hn, rfl⟩ := Octets.mem_hexDigits (hpart hc)
    exact decide_eq_true (hdigit n hn)
  have hgroup (start : Nat) :
      (((uuid.octets.hexDigits.drop start).take 4).filter (· ≠ '-')) =
        (uuid.octets.hexDigits.drop start).take 4 :=
    hkept fun _ hc ↦ List.mem_of_mem_drop (List.mem_of_mem_take hc)
  have hhyphen (rest : List Char) :
      ('-' :: rest).filter (· ≠ '-') = rest.filter (· ≠ '-') := rfl
  rw [toList_text, grouped]
  simp only [List.filter_append, hhyphen, hgroup, hkept (List.take_subset _ _),
    hkept (List.drop_subset _ _), List.append_assoc, join_groups]

theorem text_injective {first second : Uuid} (h : first.text = second.text) : first = second := by
  have hdigits : first.octets.hexDigits = second.octets.hexDigits := by
    rw [← filter_text, ← filter_text, h]
  have hoctets : some first.octets = some second.octets := by
    rw [← Octets.ofHexDigits?_hexDigits, ← Octets.ofHexDigits?_hexDigits, hdigits]
  cases first
  cases second
  cases hoctets
  rfl

/-! ### Groups -/

section Groups

variable {digits chars : List Char}

theorem length_grouped (h : digits.length = 32) : (grouped digits).length = 36 := by
  simp [grouped, h]

theorem getElem?_grouped (h : digits.length = 32) :
    ∀ place ∈ [8, 13, 18, 23], (grouped digits)[place]? = some '-' := by
  simp [grouped, List.getElem?_append, h]

theorem map_toLower_grouped (digits : List Char) :
    (grouped digits).map Char.toLower = grouped (digits.map Char.toLower) := by
  have hhyphen : '-'.toLower = '-' := rfl
  simp only [grouped, List.map_append, List.map_cons, List.map_take, List.map_drop, hhyphen]

theorem grouped_append {a b c d e : List Char} (ha : a.length = 8) (hb : b.length = 4)
    (hc : c.length = 4) (hd : d.length = 4) : grouped (a ++ (b ++ (c ++ (d ++ e)))) =
      a ++ '-' :: (b ++ '-' :: (c ++ '-' :: (d ++ '-' :: e))) := by
  simp (disch := omega) [grouped, List.drop_append, ha, hb, hc, List.drop_of_length_le]

/-- What follows a place is cut at the next hyphen. -/
theorem drop_eq_append (start size : Nat) (h : chars[start + size]? = some '-') :
    chars.drop start =
      (chars.drop start).take size ++ '-' :: chars.drop (start + size + 1) := by
  obtain ⟨hbound, hget⟩ := List.getElem?_eq_some_iff.mp h
  calc chars.drop start
    _ = (chars.drop start).take size ++ (chars.drop start).drop size :=
        (List.take_append_drop ..).symm
    _ = (chars.drop start).take size ++ '-' :: chars.drop (start + size + 1) := by
        rw [List.drop_drop, List.drop_eq_getElem_cons hbound, hget]

/-- With a hyphen at each place and no other one, the characters are their own groups. -/
theorem grouped_filter (hlength : chars.length = 36)
    (hplaces : ∀ place ∈ [8, 13, 18, 23], chars[place]? = some '-')
    (hdigits : (chars.filter (· ≠ '-')).length = 32) :
    grouped (chars.filter (· ≠ '-')) = chars := by
  have hfirst := drop_eq_append 0 8 (hplaces 8 (by decide))
  have hsecond := drop_eq_append 9 4 (hplaces 13 (by decide))
  have hthird := drop_eq_append 14 4 (hplaces 18 (by decide))
  have hfourth := drop_eq_append 19 4 (hplaces 23 (by decide))
  rw [hsecond, hthird, hfourth, List.drop_zero] at hfirst
  have ha : (chars.take 8).length = 8 := by simp [hlength]
  have hb : ((chars.drop 9).take 4).length = 4 := by simp [hlength]
  have hc : ((chars.drop 14).take 4).length = 4 := by simp [hlength]
  have hd : ((chars.drop 19).take 4).length = 4 := by simp [hlength]
  have he : (chars.drop 24).length = 12 := by simp [hlength]
  generalize chars.take 8 = a, (chars.drop 9).take 4 = b, (chars.drop 14).take 4 = c,
    (chars.drop 19).take 4 = d, chars.drop 24 = e at *
  subst hfirst
  have hhyphen (rest : List Char) :
      ('-' :: rest).filter (· ≠ '-') = rest.filter (· ≠ '-') := rfl
  have hle (part : List Char) : (part.filter (· ≠ '-')).length ≤ part.length :=
    List.length_filter_le ..
  have hkept {part : List Char} (hpart : (part.filter (· ≠ '-')).length = part.length) :
      part.filter (· ≠ '-') = part :=
    List.filter_eq_self.mpr (List.length_filter_eq_length_iff.mp hpart)
  -- No group has more digits than characters, so each has as many.
  have := hle a
  have := hle b
  have := hle c
  have := hle d
  have := hle e
  simp only [List.filter_append, hhyphen, List.length_append] at hdigits ⊢
  rw [hkept (by omega : _ = a.length), hkept (by omega : _ = b.length),
    hkept (by omega : _ = c.length), hkept (by omega : _ = d.length),
    hkept (by omega : _ = e.length)]
  exact grouped_append ha hb hc hd

end Groups

end Uuid

end Wireline
