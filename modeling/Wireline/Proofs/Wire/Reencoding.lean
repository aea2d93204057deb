import Wireline.Proofs.Wire.RoundTrip

/-!
# What was read can be written

Whatever stands in a value that the grammar derives is derived itself, from a part of the octets
(`Grammar.derives_of_occurs`). So nothing in it has more content than there are octets, and no
integer in it is beyond what a head can hold: a value that was read is a value of the data model
whose integers are in range (`Grammar.Derives.isData`, `Grammar.Derives.inRange`). It is written in
the one way in which values are written, whatever heads, runs and floats it was read from, and that
is read as the same value (`reencoded_canonical`).
-/

set_option autoImplicit false
set_option relaxedAutoImplicit false

namespace Wireline

namespace Grammar

/-! ### Parts of derived values -/

theorem derives_of_mem_items {wire : Octets} {items : List Value} {item : Value}
    (h : Derives wire (.items items)) (hmem : item ∈ items) :
    ∃ part, part <:+: wire ∧ Derives part (.value item) := by
  induction items generalizing wire with
  | nil => cases hmem
  | cons first others ih =>
    cases h with
    | @moreItems wire rest _ _ hfirst hothers =>
      rcases List.mem_cons.mp hmem with rfl | hmem
      · exact ⟨wire, (List.prefix_append wire rest).isInfix, hfirst⟩
      · obtain ⟨part, hpart, hitem⟩ := ih hothers hmem
        exact ⟨part, hpart.trans (List.suffix_append wire rest).isInfix, hitem⟩

theorem derives_of_mem_entries {wire : Octets} {entries : List (Value × Value)}
    {key value : Value} (h : Derives wire (.entries entries)) (hmem : (key, value) ∈ entries) :
    (∃ part, part <:+: wire ∧ Derives part (.value key)) ∧
      ∃ part, part <:+: wire ∧ Derives part (.value value) := by
  induction entries generalizing wire with
  | nil => cases hmem
  | cons first others ih =>
    cases h with
    | @moreEntries wire second rest _ _ _ hkey hvalue hothers =>
      rcases List.mem_cons.mp hmem with heq | hmem
      · cases heq
        have hboth : wire ++ second <:+: wire ++ second ++ rest :=
          (List.prefix_append _ rest).isInfix
        exact ⟨⟨wire, (List.prefix_append wire second).isInfix.trans hboth, hkey⟩,
          ⟨second, (List.suffix_append wire second).isInfix.trans hboth, hvalue⟩⟩
      · obtain ⟨⟨part, hpart, hkey⟩, other, hother, hvalue⟩ := ih hothers hmem
        have hrest : rest <:+: wire ++ second ++ rest := (List.suffix_append _ rest).isInfix
        exact ⟨⟨part, hpart.trans hrest, hkey⟩, ⟨other, hother.trans hrest, hvalue⟩⟩

theorem derives_items_of_array {wire : Octets} {items : List Value}
    (h : Derives wire (.value (.array items))) :
    ∃ part, part <:+: wire ∧ Derives part (.items items) := by
  cases h with
  | @array head wire _ _ hitems => exact ⟨wire, (List.suffix_append head wire).isInfix, hitems⟩
  | @arrayRun wire _ hitems => exact ⟨wire, ⟨[openEnded .array], [stop], rfl⟩, hitems⟩

theorem derives_entries_of_map {wire : Octets} {entries : List (Value × Value)}
    (h : Derives wire (.value (.map entries))) :
    ∃ part, part <:+: wire ∧ Derives part (.entries entries) := by
  cases h with
  | @map head wire _ _ hentries => exact ⟨wire, (List.suffix_append head wire).isInfix, hentries⟩
  | @mapRun wire _ hentries => exact ⟨wire, ⟨[openEnded .map], [stop], rfl⟩, hentries⟩

/-- What occurs in a derived value is derived from a part of the octets. -/
theorem derives_of_occurs {node v : Value} (hnode : Value.Occurs node v) :
    ∀ {wire : Octets}, Derives wire (.value v) →
      ∃ part, part <:+: wire ∧ Derives part (.value node) := by
  induction hnode with
  | here => exact fun {wire} h ↦ ⟨wire, List.infix_rfl, h⟩
  | item hmem _ ih =>
    intro wire h
    obtain ⟨content, hcontent, hitems⟩ := derives_items_of_array h
    obtain ⟨part, hpart, hitem⟩ := derives_of_mem_items hitems hmem
    obtain ⟨inner, hinner, hderives⟩ := ih hitem
    exact ⟨inner, (hinner.trans hpart).trans hcontent, hderives⟩
  | key hmem _ ih =>
    intro wire h
    obtain ⟨content, hcontent, hentries⟩ := derives_entries_of_map h
    obtain ⟨⟨part, hpart, hkey⟩, -⟩ := derives_of_mem_entries hentries hmem
    obtain ⟨inner, hinner, hderives⟩ := ih hkey
    exact ⟨inner, (hinner.trans hpart).trans hcontent, hderives⟩
  | value hmem _ ih =>
    intro wire h
    obtain ⟨content, hcontent, hentries⟩ := derives_entries_of_map h
    obtain ⟨-, part, hpart, hvalue⟩ := derives_of_mem_entries hentries hmem
    obtain ⟨inner, hinner, hderives⟩ := ih hvalue
    exact ⟨inner, (hinner.trans hpart).trans hcontent, hderives⟩
  | content _ ih =>
    intro wire h
    cases h with
    | @tagged head wire _ _ _ hcontent =>
      obtain ⟨inner, hinner, hderives⟩ := ih hcontent
      exact ⟨inner, hinner.trans (List.suffix_append head wire).isInfix, hderives⟩

/-! ### What can be read can be written -/

theorem Chunks.length_le {major : Major} {wire content : Octets} (h : Chunks major wire content) :
    content.length ≤ wire.length := by
  induction h with
  | nil => exact Nat.le_refl 0
  | cons hhead _ ih =>
    simp only [List.length_append]
    omega

theorem IsString.length_lt {major : Major} {wire content : Octets}
    (h : IsString major wire content) : content.length < wire.length := by
  cases h with
  | definite h =>
    have hhead := h.length_pos
    rw [List.length_append]
    omega
  | run h =>
    have hchunks := h.length_le
    simp only [List.length_cons, List.length_append]
    omega

/-- A node holds no more octets, items or entries than it was read from octets. -/
theorem Derives.travels {wire : Octets} {v : Value} (h : Derives wire (.value v))
    (hlength : wire.length < 0x10000000000000000) : v.Travels := by
  cases v with
  | octets content =>
    cases h with
    | octets h => exact Nat.lt_trans h.length_lt hlength
  | text text =>
    cases h with
    | text h => exact Nat.lt_trans h.length_lt hlength
  | array items =>
    obtain ⟨part, hpart, hitems⟩ := derives_items_of_array h
    exact Nat.lt_of_le_of_lt (Nat.le_trans hitems.count_le hpart.length_le) hlength
  | map entries =>
    obtain ⟨part, hpart, hentries⟩ := derives_entries_of_map h
    exact Nat.lt_of_le_of_lt (Nat.le_trans hentries.count_le hpart.length_le) hlength
  | gap | template | encoded => cases h
  | _ => trivial

/-- The argument of a head is a word, on either side of zero. -/
theorem Derives.hasRange {wire : Octets} {v : Value} (h : Derives wire (.value v)) :
    v.HasRange := by
  have hword {major : Major} {head : Octets} {n : Nat} (hhead : HasHead major head n) :
      n < 0x10000000000000000 := by
    cases hhead with
    | mk hargument => exact hargument.lt
  cases h with
  | @unsigned _ n hhead =>
    have hn := hword hhead
    exact ⟨by omega, by omega⟩
  | @negative _ n hhead =>
    have hn := hword hhead
    exact ⟨by omega, by omega⟩
  | _ => trivial

theorem Derives.isData {wire : Octets} {v : Value} (h : Derives wire (.value v))
    (hlength : wire.length < 0x10000000000000000) : v.IsData := by
  refine Value.every_iff.mpr fun node hnode ↦ ?_
  obtain ⟨part, hpart, hderives⟩ := derives_of_occurs hnode h
  exact hderives.travels (Nat.lt_of_le_of_lt hpart.length_le hlength)

theorem Derives.inRange {wire : Octets} {v : Value} (h : Derives wire (.value v)) : v.InRange := by
  refine Value.every_iff.mpr fun node hnode ↦ ?_
  obtain ⟨part, -, hderives⟩ := derives_of_occurs hnode h
  exact hderives.hasRange

/-! ### Whole inputs -/

/-- Without hooks a whole input is read as the value that it is derived for. -/
theorem decodeAll_plain_eq_ok_iff {input : Octets} {v : Value} :
    decodeAll input = .ok v ↔ Derives input (.value v) ∧ v.nesting 0 ≤ maxDepth := by
  rw [decodeAll_eq_ok_iff]
  constructor
  · rintro ⟨u, hderives, hnesting, hfold⟩
    cases (Hooks.fold_plain u).symm.trans hfold
    exact ⟨hderives, hnesting⟩
  · rintro ⟨hderives, hnesting⟩
    exact ⟨v, hderives, hnesting, Hooks.fold_plain v⟩

/-- Without hooks a value is read from the front of an input if it is derived for a front part. -/
theorem decode_plain_eq_ok_iff {input : Octets} {v : Value} :
    decode input = .ok v ↔
      ∃ wire rest, input = wire ++ rest ∧ Derives wire (.value v) ∧ v.nesting 0 ≤ maxDepth := by
  rw [decode_eq_ok_iff]
  constructor
  · rintro ⟨wire, u, ⟨rest, hinput⟩, hderives, hnesting, hfold⟩
    cases (Hooks.fold_plain u).symm.trans hfold
    exact ⟨wire, rest, hinput.symm, hderives, hnesting⟩
  · rintro ⟨wire, rest, hinput, hderives, hnesting⟩
    exact ⟨wire, v, ⟨rest, hinput.symm⟩, hderives, hnesting, Hooks.fold_plain v⟩

end Grammar

/-- What was read is written, whatever heads, runs and widths of floats it was read from, and what
is written is read as the same value again, to the bit, so that writing it once more gives the same
octets. The input is as long as a word of 64 bits can count at most. -/
theorem reencoded_canonical {input : Octets} {v : Value}
    (hlength : input.length < 0x10000000000000000) (h : decodeAll input = .ok v) :
    ∃ octets w, encode v = .ok octets ∧ decodeAll octets = .ok w ∧ w.same v = true ∧ w = v ∧
      encode w = .ok octets := by
  obtain ⟨hderives, hnesting⟩ := Grammar.decodeAll_plain_eq_ok_iff.mp h
  have hdata := hderives.isData hlength
  have hrange := hderives.inRange
  have hwritten := encode_of_inRange hdata hrange
  have hread : decodeAll v.wire = .ok v :=
    Grammar.decodeAll_plain_eq_ok_iff.mpr ⟨Grammar.derives_wire v hdata hrange, hnesting⟩
  exact ⟨v.wire, v, hwritten, hread, v.same_refl, rfl, hwritten⟩

/-- A run of a wide integer, a text in chunks and a float of half the width. -/
theorem reencoded_canonical_run : ∃ octets,
    decodeAll [0x9f, 0x19, 0x00, 0x05, 0x7f, 0x61, 0x61, 0x60, 0x61, 0x62, 0xff, 0xf9, 0x3c, 0x00,
      0xff] = .ok (.array [.integer 5, .text "ab", .float .one]) ∧
    encode (.array [.integer 5, .text "ab", .float .one]) = .ok octets ∧
    decodeAll octets = .ok (.array [.integer 5, .text "ab", .float .one]) := by
  have hone : Binary64.one = .ofBinary16 0x3c00 := by decide
  have hread : decodeAll [0x9f, 0x19, 0x00, 0x05, 0x7f, 0x61, 0x61, 0x60, 0x61, 0x62, 0xff, 0xf9,
      0x3c, 0x00, 0xff] = .ok (.array [.integer 5, .text "ab", .float .one]) := by
    rw [hone]
    rfl
  obtain ⟨octets, w, hwritten, hagain, -, rfl, -⟩ := reencoded_canonical (by decide) hread
  exact ⟨octets, hread, hwritten, hagain⟩

end Wireline
