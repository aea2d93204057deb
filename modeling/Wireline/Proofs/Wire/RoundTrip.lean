import Wireline.Proofs.Wire.Acceptance
import Wireline.Proofs.Wire.Nesting
import Wireline.Proofs.Wire.Writing

/-!
# What is written is read again

Writing a value of the data model fails for one reason alone: an integer somewhere in it, be it in
a key of a map, has no head (`Encode.refused_pieces`). Otherwise the value is written, and what is
read from its octets is the value itself, up to the limit on nesting and not beyond
(`encode_decode_round_trip`).
-/

set_option autoImplicit false
set_option relaxedAutoImplicit false

namespace Wireline

namespace Encode

/-- Writing fails because an integer is beyond what a head can hold. -/
def Refused {α : Type} (outcome : Except WireError α) : Prop :=
  outcome = .error (.number .tooBig) ∨ outcome = .error (.number .tooSmall)

namespace Refused

theorem bind {α β : Type} {outcome : Except WireError α} (h : Refused outcome)
    (next : α → Except WireError β) : Refused (outcome >>= next) := by
  rcases h with rfl | rfl
  · exact .inl rfl
  · exact .inr rfl

theorem not_ok {α : Type} {outcome : Except WireError α} (h : Refused outcome) (result : α) :
    outcome ≠ .ok result := by
  rintro rfl
  rcases h with h | h <;> cases h

end Refused

section Refused

variable {mode : Mode} {fills : Fills}
  {fill : Fills → Option Substitution → Value → Except WireError Draft}

theorem refused_octets {octets : Octets} {pieces : List Piece}
    (h : Refused (expandAll mode fills fill pieces)) :
    Refused (expandAll mode fills fill (.octets octets :: pieces)) :=
  h.bind _

theorem refused_left {first second : List Piece} (h : Refused (expandAll mode fills fill first)) :
    Refused (expandAll mode fills fill (first ++ second)) := by
  rw [expandAll_append]
  exact h.bind _

theorem refused_right {first second : List Piece} {draft : Draft}
    (hfirst : expandAll mode fills fill first = .ok draft)
    (h : Refused (expandAll mode fills fill second)) :
    Refused (expandAll mode fills fill (first ++ second)) := by
  rw [expandAll_append, hfirst]
  exact h.bind _

theorem refused_integer {n : Int} (h : ¬ (Value.integer n).InRange) :
    Refused (expandAll mode fills fill [integer n]) := by
  cases n with
  | ofNat n =>
    have hn : ¬ n < argumentLimit := by
      intro hlt
      have hlt : n < 0x10000000000000000 := hlt
      refine h ⟨?_, ?_⟩ <;> simp only [Int.ofNat_eq_natCast] <;> omega
    rw [integer, if_neg hn]
    exact .inl rfl
  | negSucc n =>
    have hn : ¬ n < argumentLimit := by
      intro hlt
      have hlt : n < 0x10000000000000000 := hlt
      exact h ⟨by omega, by omega⟩
    rw [integer, if_neg hn]
    exact .inr rfl

mutual

/-- A value of the data model with an integer out of range is not written. -/
theorem refused_pieces (substitution : Option Substitution) : ∀ v : Value, v.IsData →
    ¬ v.InRange → Refused (expandAll mode fills fill (pieces substitution v))
  | .integer _, _, hrange => refused_integer hrange
  | .array items, hdata, hrange =>
    refused_octets (refused_piecesOfItems substitution items hdata.2 fun h ↦ hrange ⟨trivial, h⟩)
  | .map entries, hdata, hrange =>
    refused_octets
      (refused_piecesOfEntries substitution entries hdata.2 fun h ↦ hrange ⟨trivial, h⟩)
  | .tagged _ content, hdata, hrange =>
    refused_octets (refused_pieces substitution content hdata.2 fun h ↦ hrange ⟨trivial, h⟩)
  | .undefined, _, hrange | .null, _, hrange | .bool _, _, hrange | .float _, _, hrange
  | .octets _, _, hrange | .text _, _, hrange | .gap _, _, hrange | .template _, _, hrange
  | .encoded _, _, hrange => absurd trivial hrange

/-- The first item that is out of range stops the writing, after all before it are written. -/
theorem refused_piecesOfItems (substitution : Option Substitution) : ∀ items : List Value,
    Value.EveryItem Value.Travels items → ¬ Value.EveryItem Value.HasRange items →
      Refused (expandAll mode fills fill (piecesOfItems substitution items))
  | [], _, hrange => absurd trivial hrange
  | item :: items, hdata, hrange => by
    by_cases hitem : item.InRange
    · exact refused_right (expandAll_pieces substitution item hdata.1 hitem)
        (refused_piecesOfItems substitution items hdata.2 fun h ↦ hrange ⟨hitem, h⟩)
    · exact refused_left (refused_pieces substitution item hdata.1 hitem)

theorem refused_piecesOfEntries (substitution : Option Substitution) :
    ∀ entries : List (Value × Value),
      Value.EveryEntry Value.Travels entries → ¬ Value.EveryEntry Value.HasRange entries →
        Refused (expandAll mode fills fill (piecesOfEntries substitution entries))
  | [], _, hrange => absurd trivial hrange
  | (key, value) :: entries, hdata, hrange => by
    by_cases hkey : key.InRange
    · have hwritten : expandAll mode fills fill (pieces substitution key) = _ :=
        expandAll_pieces substitution key hdata.1 hkey
      by_cases hvalue : value.InRange
      · exact refused_right
          (expandAll_append_octets hwritten
            (expandAll_pieces substitution value hdata.2.1 hvalue))
          (refused_piecesOfEntries substitution entries hdata.2.2
            fun h ↦ hrange ⟨hkey, hvalue, h⟩)
      · exact refused_left
          (refused_right hwritten (refused_pieces substitution value hdata.2.1 hvalue))
    · exact refused_left (refused_left (refused_pieces substitution key hdata.1 hkey))

end

end Refused

end Encode

/-- All integers of a value are in range unless one that is not occurs in it. -/
theorem Value.not_inRange_iff {v : Value} :
    ¬ v.InRange ↔
      ∃ n : Int, Occurs (.integer n) v ∧ (n < -0x10000000000000000 ∨ 0x10000000000000000 ≤ n) := by
  rw [InRange, every_iff]
  constructor
  · intro h
    simp only [Classical.not_forall] at h
    obtain ⟨node, hnode, hrange⟩ := h
    cases node with
    | integer n =>
      simp only [HasRange] at hrange
      exact ⟨n, hnode, by omega⟩
    | _ => exact absurd trivial hrange
  · rintro ⟨n, hnode, hbeyond⟩ h
    have hrange : _ ∧ _ := h _ hnode
    omega

/-- Nothing of the data model is a template. -/
theorem Value.IsData.noTemplate {v : Value} (h : v.IsData) : v.Every NoTemplate := by
  refine every_iff.mpr fun node hnode ↦ ?_
  have htravels : node.Travels := h.of_occurs hnode
  cases node with
  | template t => exact htravels.elim
  | _ => trivial

theorem encode_of_inRange {v : Value} (hdata : v.IsData) (hrange : v.InRange) :
    encode v = .ok v.wire := by
  have hsame := Value.adapt_none v hdata.noTemplate
  have hwritten := @encode_eq_wire v none (hsame.symm ▸ hdata) (hsame.symm ▸ hrange)
  rwa [hsame] at hwritten

theorem encode_refused {v : Value} (hdata : v.IsData) (hrange : ¬ v.InRange) :
    Encode.Refused (encode v) := by
  have hsame := Value.adapt_none v hdata.noTemplate
  have hpieces : Encode.Refused (Encode.write .complete none [] v) :=
    Encode.refused_pieces none _ (hsame.symm ▸ hdata) (hsame.symm ▸ hrange)
  exact hpieces.bind _

/-- A value of the data model is written exactly if its integers are in range. -/
theorem encode_eq_ok_iff {v : Value} (hdata : v.IsData) {octets : Octets} :
    encode v = .ok octets ↔ v.InRange ∧ v.wire = octets := by
  by_cases hrange : v.InRange
  · rw [encode_of_inRange hdata hrange, Except.ok.injEq]
    exact (and_iff_right hrange).symm
  · exact iff_of_false ((encode_refused hdata hrange).not_ok octets) fun h ↦ hrange h.1

/-- A value of the data model is written unless an integer in it is out of range, and then that is
the error. What is read from the octets is the value, whatever follows them, if the value nests at
most 256 deep. If it nests deeper, reading fails for that. -/
theorem encode_decode_round_trip (v : Value) (hdata : v.IsData) :
    ((∃ error, encode v = .error error) ↔ ∃ n : Int, Value.Occurs (.integer n) v ∧
      (n < -0x10000000000000000 ∨ 0x10000000000000000 ≤ n)) ∧
    (∀ error, encode v = .error error → error = .number .tooBig ∨ error = .number .tooSmall) ∧
    (∀ octets, encode v = .ok octets →
      (v.nesting 0 ≤ 256 → decodeAll octets = .ok v ∧ ∀ rest, decode (octets ++ rest) = .ok v) ∧
      (256 < v.nesting 0 → decodeAll octets = .error (.tooDeep 256))) := by
  rw [← Value.not_inRange_iff]
  by_cases hrange : v.InRange
  · have hwritten := encode_of_inRange hdata hrange
    have hderives := Grammar.derives_wire v hdata hrange
    refine ⟨⟨?_, fun h ↦ absurd hrange h⟩, ?_, ?_⟩
    · rintro ⟨error, herror⟩
      rw [hwritten] at herror
      cases herror
    · intro error herror
      rw [hwritten] at herror
      cases herror
    · intro octets hoctets
      rw [hwritten] at hoctets
      cases hoctets
      refine ⟨fun hnesting ↦ ⟨?_, fun rest ↦ ?_⟩, fun hnesting ↦ ?_⟩
      · exact Grammar.decodeAll_eq_ok_iff.mpr ⟨v, hderives, hnesting, Hooks.fold_plain v⟩
      · exact Grammar.decode_eq_ok_iff.mpr
          ⟨v.wire, v, List.prefix_append _ rest, hderives, hnesting, Hooks.fold_plain v⟩
      · exact Grammar.decodeAll_of_tooDeep hderives hnesting
  · have hrefused := encode_refused hdata hrange
    refine ⟨⟨fun _ ↦ hrange, fun _ ↦ ?_⟩, ?_, ?_⟩
    · rcases hrefused with h | h <;> exact ⟨_, h⟩
    · intro error herror
      rw [herror] at hrefused
      simpa [Encode.Refused] using hrefused
    · exact fun octets hoctets ↦ absurd hoctets (hrefused.not_ok octets)

/-- Both ends of the range of integers, in a key and under a tag. -/
theorem encode_decode_round_trip_bounds : ∃ octets,
    encode (.map [(.integer 18446744073709551615,
      .tagged 1 (.array [.integer (-18446744073709551616), .undefined]))]) = .ok octets ∧
    decodeAll octets = .ok (.map [(.integer 18446744073709551615,
      .tagged 1 (.array [.integer (-18446744073709551616), .undefined]))]) := by
  have hone : 1 < 0x10000000000000000 := by decide
  have htwo : 2 < 0x10000000000000000 := by decide
  obtain ⟨hfails, -, hreads⟩ := encode_decode_round_trip
    (.map [(.integer 18446744073709551615,
      .tagged 1 (.array [.integer (-18446744073709551616), .undefined]))])
    ⟨hone, trivial, ⟨trivial, htwo, trivial, trivial, trivial⟩, trivial⟩
  have hrange : Value.InRange (.map [(.integer 18446744073709551615,
      .tagged 1 (.array [.integer (-18446744073709551616), .undefined]))]) := by
    have hgreatest : Value.HasRange (.integer 18446744073709551615) := ⟨by decide, by decide⟩
    have hleast : Value.HasRange (.integer (-18446744073709551616)) := ⟨Int.le_refl _, by decide⟩
    exact ⟨trivial, hgreatest, ⟨trivial, trivial, hleast, trivial, trivial⟩, trivial⟩
  cases hwritten : encode (.map [(.integer 18446744073709551615,
      .tagged 1 (.array [.integer (-18446744073709551616), .undefined]))]) with
  | error error => exact absurd hrange (Value.not_inRange_iff.mpr (hfails.mp ⟨error, hwritten⟩))
  | ok octets => exact ⟨octets, rfl, ((hreads octets hwritten).1 (by decide)).1⟩

end Wireline
