import Wireline.Proofs.Wire.Soundness

/-!
# What is accepted

Reading succeeds exactly on what the grammar derives, up to the limit on nesting, and gives what the
hooks make of the derived value (`value_eq_ok_iff`). The grammar itself has no limit, and no two of
its sentences begin the same input (`derives_unique`). `decode_accepts_grammar` puts this together
for reading without hooks.
-/

set_option autoImplicit false
set_option relaxedAutoImplicit false

namespace Wireline

namespace Grammar

open Decode

theorem value_eq_ok_iff {hooks : Hooks} {input rest : Octets} {w : Value} :
    Decode.value hooks input = .ok (w, rest) ↔
      ∃ wire v, input = wire ++ rest ∧ Derives wire (.value v) ∧ v.nesting 0 ≤ maxDepth ∧
        hooks.fold v = .ok w := by
  constructor
  · exact (item_sound hooks maxDepth).valueOnly
  · rintro ⟨wire, v, rfl, hderives, hdepth, hfold⟩
    exact valueOnly_of_value (accepts_of_derives hooks hderives maxDepth w rest hdepth hfold)

/-- Of one input at most one front part is in the grammar, and it stands for one value. -/
theorem derives_unique {wire wire' rest rest' : Octets} {v v' : Value}
    (h : Derives wire (.value v)) (h' : Derives wire' (.value v'))
    (hinput : wire ++ rest = wire' ++ rest') : wire = wire' ∧ v = v' := by
  let depth := max (v.nesting 0) (v'.nesting 0)
  have hread := accepts_of_derives .plain h depth v rest (Nat.le_max_left _ _) (Hooks.fold_plain v)
  have hread' :=
    accepts_of_derives .plain h' depth v' rest' (Nat.le_max_right _ _) (Hooks.fold_plain v')
  rw [hinput, hread'] at hread
  cases hread
  exact ⟨List.append_cancel_right hinput, rfl⟩

theorem decodeAll_eq_ok_iff {hooks : Hooks} {input : Octets} {w : Value} :
    decodeAll input hooks = .ok w ↔
      ∃ v, Derives input (.value v) ∧ v.nesting 0 ≤ maxDepth ∧ hooks.fold v = .ok w := by
  constructor
  · intro h
    obtain ⟨⟨u, rest⟩, hread, h⟩ := exists_of_bind_eq_ok h
    simp only at h
    split at h
    · next hempty =>
      cases h
      obtain ⟨wire, v, rfl, hderives, hdepth, hfold⟩ := value_eq_ok_iff.mp hread
      rw [List.isEmpty_iff.mp hempty, List.append_nil]
      exact ⟨v, hderives, hdepth, hfold⟩
    · cases h
  · rintro ⟨v, hderives, hdepth, hfold⟩
    have hread : Decode.value hooks input = .ok (w, []) :=
      value_eq_ok_iff.mpr ⟨input, v, (List.append_nil _).symm, hderives, hdepth, hfold⟩
    simp only [decodeAll, hread, bind, Except.bind, List.isEmpty_nil, if_true]

theorem decode_eq_ok_iff {hooks : Hooks} {input : Octets} {w : Value} :
    decode input hooks = .ok w ↔
      ∃ wire v, wire <+: input ∧ Derives wire (.value v) ∧ v.nesting 0 ≤ maxDepth ∧
        hooks.fold v = .ok w := by
  constructor
  · intro h
    cases hread : Decode.value hooks input with
    | error e => simp [decode, hread, Except.map] at h
    | ok result =>
      obtain ⟨u, rest⟩ := result
      simp only [decode, hread, Except.map, Except.ok.injEq] at h
      subst h
      obtain ⟨wire, v, rfl, hderives⟩ := value_eq_ok_iff.mp hread
      exact ⟨wire, v, List.prefix_append wire rest, hderives⟩
  · rintro ⟨wire, v, ⟨rest, rfl⟩, hderives⟩
    have hread : Decode.value hooks (wire ++ rest) = .ok (w, rest) :=
      value_eq_ok_iff.mpr ⟨wire, v, rfl, hderives⟩
    simp only [decode, hread, Except.map]

/-- The whole input is accepted exactly if the grammar derives it and the value nests at most 256
deep, reading from the front accepts exactly the inputs that begin with octets of that kind, and
there is no choice between different beginnings. -/
theorem decode_accepts_grammar (input : Octets) (v : Value) :
    (decodeAll input = .ok v ↔ Derives input (.value v) ∧ v.nesting 0 ≤ 256) ∧
    (decode input = .ok v ↔
      ∃ wire, wire <+: input ∧ Derives wire (.value v) ∧ v.nesting 0 ≤ 256) ∧
    (∀ wire wire' u u', wire <+: input → wire' <+: input → Derives wire (.value u) →
      Derives wire' (.value u') → wire = wire' ∧ u = u') := by
  refine ⟨?_, ?_, ?_⟩
  · rw [decodeAll_eq_ok_iff]
    constructor
    · rintro ⟨u, hderives, hdepth, hfold⟩
      rw [Hooks.fold_plain] at hfold
      cases hfold
      exact ⟨hderives, hdepth⟩
    · rintro ⟨hderives, hdepth⟩
      exact ⟨v, hderives, hdepth, Hooks.fold_plain v⟩
  · rw [decode_eq_ok_iff]
    constructor
    · rintro ⟨wire, u, hprefix, hderives, hdepth, hfold⟩
      rw [Hooks.fold_plain] at hfold
      cases hfold
      exact ⟨wire, hprefix, hderives, hdepth⟩
    · rintro ⟨wire, hprefix, hderives, hdepth⟩
      exact ⟨wire, v, hprefix, hderives, hdepth, Hooks.fold_plain v⟩
  · rintro wire wire' u u' ⟨rest, hrest⟩ ⟨rest', hrest'⟩ hderives hderives'
    exact derives_unique hderives hderives' (hrest.trans hrest'.symm)

end Grammar

end Wireline
