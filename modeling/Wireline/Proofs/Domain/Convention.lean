import Wireline.Domain.Convention
import Wireline.Proofs.Wire.Acceptance
import Wireline.Proofs.Wire.Writing

/-!
# What arrives under the convention

`Convention.Replaced` lists the nodes that are replaced on arrival, and `Convention.settle` is what
it says. A value that arrives is settled from the inside out (`Convention.norm`), and nothing in the
outcome would be replaced again (`settled_norm`, `norm_of_settled`).

The two ends replace in opposite orders, the sender from the outside in and the receiver from the
inside out. Since the sender changes nothing but undefined values, and what stands for them settles
to undefined again, both settle to the same (`settle_adapt`). With the grammar between them this is
the round trip (`wire_round_trip`).
-/

set_option autoImplicit false
set_option relaxedAutoImplicit false

namespace Wireline

namespace Convention

/-! ### What is replaced -/

/-- A node that is replaced on arrival, and what replaces it: absence whatever it holds, and the
text of a UUID or of a span that parses. -/
inductive Replaced : Value → Value → Prop
  | absent (content : Value) : Replaced (.tagged Tag.absent content) .undefined
  | uuid {text : String} {uuid : Uuid} (h : Uuid.parse text = .ok uuid) :
      Replaced (.tagged Tag.uuidText (.text text)) (.tagged Tag.uuid (.octets uuid.octets))
  | span {text : String} {span : Span} (h : Span.parse text = .ok span) :
      Replaced (.tagged Tag.spanText (.text text)) (.tagged Tag.span (.array span.toCompact))

theorem Replaced.tag_mem {tag : UInt64} {content w : Value}
    (h : Replaced (.tagged tag content) w) : tag ∈ [Tag.absent, Tag.uuidText, Tag.spanText] := by
  cases h <;> simp

theorem settle_of_replaced {v w : Value} (h : Replaced v w) : settle v = w := by
  cases h with
  | absent content => rfl
  | uuid h =>
    simp only [settle, Value.text?, Option.bind_some, compact?, h]
    rfl
  | span h =>
    simp only [settle, Value.text?, Option.bind_some, compact?, h]
    rfl

/-- A text under a tag has a compact form only if it is replaced by it. -/
theorem replaced_of_compact? {tag : UInt64} {text : String} {w : Value}
    (h : compact? tag text = some w) : Replaced (.tagged tag (.text text)) w := by
  unfold compact? at h
  split at h
  · next htag =>
    cases hparse : Uuid.parse text with
    | error e => simp [hparse, Except.toOption] at h
    | ok uuid =>
      rw [hparse] at h
      cases h
      exact htag ▸ .uuid hparse
  split at h
  · next htag =>
    cases hparse : Span.parse text with
    | error e => simp [hparse, Except.toOption] at h
    | ok span =>
      rw [hparse] at h
      cases h
      exact htag ▸ .span hparse
  · cases h

theorem settle_of_not_replaced {v : Value} (h : ∀ w, ¬ Replaced v w) : settle v = v := by
  cases v with
  | tagged tag content =>
    have habsent : tag ≠ Tag.absent := by
      rintro rfl
      exact h _ (.absent content)
    rw [settle, if_neg habsent]
    cases content with
    | text text =>
      cases hcompact : compact? tag text with
      | none => simp [Value.text?, hcompact]
      | some w => exact absurd (replaced_of_compact? hcompact) (h w)
    | _ => rfl
  | _ => rfl

/-! ### Settled values -/

/-- Nothing in the value would be replaced on arrival. -/
def Settled (v : Value) : Prop :=
  v.Every fun node ↦ ∀ w, ¬ Replaced node w

/-- What a value becomes when it has arrived and everything in it is settled. -/
def norm (v : Value) : Value :=
  v.rebuild settle

theorem norm_of_settled {v : Value} (h : Settled v) : norm v = v :=
  Value.rebuild_eq_self (fun _ ↦ settle_of_not_replaced) v h

theorem settled_span (span : Span) : Settled span.toValue := by
  have hitems : Value.EveryItem (fun node ↦ ∀ w, ¬ Replaced node w) span.toCompact := by
    unfold Span.toCompact
    split
    · exact ⟨(by rintro w ⟨⟩), (by rintro w ⟨⟩), trivial⟩
    split
    · exact ⟨(by rintro w ⟨⟩), trivial⟩
    · trivial
  refine ⟨fun w h ↦ ?_, ⟨by rintro w ⟨⟩, hitems⟩⟩
  exact absurd h.tag_mem (by decide)

/-- Settling a tag over settled content settles the whole. -/
theorem settled_settle {tag : UInt64} {content : Value} (h : Settled content) :
    Settled (settle (.tagged tag content)) := by
  by_cases hreplaced : ∃ w, Replaced (.tagged tag content) w
  · obtain ⟨w, hw⟩ := hreplaced
    rw [settle_of_replaced hw]
    cases hw with
    | absent => rintro w ⟨⟩
    | uuid =>
      refine ⟨fun w h ↦ ?_, by rintro w ⟨⟩⟩
      exact absurd h.tag_mem (by decide)
    | @span _ span => exact settled_span span
  · have hkept : ∀ w, ¬ Replaced (.tagged tag content) w := not_exists.mp hreplaced
    rw [settle_of_not_replaced hkept]
    exact ⟨hkept, h⟩

mutual

theorem settled_norm : ∀ v : Value, Settled (norm v)
  | .array items => ⟨by rintro w ⟨⟩, settled_normItems items⟩
  | .map entries => ⟨by rintro w ⟨⟩, settled_normEntries entries⟩
  | .tagged _ content => settled_settle (settled_norm content)
  | .undefined | .null | .bool _ | .integer _ | .float _ | .octets _ | .text _ | .gap _
  | .template _ | .encoded _ => by rintro w ⟨⟩

theorem settled_normItems : ∀ items : List Value,
    Value.EveryItem (fun node ↦ ∀ w, ¬ Replaced node w) (Value.rebuildItems settle items)
  | [] => trivial
  | item :: items => ⟨settled_norm item, settled_normItems items⟩

theorem settled_normEntries : ∀ entries : List (Value × Value),
    Value.EveryEntry (fun node ↦ ∀ w, ¬ Replaced node w) (Value.rebuildEntries settle entries)
  | [] => trivial
  | (key, value) :: entries =>
    ⟨settled_norm key, settled_norm value, settled_normEntries entries⟩

end

/-! ### What is sent -/

theorem travels_kept : Value.KeptBy Value.Travels (some substitution) where
  leaf v h := by
    cases v
    case undefined => exact ⟨trivial, trivial⟩
    all_goals exact h
  array items others hlength h := by
    rw [Value.Travels, hlength] at h
    exact h
  map entries others hlength h := by
    rw [Value.Travels, hlength] at h
    exact h
  tagged _ _ _ _ := trivial
  template _ h := h.elim

theorem hasRange_kept : Value.KeptBy Value.HasRange (some substitution) where
  leaf v h := by
    cases v
    case undefined => exact ⟨trivial, trivial⟩
    all_goals exact h
  array _ _ _ _ := trivial
  map _ _ _ _ := trivial
  tagged _ _ _ _ := trivial
  template _ _ := trivial

mutual

/-- What is sent for a value settles to the same as the value. -/
theorem settle_adapt : ∀ v : Value, v.IsData →
    (v.adapt (some substitution)).rebuild settle = v.rebuild settle
  | .array items, h => by
    rw [Value.adapt, Value.rebuild, Value.rebuild, settle_adaptItems items h.2]
  | .map entries, h => by
    rw [Value.adapt, Value.rebuild, Value.rebuild, settle_adaptEntries entries h.2]
  | .tagged tag content, h => by
    rw [Value.adapt, Value.rebuild, Value.rebuild, settle_adapt content h.2]
  | .undefined, _ | .null, _ | .bool _, _ | .integer _, _ | .float _, _ | .octets _, _
  | .text _, _ => rfl
  | .gap _, h | .template _, h | .encoded _, h => h.elim

theorem settle_adaptItems : ∀ items : List Value, Value.EveryItem Value.Travels items →
    Value.rebuildItems settle (Value.adaptItems (some substitution) items) =
      Value.rebuildItems settle items
  | [], _ => rfl
  | item :: items, h => by
    rw [Value.adaptItems, Value.rebuildItems, Value.rebuildItems, settle_adapt item h.1,
      settle_adaptItems items h.2]

theorem settle_adaptEntries : ∀ entries : List (Value × Value),
    Value.EveryEntry Value.Travels entries →
      Value.rebuildEntries settle (Value.adaptEntries (some substitution) entries) =
        Value.rebuildEntries settle entries
  | [], _ => rfl
  | (key, value) :: entries, h => by
    rw [Value.adaptEntries, Value.rebuildEntries, Value.rebuildEntries, settle_adapt key h.1,
      settle_adapt value h.2.1, settle_adaptEntries entries h.2.2]

end

/-- A value of the data model in range that nests at most 256 deep, an undefined value counted as
one level, is written, and what is read back is the value settled: floats to the bit, maps in their
order with every entry. Settling does what `Replaced` says at every node, is done once and for all,
and changes nothing where nothing is to be replaced. -/
theorem wire_round_trip (v : Value) (hdata : v.IsData) (hrange : v.InRange)
    (hnesting : v.nesting 1 ≤ 256) :
    (∃ octets, encodeValue v = .ok octets ∧ decodeValue octets = .ok (norm v)) ∧
    (∀ node w, Replaced node w → settle node = w) ∧
    (∀ node, (∀ w, ¬ Replaced node w) → settle node = node) ∧
    norm (norm v) = norm v ∧
    (Settled v → norm v = v) := by
  -- what is sent is a value of the data model too, as deep as the bound allows
  have hsentData : (v.adapt (some substitution)).IsData := Value.Every.adapt travels_kept v hdata
  have hsentRange : (v.adapt (some substitution)).InRange :=
    Value.Every.adapt hasRange_kept v hrange
  have hsentNesting : (v.adapt (some substitution)).nesting 0 ≤ maxDepth := by
    rw [substitution, Value.nesting_adapt]
    exact hnesting
  have hfold : hooks.fold (v.adapt (some substitution)) = .ok (norm v) := by
    rw [norm, ← settle_adapt v hdata]
    exact Hooks.fold_eq_rebuild (fun _ ↦ rfl) _
  refine ⟨⟨(v.adapt (some substitution)).wire, encode_eq_wire hsentData hsentRange, ?_⟩,
    fun _ _ ↦ settle_of_replaced, fun _ ↦ settle_of_not_replaced,
    norm_of_settled (settled_norm v), norm_of_settled⟩
  exact Grammar.decodeAll_eq_ok_iff.mpr
    ⟨_, Grammar.derives_wire _ hsentData hsentRange, hsentNesting, hfold⟩

/-- An undefined key survives, the least integer too, the text of a UUID is read as its octets, and
absence loses what it holds. -/
theorem wire_round_trip_map : ∃ octets,
    encodeValue (.map [
      (.undefined, .tagged Tag.uuidText (.text "0189d7e5-6b4b-7e2a-9b55-0a0b0c0d0e0f")),
      (.integer (-18446744073709551616), .tagged Tag.absent (.bool true))]) = .ok octets ∧
    decodeValue octets = .ok (.map [
      (.undefined, .tagged Tag.uuid (.octets [0x01, 0x89, 0xd7, 0xe5, 0x6b, 0x4b, 0x7e, 0x2a, 0x9b,
        0x55, 0x0a, 0x0b, 0x0c, 0x0d, 0x0e, 0x0f])),
      (.integer (-18446744073709551616), .undefined)]) := by
  refine (wire_round_trip _ ?_ ?_ ?_).1
  · have hcount : 2 < 0x10000000000000000 := by decide
    have htext : (Text.octets "0189d7e5-6b4b-7e2a-9b55-0a0b0c0d0e0f").length <
        0x10000000000000000 := by decide
    exact ⟨hcount, trivial, ⟨trivial, htext⟩, trivial, ⟨trivial, trivial⟩, trivial⟩
  · have hleast : Value.HasRange (.integer (-18446744073709551616)) :=
      ⟨Int.le_refl _, by decide⟩
    exact ⟨trivial, trivial, ⟨trivial, trivial⟩, hleast, ⟨trivial, trivial⟩, trivial⟩
  · decide

end Convention

end Wireline
