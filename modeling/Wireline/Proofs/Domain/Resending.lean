import Wireline.Proofs.Domain.Convention
import Wireline.Proofs.Wire.Hooks
import Wireline.Proofs.Wire.Reencoding

/-!
# What arrived can be sent back

A value that arrived is what the values on the wire are settled to (`decodeValue_eq_map_norm`).
Settling leaves a value of the data model whose integers are in range (`every_norm`), so it can be
sent again, and it is settled, so nothing more would be replaced in it when it comes back.

Only the limit on nesting can stop it. An undefined value is sent under a tag, and a span that came
as text goes in a list under a tag, so what is sent back may nest one level deeper than what came
(`nesting_norm`). What nested as deep as it may is then refused, and `received_resent` says exactly
when. `undefined_at_limit_not_resent` is the case of an undefined value.
-/

set_option autoImplicit false
set_option relaxedAutoImplicit false

namespace Wireline

namespace Convention

/-- Reading by the convention is reading, and settling what was read. -/
theorem decodeValue_eq_map_norm (input : Octets) :
    decodeValue input = (decodeAll input).map norm :=
  decodeAll_eq_map_rebuild (fun _ ↦ rfl) input

theorem decodeValue_eq_ok_iff {input : Octets} {v : Value} :
    decodeValue input = .ok v ↔ ∃ u, decodeAll input = .ok u ∧ norm u = v := by
  rw [decodeValue_eq_map_norm]
  cases decodeAll input <;> simp [Except.map]

/-! ### What settling keeps -/

section Norm

variable {p : Value → Prop} {other : Option Substitution}

mutual

/-- A property of kinds and lengths that holds of what replaces a node is kept. -/
theorem every_norm (hkept : Value.KeptBy p other)
    (hreplaced : ∀ v w, Replaced v w → w.Every p) : ∀ v : Value, v.Every p → (norm v).Every p
  | .array items, h =>
    ⟨hkept.array items _ (Value.length_rebuildItems items).symm h.1,
      everyItem_norm hkept hreplaced items h.2⟩
  | .map entries, h =>
    ⟨hkept.map entries _ (Value.length_rebuildEntries entries).symm h.1,
      everyEntry_norm hkept hreplaced entries h.2⟩
  | .tagged tag content, h => by
    have hcontent := every_norm hkept hreplaced content h.2
    show (settle (.tagged tag (norm content))).Every p
    by_cases hsome : ∃ w, Replaced (.tagged tag (norm content)) w
    · obtain ⟨w, hw⟩ := hsome
      rw [settle_of_replaced hw]
      exact hreplaced _ w hw
    · rw [settle_of_not_replaced (not_exists.mp hsome)]
      exact ⟨hkept.tagged tag content _ h.1, hcontent⟩
  | .undefined, h | .null, h | .bool _, h | .integer _, h | .float _, h | .octets _, h | .text _, h
  | .gap _, h | .template _, h | .encoded _, h => h

theorem everyItem_norm (hkept : Value.KeptBy p other)
    (hreplaced : ∀ v w, Replaced v w → w.Every p) : ∀ items : List Value,
      Value.EveryItem p items → Value.EveryItem p (Value.rebuildItems settle items)
  | [], _ => trivial
  | item :: items, h =>
    ⟨every_norm hkept hreplaced item h.1, everyItem_norm hkept hreplaced items h.2⟩

theorem everyEntry_norm (hkept : Value.KeptBy p other)
    (hreplaced : ∀ v w, Replaced v w → w.Every p) : ∀ entries : List (Value × Value),
      Value.EveryEntry p entries → Value.EveryEntry p (Value.rebuildEntries settle entries)
  | [], _ => trivial
  | (key, value) :: entries, h =>
    ⟨every_norm hkept hreplaced key h.1, every_norm hkept hreplaced value h.2.1,
      everyEntry_norm hkept hreplaced entries h.2.2⟩

end

end Norm

/-! ### What replaces a node -/

theorem mem_toCompact {span : Span} {item : Value} (h : item ∈ span.toCompact) :
    ∃ n : Nat, n < 0x10000000000000000 ∧ item = .integer n := by
  have hseconds : span.seconds < 0x10000000000000000 :=
    (Nat.div_lt_iff_lt_mul nanosPerSecond_pos).mpr span.fits
  have hsubsecond : span.subsecond < nanosPerSecond := Nat.mod_lt _ nanosPerSecond_pos
  have hword : nanosPerSecond < 0x10000000000000000 := by decide
  unfold Span.toCompact at h
  split at h
  · rcases List.mem_cons.mp h with rfl | h
    · exact ⟨span.seconds, hseconds, rfl⟩
    · rw [List.mem_singleton.mp h]
      exact ⟨span.subsecond, Nat.lt_trans hsubsecond hword, rfl⟩
  split at h
  · rw [List.mem_singleton.mp h]
    exact ⟨span.seconds, hseconds, rfl⟩
  · cases h

theorem length_toCompact_le (span : Span) : span.toCompact.length ≤ 2 := by
  unfold Span.toCompact
  split
  · exact Nat.le_refl 2
  split
  · exact Nat.le_succ 1
  · exact Nat.zero_le 2

theorem nestingOfItems_toCompact (bare : Nat) (span : Span) :
    Value.nestingOfItems bare span.toCompact = 0 := by
  unfold Span.toCompact
  split
  · rfl
  split
  · rfl
  · rfl

theorem isData_of_replaced (v w : Value) (h : Replaced v w) : w.IsData := by
  cases h with
  | absent => trivial
  | @uuid _ uuid =>
    have hlength : uuid.octets.length < 0x10000000000000000 := by
      rw [uuid.length_octets]
      decide
    exact ⟨trivial, hlength⟩
  | @span _ span =>
    have hlength : span.toCompact.length < 0x10000000000000000 :=
      Nat.lt_of_le_of_lt (length_toCompact_le span) (by decide)
    refine ⟨trivial, hlength, Value.everyItem_iff.mpr fun item hitem ↦ ?_⟩
    obtain ⟨n, -, rfl⟩ := mem_toCompact hitem
    trivial

theorem inRange_of_replaced (v w : Value) (h : Replaced v w) : w.InRange := by
  cases h with
  | absent => trivial
  | uuid => exact ⟨trivial, trivial⟩
  | @span _ span =>
    refine ⟨trivial, trivial, Value.everyItem_iff.mpr fun item hitem ↦ ?_⟩
    obtain ⟨n, hn, rfl⟩ := mem_toCompact hitem
    exact ⟨by omega, by omega⟩

theorem nesting_of_replaced {v w : Value} (h : Replaced v w) : w.nesting 1 ≤ 2 := by
  cases h with
  | absent => exact Nat.le_succ 1
  | uuid => exact Nat.le_succ 1
  | @span _ span =>
    exact Nat.le_of_eq (by rw [Value.nesting, Value.nesting, nestingOfItems_toCompact])

mutual

/-- Settling adds one level at most, with undefined values counted as one level. -/
theorem nesting_norm : ∀ v : Value, (norm v).nesting 1 ≤ v.nesting 0 + 1
  | .array items => Nat.succ_le_succ (nestingOfItems_norm items)
  | .map entries => Nat.succ_le_succ (nestingOfEntries_norm entries)
  | .tagged tag content => by
    have hcontent := nesting_norm content
    show (settle (.tagged tag (norm content))).nesting 1 ≤ _
    by_cases hsome : ∃ w, Replaced (.tagged tag (norm content)) w
    · obtain ⟨w, hw⟩ := hsome
      have hreplaced := nesting_of_replaced hw
      rw [settle_of_replaced hw, Value.nesting]
      omega
    · rw [settle_of_not_replaced (not_exists.mp hsome), Value.nesting, Value.nesting]
      omega
  | .undefined => Nat.le_refl 1
  | .null | .bool _ | .integer _ | .float _ | .octets _ | .text _ | .gap _ | .template _
  | .encoded _ => Nat.zero_le _

theorem nestingOfItems_norm : ∀ items : List Value,
    Value.nestingOfItems 1 (Value.rebuildItems settle items) ≤ Value.nestingOfItems 0 items + 1
  | [] => Nat.zero_le _
  | item :: items => by
    have hitem := nesting_norm item
    have hitems := nestingOfItems_norm items
    rw [norm] at hitem
    rw [Value.rebuildItems, Value.nestingOfItems, Value.nestingOfItems]
    omega

theorem nestingOfEntries_norm : ∀ entries : List (Value × Value),
    Value.nestingOfEntries 1 (Value.rebuildEntries settle entries) ≤
      Value.nestingOfEntries 0 entries + 1
  | [] => Nat.zero_le _
  | (key, value) :: entries => by
    have hkey := nesting_norm key
    have hvalue := nesting_norm value
    have hentries := nestingOfEntries_norm entries
    rw [norm] at hkey hvalue
    rw [Value.rebuildEntries, Value.nestingOfEntries, Value.nestingOfEntries]
    omega

end

/-! ### What is sent -/

section Sent

variable {v : Value}

theorem derives_sent (hdata : v.IsData) (hrange : v.InRange) :
    Grammar.Derives (v.adapt (some substitution)).wire (.value (v.adapt (some substitution))) :=
  Grammar.derives_wire _ (Value.Every.adapt travels_kept v hdata)
    (Value.Every.adapt hasRange_kept v hrange)

theorem encodeValue_of_inRange (hdata : v.IsData) (hrange : v.InRange) :
    encodeValue v = .ok (v.adapt (some substitution)).wire :=
  encode_eq_wire (Value.Every.adapt travels_kept v hdata) (Value.Every.adapt hasRange_kept v hrange)

theorem nesting_sent (v : Value) : (v.adapt (some substitution)).nesting 0 = v.nesting 1 :=
  Value.nesting_adapt v

/-- What is sent for a settled value arrives as that value, if it does not nest too deep. -/
theorem decodeValue_sent (hdata : v.IsData) (hrange : v.InRange) (hsettled : Settled v)
    (hnesting : v.nesting 1 ≤ maxDepth) :
    decodeValue (v.adapt (some substitution)).wire = .ok v := by
  have hread : decodeAll (v.adapt (some substitution)).wire =
      .ok (v.adapt (some substitution)) :=
    Grammar.decodeAll_plain_eq_ok_iff.mpr ⟨derives_sent hdata hrange, nesting_sent v ▸ hnesting⟩
  refine decodeValue_eq_ok_iff.mpr ⟨_, hread, ?_⟩
  calc norm (v.adapt (some substitution)) = norm v := settle_adapt v hdata
    _ = v := norm_of_settled hsettled

theorem decodeValue_sent_of_tooDeep (hdata : v.IsData) (hrange : v.InRange)
    (hnesting : maxDepth < v.nesting 1) :
    decodeValue (v.adapt (some substitution)).wire = .error (.tooDeep maxDepth) := by
  rw [decodeValue_eq_map_norm,
    Grammar.decodeAll_of_tooDeep (derives_sent hdata hrange) (nesting_sent v ▸ hnesting)]
  rfl

end Sent

/-- What arrived is a settled value of the data model in range. -/
theorem arrived {received : Octets} {v : Value} (hlength : received.length < 0x10000000000000000)
    (h : decodeValue received = .ok v) :
    v.IsData ∧ v.InRange ∧ Settled v ∧ v.nesting 1 ≤ maxDepth + 1 := by
  obtain ⟨u, hread, rfl⟩ := decodeValue_eq_ok_iff.mp h
  obtain ⟨hderives, hnesting⟩ := Grammar.decodeAll_plain_eq_ok_iff.mp hread
  exact ⟨every_norm travels_kept isData_of_replaced u (hderives.isData hlength),
    every_norm hasRange_kept inRange_of_replaced u hderives.inRange, settled_norm u,
    Nat.le_trans (nesting_norm u) (Nat.succ_le_succ hnesting)⟩

/-- A value that arrived is sent without fail, and what is sent arrives as the same value if the
value nests at most 256 deep, an undefined value counted as one level. If it nests deeper by that
count, which is by one level at most, what is sent is refused for that. -/
theorem received_resent {received : Octets} {v : Value}
    (hlength : received.length < 0x10000000000000000) (h : decodeValue received = .ok v) :
    ∃ sent, encodeValue v = .ok sent ∧
      (v.nesting 1 ≤ 256 → decodeValue sent = .ok v) ∧
      (256 < v.nesting 1 → decodeValue sent = .error (.tooDeep 256)) ∧
      v.nesting 1 ≤ 257 := by
  obtain ⟨hdata, hrange, hsettled, hnesting⟩ := arrived hlength h
  exact ⟨_, encodeValue_of_inRange hdata hrange, decodeValue_sent hdata hrange hsettled,
    decodeValue_sent_of_tooDeep hdata hrange, hnesting⟩

/-- Runs, wide heads, absence with content and an undefined key. -/
theorem received_resent_run : ∃ sent,
    decodeValue [0x9f, 0xd8, 0x06, 0x83, 0x01, 0x02, 0x03, 0xbf, 0xf7, 0x38, 0x00, 0xff, 0xff] =
      .ok (.array [.undefined, .map [(.undefined, .integer (-1))]]) ∧
    encodeValue (.array [.undefined, .map [(.undefined, .integer (-1))]]) = .ok sent ∧
    decodeValue sent = .ok (.array [.undefined, .map [(.undefined, .integer (-1))]]) := by
  have harrived : decodeValue
      [0x9f, 0xd8, 0x06, 0x83, 0x01, 0x02, 0x03, 0xbf, 0xf7, 0x38, 0x00, 0xff, 0xff] =
      .ok (.array [.undefined, .map [(.undefined, .integer (-1))]]) := rfl
  obtain ⟨sent, hsent, hback, -⟩ := received_resent (by decide) harrived
  exact ⟨sent, harrived, hsent, hback (by decide)⟩

/-! ### At the limit -/

/-- A value inside a number of arrays. -/
def within : (levels : Nat) → Value → Value
  | 0, v => v
  | levels + 1, v => .array [within levels v]

theorem adapt_within (levels : Nat) (v : Value) :
    (within levels v).adapt (some substitution) = within levels (v.adapt (some substitution)) := by
  induction levels with
  | zero => rfl
  | succ levels ih => rw [within, Value.adapt, Value.adaptItems, ih]; rfl

theorem wire_within (levels : Nat) (v : Value) :
    (within levels v).wire = List.replicate levels 0x81 ++ v.wire := by
  induction levels with
  | zero => rfl
  | succ levels ih =>
    rw [within, Value.wire, Value.wireOfItems, Value.wireOfItems, ih, List.append_nil,
      List.replicate_succ]
    rfl

theorem nesting_within (bare levels : Nat) (v : Value) :
    (within levels v).nesting bare = v.nesting bare + levels := by
  induction levels with
  | zero => rfl
  | succ levels ih =>
    rw [within, Value.nesting, Value.nestingOfItems, Value.nestingOfItems, ih, Nat.max_zero,
      Nat.add_assoc]

theorem settled_within {v : Value} (h : Settled v) (levels : Nat) : Settled (within levels v) := by
  induction levels with
  | zero => exact h
  | succ levels ih => exact ⟨by rintro w ⟨⟩, ih, trivial⟩

theorem isData_within {v : Value} (h : v.IsData) (levels : Nat) : (within levels v).IsData := by
  have hone : 1 < 0x10000000000000000 := by decide
  induction levels with
  | zero => exact h
  | succ levels ih => exact ⟨hone, ih, trivial⟩

theorem inRange_within {v : Value} (h : v.InRange) (levels : Nat) : (within levels v).InRange := by
  induction levels with
  | zero => exact h
  | succ levels ih => exact ⟨trivial, ih, trivial⟩

/-- An undefined value inside as many arrays as there may be arrives, and what is sent for it does
not: the tag that it is sent under is one level too many. -/
theorem undefined_at_limit_not_resent : ∃ v,
    decodeValue (List.replicate 256 0x81 ++ [0xf7]) = .ok v ∧
    encodeValue v = .ok (List.replicate 256 0x81 ++ [0xc6, 0xf6]) ∧
    decodeValue (List.replicate 256 0x81 ++ [0xc6, 0xf6]) = .error (.tooDeep 256) := by
  have hdata : (within 256 .undefined).IsData :=
    isData_within (show Value.IsData .undefined from trivial) 256
  have hrange : (within 256 .undefined).InRange :=
    inRange_within (show Value.InRange .undefined from trivial) 256
  have hread : decodeAll (List.replicate 256 0x81 ++ [0xf7]) = .ok (within 256 .undefined) := by
    rw [← Value.wire.eq_1, ← wire_within]
    refine Grammar.decodeAll_plain_eq_ok_iff.mpr ⟨Grammar.derives_wire _ hdata hrange, ?_⟩
    rw [nesting_within]
    exact Nat.le_refl 256
  have hsent : ((within 256 .undefined).adapt (some substitution)).wire =
      List.replicate 256 0x81 ++ [0xc6, 0xf6] := by
    rw [adapt_within, wire_within]
    rfl
  refine ⟨within 256 .undefined, decodeValue_eq_ok_iff.mpr ⟨_, hread, ?_⟩, ?_, ?_⟩
  · exact norm_of_settled (settled_within (by rintro w ⟨⟩) 256)
  · rw [← hsent]
    exact encodeValue_of_inRange hdata hrange
  · rw [← hsent]
    refine decodeValue_sent_of_tooDeep hdata hrange ?_
    rw [nesting_within]
    exact Nat.lt_succ_self 256

end Convention

end Wireline
