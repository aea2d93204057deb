import Wireline.Proofs.Wire.Deferral

/-!
# Maps written in advance

The values of a map can be written in advance, each as a template of its own, and the map be written
later with the fills for their gaps. Every value then goes through a draft that nothing else is
written to. A template inside a value is written as what its draft is completed to
(`Encode.direct_toTemplate`), and the draft around the gaps of a value is completed to what the
value is written as at once (`Encode.defers_pieces`). So the entries come out alike one by one
(`Encode.direct_entries`), also where they share a gap, and so does the map
(`encode_encodeEntriesPartly_iff`). The substitution is applied to a value when its template is
made and to a fill when the map is written, and the keys are not touched before that.
-/

set_option autoImplicit false
set_option relaxedAutoImplicit false

namespace Wireline

namespace Encode

section Entries

variable {fills : List Fill} {substitution : Option Substitution}

/-- An entry whose value is written in advance around its gaps, if it can be. -/
def prepare (substitution : Option Substitution) (entry : Value × Value) : Option (Value × Value) :=
  (around (plan substitution entry.2)).map fun draft ↦
    (entry.1, .template (draft.toTemplate substitution))

theorem toOption_mapM {ε α β : Type} (f : α → Except ε β) (items : List α) :
    (items.mapM f).toOption = items.mapM fun item ↦ (f item).toOption := by
  induction items with
  | nil => rfl
  | cons item items ih =>
    rw [List.mapM_cons, List.mapM_cons, toOption_bind]
    refine congrArg _ (funext fun result ↦ ?_)
    rw [toOption_bind, ih]
    rfl

theorem length_of_mapM {α β : Type} (f : α → Option β) (items : List α) (results : List β)
    (h : items.mapM f = some results) : results.length = items.length := by
  induction items generalizing results with
  | nil =>
    obtain rfl : [] = results := Option.some.inj h
    rfl
  | cons item items ih =>
    rw [List.mapM_cons] at h
    obtain ⟨result, -, h⟩ := Option.bind_eq_some_iff.mp h
    obtain ⟨rest, hrest, h⟩ := Option.bind_eq_some_iff.mp h
    obtain rfl : result :: rest = results := Option.some.inj h
    exact congrArg (· + 1) (ih rest hrest)

/-- A template is written as what the draft that it was made from is completed to. -/
theorem direct_toTemplate (outer : Option Substitution) (draft : Draft) :
    direct fills (plan outer (.template (draft.toTemplate substitution))) =
      replay fills substitution draft :=
  rfl

/-- Entries are written alike if their values were written in advance. -/
theorem direct_entries (entries : List (Value × Value))
    (h : ∀ entry ∈ entries, Defers fills substitution (plan substitution entry.2)) :
    direct fills (piecesOfEntries substitution (Value.adaptEntries substitution entries)) =
      (entries.mapM (prepare substitution)).bind fun prepared ↦
        direct fills (piecesOfEntries substitution
          (Value.adaptEntries substitution prepared)) := by
  have hcons (key value : Value) (rest : List (Value × Value)) :
      direct fills (piecesOfEntries substitution
        (Value.adaptEntries substitution ((key, value) :: rest))) =
      ((direct fills (plan substitution key)).bind fun before ↦
        (direct fills (plan substitution value)).map (before ++ ·)).bind fun first ↦
          (direct fills (piecesOfEntries substitution
            (Value.adaptEntries substitution rest))).map (first ++ ·) := by
    rw [← direct_append, ← direct_append]
    rfl
  induction entries with
  | nil => rfl
  | cons entry rest ih =>
    obtain ⟨key, value⟩ := entry
    have hvalue : direct fills (plan substitution value) = _ := h _ List.mem_cons_self
    have hrest := ih fun entry hmem ↦ h entry (List.mem_cons_of_mem _ hmem)
    rw [hcons, hvalue, hrest, List.mapM_cons, prepare]
    -- Which part fails first does not matter, since it is not asked why.
    cases haround : around (plan substitution value) with
    | none => simp
    | some draft =>
      cases hprepared : rest.mapM (prepare substitution) with
      | none => simp
      | some prepared =>
        simp only [Option.map_some, Option.bind_eq_bind, Option.bind_some, pure, hcons,
          direct_toTemplate]

/-- A map is written alike if its values were written in advance. -/
theorem direct_map (entries : List (Value × Value))
    (h : ∀ entry ∈ entries, Defers fills substitution (plan substitution entry.2)) :
    direct fills (plan substitution (.map entries)) =
      (entries.mapM (prepare substitution)).bind fun prepared ↦
        direct fills (plan substitution (.map prepared)) := by
  have hmap (entries : List (Value × Value)) :
      direct fills (plan substitution (.map entries)) =
        (direct fills (piecesOfEntries substitution
          (Value.adaptEntries substitution entries))).map
            (.ofOctets (Head.write .map entries.length) ++ ·) := by
    rw [← Value.length_adaptEntries substitution entries]
    refine (direct_append [_] _).trans ?_
    rw [direct_octets, Option.bind_some]
  rw [hmap, direct_entries entries h]
  cases hprepared : entries.mapM (prepare substitution) with
  | none => rfl
  | some prepared =>
    rw [Option.bind_some, Option.bind_some, hmap, length_of_mapM _ entries prepared hprepared]

end Entries

end Encode

section Entries

variable {substitution : Option Substitution}

theorem toOption_encodeEntriesPartly (entries : List (Value × Value)) :
    (encodeEntriesPartly entries { substitution }).toOption =
      (entries.mapM (Encode.prepare substitution)).map .map := by
  rw [encodeEntriesPartly, Encode.toOption_bind, Encode.toOption_mapM, Option.map_eq_bind]
  refine congrArg₂ Option.bind (congrArg (List.mapM · entries) (funext fun entry ↦ ?_)) rfl
  obtain ⟨key, value⟩ := entry
  refine (Encode.toOption_bind _ _).trans ?_
  rw [encodePartly_eq, Encode.prepare]
  cases Encode.around (Encode.plan substitution value) <;> rfl

/-- Writing the values of a map in advance, each around its own gaps, and then the map with fills
gives the octets that writing the map at once with the fills gives, or both fail. The fills are for
different gaps, none of them leads back to its own gap, and gaps of the values that have a fallback
are filled. -/
theorem encode_encodeEntriesPartly_iff (entries : List (Value × Value))
    (substitution : Option Substitution) (fills : List Fill)
    (htemplates : ∀ entry ∈ entries, ∀ t, ¬ Value.Occurs (.template t) entry.2)
    (hnodup : (fills.map Fill.gap).Nodup) (hacyclic : Acyclic fills)
    (hfallbacks : ∀ entry ∈ entries, ∀ g : Gap, Value.Occurs (.gap g) entry.2 →
      g.fallback.isSome → ∃ fill ∈ fills, fill.gap = g.id) (octets : Octets) :
    (∃ prepared, encodeEntriesPartly entries { substitution } = .ok prepared ∧
      encode prepared { substitution, fills } = .ok octets) ↔
    encode (.map entries) { substitution, fills } = .ok octets := by
  have hdefers : ∀ entry ∈ entries,
      Encode.Defers fills substitution (Encode.plan substitution entry.2) :=
    fun entry hmem ↦ Encode.defers_plan hnodup hacyclic entry.2 (htemplates entry hmem)
      (hfallbacks entry hmem)
  simp only [← toOption_eq_some_iff, toOption_encodeEntriesPartly, toOption_encode,
    Encode.direct_map entries hdefers]
  cases entries.mapM (Encode.prepare substitution) with
  | none => simp
  | some prepared => simp

/-- Two entries share a gap. Its fill holds a gap that has a fill of its own. -/
theorem encode_encodeEntriesPartly_shared :
    ∃ prepared, encodeEntriesPartly [(.text "a", .array [.gap ⟨1, some .null⟩, .undefined]),
        (.text "b", .gap ⟨1, none⟩)] { substitution := some (.undefinedUnder 6) } = .ok prepared ∧
      encode prepared ⟨some (.undefinedUnder 6),
          [⟨1, .array [.gap ⟨2, none⟩]⟩, ⟨2, .undefined⟩]⟩ =
        .ok [0xa2, 0x61, 0x61, 0x82, 0x81, 0xc6, 0xf6, 0xc6, 0xf6, 0x61, 0x62, 0x81,
          0xc6, 0xf6] := by
  have hleads (gap next : Nat)
      (h : Leads [⟨1, .array [.gap ⟨2, none⟩]⟩, ⟨2, .undefined⟩] gap next) : gap < next := by
    obtain ⟨fill, hmem, rfl, hnext⟩ := h
    simp only [List.mem_cons, List.not_mem_nil, or_false] at hmem
    rcases hmem with rfl | rfl
    · rw [show next = 2 from List.mem_singleton.mp hnext]
      decide
    · exact absurd hnext List.not_mem_nil
  have hnodes : ∀ entry ∈ [(Value.text "a", Value.array [.gap ⟨1, some .null⟩, .undefined]),
      (.text "b", .gap ⟨1, none⟩)],
      entry.2.Every (Value.Deferrable [⟨1, .array [.gap ⟨2, none⟩]⟩, ⟨2, .undefined⟩]) := by
    intro entry hmem
    simp only [List.mem_cons, List.not_mem_nil, or_false] at hmem
    rcases hmem with rfl | rfl
    · exact ⟨trivial, fun _ ↦ rfl, trivial, trivial⟩
    · exact fun _ ↦ rfl
  refine (encode_encodeEntriesPartly_iff _ _ [⟨1, .array [.gap ⟨2, none⟩]⟩, ⟨2, .undefined⟩]
    (fun entry hmem t ht ↦ (hnodes entry hmem).of_occurs ht) (by decide) (acyclic_of_lt hleads)
    ?_ _).mpr rfl
  intro entry hmem g hg hfallback
  obtain ⟨fill, hfill, hsame⟩ := List.any_eq_true.mp ((hnodes entry hmem).of_occurs hg hfallback)
  exact ⟨fill, hfill, by simpa using hsame⟩

end Entries

end Wireline
