import Wireline.Proofs.Wire.Deferral

/-!
# Templates within templates

A value that is written around its gaps may hold templates, each with a substitution for what is put
into its own gaps. The octets of such a template become part of the larger one and so do its gaps,
but its substitution does not: a gap that is still open is later filled under the substitution of
the larger template, whereas a value that is written at once fills it under that of the template
which the gap is from. So the two agree where each template is taken to have the outer substitution
(`Value.adopt`), which changes nothing if it has that one anyway (`build_encodePartly_templates`).
-/

set_option autoImplicit false
set_option relaxedAutoImplicit false

namespace Wireline

/-- A node whose gaps, if it has any, have no value of their own. -/
def Value.Unanswered : Value → Prop
  | .gap g => g.fallback = none
  | .template t => ∀ chunk ∈ t.chunks, chunk.2.fallback = none
  | _ => True

theorem Value.unanswered_kept (substitution : Option Substitution) :
    KeptBy Unanswered substitution := by
  refine .of_forall (fun v hgap htemplate ↦ ?_) fun t h ↦ ?_
  · cases v with
    | gap g => exact absurd rfl (hgap g)
    | template t => exact absurd rfl (htemplate t)
    | _ => trivial
  · obtain ⟨chunks, tail, inner⟩ := t
    show ∀ chunk ∈ Template.adaptChunks inner chunks, chunk.2.fallback = none
    rwa [Template.adaptChunks_eq_self inner chunks h]

/-- What replaces a leaf holds no template. -/
theorem Value.adopt_leaf (substitution outer : Option Substitution) (v : Value)
    (h : v.Every NoTemplate) :
    (Substitution.leaf substitution v).adopt outer = Substitution.leaf substitution v :=
  adopt_eq_self fun _ ht ↦ ((noTemplate_kept.leaf v h).of_occurs ht).elim

mutual

/-- It does not matter whether templates take a substitution before or after it is applied. -/
theorem Value.adapt_adopt (substitution : Option Substitution) : ∀ v : Value,
    v.Every Unanswered → (v.adopt substitution).adapt substitution =
      (v.adapt substitution).adopt substitution
  | .array items, h => by
    rw [adopt_array, adapt, adapt, adopt_array, adaptItems_adopt substitution items h.2]
  | .map entries, h => by
    rw [adopt_map, adapt, adapt, adopt_map, adaptEntries_adopt substitution entries h.2]
  | .tagged tag content, h =>
    congrArg (Value.tagged tag) (adapt_adopt substitution content h.2)
  | .template ⟨[], _, _⟩, _ => rfl
  | .template ⟨chunk :: chunks, tail, inner⟩, h => by
    have hkept (other : Option Substitution) : (Template.mk (chunk :: chunks) tail other).adapt =
        ⟨chunk :: chunks, tail, other⟩ := by
      rw [Template.adapt, Template.adaptChunks_eq_self other (chunk :: chunks) h]
    have hadopt (other : Option Substitution) :
        (Value.template ⟨chunk :: chunks, tail, other⟩).adopt substitution =
          .template ⟨chunk :: chunks, tail, substitution⟩ := rfl
    rw [hadopt, adapt, adapt, hkept, hkept, hadopt]
  | .undefined, _ | .null, _ | .bool _, _ | .integer _, _ | .float _, _ | .octets _, _ | .text _, _
  | .gap _, _ | .encoded _, _ => Eq.symm (adopt_leaf substitution substitution _ trivial)

theorem Value.adaptItems_adopt (substitution : Option Substitution) : ∀ items : List Value,
    EveryItem Unanswered items →
      adaptItems substitution (rebuildItems (adoptNode substitution) items) =
        rebuildItems (adoptNode substitution) (adaptItems substitution items)
  | [], _ => rfl
  | item :: items, h => by
    rw [rebuildItems, adaptItems, adaptItems, rebuildItems, adaptItems_adopt substitution items h.2]
    exact congrArg (· :: _) (adapt_adopt substitution item h.1)

theorem Value.adaptEntries_adopt (substitution : Option Substitution) :
    ∀ entries : List (Value × Value), EveryEntry Unanswered entries →
      adaptEntries substitution (rebuildEntries (adoptNode substitution) entries) =
        rebuildEntries (adoptNode substitution) (adaptEntries substitution entries)
  | [], _ => rfl
  | (key, value) :: entries, h => by
    have hkey := adapt_adopt substitution key h.1
    have hvalue := adapt_adopt substitution value h.2.1
    rw [adopt, adopt] at hkey hvalue
    rw [rebuildEntries, adaptEntries, adaptEntries, rebuildEntries, hkey, hvalue,
      adaptEntries_adopt substitution entries h.2.2]

end

/-- Gaps without a value of their own stay open until the fills come, whichever template they are
from. -/
theorem Encode.completable_of_unanswered {fills : List Fill} (substitution : Option Substitution)
    (hnodup : (fills.map Fill.gap).Nodup) (hacyclic : Acyclic fills) {node : Value}
    (hnode : node.Unanswered) : Completable [] fills substitution node := by
  have hstaged := Staged.once hnodup hacyclic
  have hopen {gap : Gap} (hfallback : gap.fallback = none) (inner : Option Substitution) :
      CompletesHole [] fills inner substitution gap := by
    refine hstaged.completesHole_of_unfilled (fun h ↦ ?_) rfl fun _ _ ↦ rfl
    rw [hfallback] at h
    exact Bool.noConfusion h
  cases node with
  | gap g => exact hstaged.completes_plain (hopen hnode _)
  | template t =>
    exact fun chunk hmem ↦
      ⟨hnode chunk hmem, hstaged.completes_templated (hopen (hnode chunk hmem) _)⟩
  | _ => trivial

/-- A value that may hold templates is written around its gaps and completed with fills. The octets
are those that writing it with the fills gives where each template with gaps has the substitution of
the whole, and either both ways give octets or neither does. No gap has a value of its own, and the
fills are for different gaps and do not lead back. -/
theorem build_encodePartly_templates (v : Value) (substitution : Option Substitution)
    (fills : List Fill) (hgaps : ∀ g : Gap, Value.Occurs (.gap g) v → g.fallback = none)
    (htemplates : ∀ t : Template, Value.Occurs (.template t) v →
      ∀ chunk ∈ t.chunks, chunk.2.fallback = none)
    (hnodup : (fills.map Fill.gap).Nodup) (hacyclic : Acyclic fills) (octets : Octets) :
    ((∃ template, encodePartly v { substitution } = .ok template ∧
        template.build fills = .ok octets) ↔
      encode (v.adopt substitution) { substitution, fills } = .ok octets) ∧
    ((∀ t : Template, Value.Occurs (.template t) v → t.chunks ≠ [] →
        t.substitution = substitution) →
      ((∃ template, encodePartly v { substitution } = .ok template ∧
          template.build fills = .ok octets) ↔
        encode v { substitution, fills } = .ok octets)) := by
  have hnodes : v.Every Value.Unanswered := by
    refine Value.every_iff.mpr fun node hnode ↦ ?_
    cases node with
    | gap g => exact hgaps g hnode
    | template t => exact htemplates t hnode
    | _ => trivial
  have hadapted : (v.adapt substitution).Every (Encode.Completable [] fills substitution) :=
    Value.every_iff.mpr fun _ hnode ↦
      Encode.completable_of_unanswered substitution hnodup hacyclic
        ((Value.Every.adapt (Value.unanswered_kept substitution) v hnodes).of_occurs hnode)
  have hcompletes : Encode.direct fills (Encode.plan substitution (v.adopt substitution)) =
      (Encode.around (Encode.plan substitution v)).bind (Encode.replay fills substitution) := by
    rw [Encode.plan, Value.adapt_adopt substitution v hnodes]
    exact Encode.completes_pieces _ hadapted
  have hsame : (∃ template, encodePartly v { substitution } = .ok template ∧
      template.build fills = .ok octets) ↔
        encode (v.adopt substitution) { substitution, fills } = .ok octets := by
    rw [exists_build_iff (encodePartly_eq v), ← hcompletes, ← toOption_encode,
      toOption_eq_some_iff]
  refine ⟨hsame, fun hsubstitution ↦ ?_⟩
  rwa [Value.adopt_eq_self hsubstitution] at hsame

/-- A template that puts undefined values under a tag stands in a value without a substitution. Its
gap is filled under the tag only where the value is written at once. -/
theorem build_encodePartly_templates_undefined :
    (∃ template, encodePartly
        (.array [.template ⟨[([], ⟨0, none⟩)], [], some (.undefinedUnder 6)⟩]) {} = .ok template ∧
      template.build [⟨0, .undefined⟩] = .ok [0x81, 0xf7]) ∧
    encode (.array [.template ⟨[([], ⟨0, none⟩)], [], some (.undefinedUnder 6)⟩])
      { fills := [⟨0, .undefined⟩] } = .ok [0x81, 0xc6, 0xf6] := by
  have hacyclic : Acyclic [⟨0, .undefined⟩] := by
    refine acyclic_of_lt fun gap next ⟨fill, hmem, _, hnext⟩ ↦ ?_
    obtain rfl := List.mem_singleton.mp hmem
    exact absurd hnext List.not_mem_nil
  have hnodes : Value.Every Value.Unanswered
      (.array [.template ⟨[([], ⟨0, none⟩)], [], some (.undefinedUnder 6)⟩]) :=
    ⟨trivial, fun chunk hmem ↦ by rw [List.mem_singleton.mp hmem], trivial⟩
  exact ⟨(build_encodePartly_templates _ none [⟨0, .undefined⟩] (fun g hg ↦ hnodes.of_occurs hg)
    (fun t ht ↦ hnodes.of_occurs ht) (by decide) hacyclic _).1.mpr rfl, rfl⟩

end Wireline
