import Wireline.Proofs.Wire.Deferral

/-!
# Filling in two stages

A template can be filled in part, which leaves a template, and be completed later. A fill of the
first stage may hold gaps, and those that it has no fill for either stay open where they are, under
the substitution of the template (`Encode.completesHole`). So what comes out in the end is what
filling everything at once gives (`build_buildPartly_iff`), provided that the fills are for
different gaps, that those of the first stage do not lead back to their own gap, and that those of
the second hold no gaps.
-/

set_option autoImplicit false
set_option relaxedAutoImplicit false

namespace Wireline

namespace Encode

section Staging

variable {early late : List Fill} {substitution : Option Substitution}

/-- A value that asks for no gap is written the same with all fills. -/
theorem direct_plan_congr {value : Value} (h : ∀ answered, value.asks answered = [])
    (fills others : List Fill) :
    direct fills (plan substitution value) = direct others (plan substitution value) := by
  refine congrArg Except.toOption (@expandAll_pieces_congr _ (answeredBy fills) _ _ _ _
    substitution _ fun gap hgap ↦ ?_)
  rw [Value.asks_adapt, h] at hgap
  exact absurd hgap List.not_mem_nil

/-- A value is completed to the same if this holds of the holes of the gaps that it asks for. -/
theorem completes_plan (hstaged : Staged early late) {value : Value}
    (hvalue : value.Every (Value.Deferrable []))
    (hasked : ∀ next ∈ value.asks (answeredBy early),
      CompletesHole early late substitution substitution ⟨next, none⟩) :
    Completes early late substitution (plan substitution value) (plan substitution value) := by
  have hadapted := Value.Every.adapt (Value.deferrable_kept [] substitution) value hvalue
  have hnodes : (value.adapt substitution).Every (Completable early late substitution) := by
    refine Value.every_iff.mpr fun node hnode ↦ ?_
    have hdeferrable := hadapted.of_occurs hnode
    cases node with
    | gap g =>
      obtain ⟨next, fallback⟩ := g
      have hnext : next ∈ (value.adapt substitution).asks (answeredBy early) :=
        Value.mem_asks_of_occurs hnode
      rw [Value.asks_adapt] at hnext
      cases fallback with
      | none => exact hstaged.completes_plain (hasked next hnext)
      | some value => exact absurd (hdeferrable rfl) Bool.false_ne_true
    | template => exact hdeferrable.elim
    | _ => trivial
  have hcompletes := completes_pieces _ hnodes
  rwa [Value.adopt_eq_self fun _ ht ↦ (hadapted.of_occurs ht).elim] at hcompletes

/-- The hole of a gap becomes the same in two stages as at once. -/
theorem completesHole (hstaged : Staged early late)
    (hearly : ∀ fill ∈ early, fill.value.Every (Value.Deferrable []))
    (hlate : ∀ fill ∈ late, ∀ answered, fill.value.asks answered = []) (gap : Nat) :
    CompletesHole early late substitution substitution ⟨gap, none⟩ := by
  -- A fill of the first stage may ask for other gaps, and none of these leads back to this one.
  induction gap using hstaged.acyclicEarly.induction with
  | step gap ih =>
    cases hfill : fillFor? early gap with
    | none =>
      refine hstaged.completesHole_of_unfilled (fun h ↦ Bool.noConfusion h) hfill fun value
        hvalue ↦ ?_
      obtain ⟨fill, hmem, -, rfl⟩ := exists_of_fillFor? hvalue
      exact direct_plan_congr (hlate fill hmem) _ _
    | some value =>
      obtain ⟨fill, hmem, hsame, rfl⟩ := exists_of_fillFor? hfill
      rw [CompletesHole, hole, hole, fillFor?_append, hfill]
      exact completes_plan hstaged (hearly fill hmem) fun next hnext ↦
        ih next ⟨fill, hmem, hsame, hnext⟩

/-- The chunks of a template are completed one by one. -/
theorem completes_template (hstaged : Staged early late)
    (hearly : ∀ fill ∈ early, fill.value.Every (Value.Deferrable []))
    (hlate : ∀ fill ∈ late, ∀ answered, fill.value.asks answered = []) {template : Template}
    (hfallbacks : ∀ chunk ∈ template.chunks, chunk.2.fallback = none) :
    Completes early late template.substitution (plan none (.template template))
      (plan none (.template template)) := by
  obtain ⟨chunks, tail, substitution⟩ := template
  have hplan : plan none (.template ⟨chunks, tail, substitution⟩) =
      piecesOfChunks substitution (Template.adaptChunks substitution chunks) ++ [.octets tail] :=
    rfl
  rw [hplan, Template.adaptChunks_eq_self substitution chunks hfallbacks]
  refine (completes_piecesOfChunks chunks fun chunk hmem ↦ ?_).append (completes_octets tail)
  obtain ⟨octets, ⟨id, fallback⟩⟩ := chunk
  obtain rfl : fallback = none := hfallbacks _ hmem
  exact ⟨rfl, hstaged.completes_templated (completesHole hstaged hearly hlate id)⟩

end Staging

end Encode

theorem toOption_buildPartly (template : Template) (fills : List Fill) :
    (template.buildPartly fills).toOption =
      (Encode.written .partly fills (Encode.plan none (.template template))).map
        (·.toTemplate template.substitution) := by
  rw [Template.buildPartly, Encode.write, Encode.expand_eq, Encode.written]
  cases Encode.expandAll .partly _ _ _ <;> rfl

/-- Filling a template in part and completing it later gives the octets that filling it at once
gives, or both fail. The fills are for different gaps and hold no templates, those of the first
stage do not lead back to their own gap, those of the second hold no gaps, and no gap has a value of
its own. -/
theorem build_buildPartly_iff (template : Template) (early late : List Fill)
    (hfallbacks : ∀ chunk ∈ template.chunks, chunk.2.fallback = none)
    (hgaps : ∀ fill ∈ early, ∀ g : Gap, Value.Occurs (.gap g) fill.value → g.fallback = none)
    (hclosed : ∀ fill ∈ late, ∀ g, ¬ Value.Occurs (.gap g) fill.value)
    (htemplates : ∀ fill ∈ early ++ late, ∀ t, ¬ Value.Occurs (.template t) fill.value)
    (hnodup : ((early ++ late).map Fill.gap).Nodup) (hacyclic : Acyclic early)
    (octets : Octets) :
    (∃ half, template.buildPartly early = .ok half ∧ half.build late = .ok octets) ↔
      template.build (early ++ late) = .ok octets := by
  have hplain {fill : Fill} (hmem : fill ∈ early ++ late) : fill.value.Every Value.NoTemplate := by
    refine Value.every_iff.mpr fun node hnode ↦ ?_
    cases node with
    | template t => exact htemplates fill hmem t hnode
    | _ => trivial
  have hearly : ∀ fill ∈ early, fill.value.Every (Value.Deferrable []) := by
    refine fun fill hmem ↦ Value.every_iff.mpr fun node hnode ↦ ?_
    cases node with
    | gap g =>
      intro hfallback
      rw [hgaps fill hmem g hnode] at hfallback
      exact Bool.noConfusion hfallback
    | template t => exact htemplates fill (List.mem_append_left _ hmem) t hnode
    | _ => trivial
  have hlate : ∀ fill ∈ late, ∀ answered, fill.value.asks answered = [] := by
    refine fun fill hmem answered ↦ List.eq_nil_iff_forall_not_mem.mpr fun gap hgap ↦ ?_
    obtain ⟨g, hoccurs, -⟩ :=
      fill.value.occurs_of_mem_asks (hplain (List.mem_append_right _ hmem)) hgap
    exact hclosed fill hmem g hoccurs
  have hstaged : Encode.Staged early late :=
    { nodup := hnodup
      acyclic := hacyclic.append (fun fill hmem ↦ hplain (List.mem_append_left _ hmem)) hlate
      acyclicEarly := hacyclic
      acyclicLate := acyclic_of_lt fun _ _ ⟨fill, hmem, _, hnext⟩ ↦
        absurd (hlate fill hmem _ ▸ hnext) List.not_mem_nil }
  have hcompletes := Encode.completes_template hstaged hearly hlate hfallbacks
  rw [exists_build_iff (toOption_buildPartly template early), ← hcompletes, ← toOption_encode,
    toOption_eq_some_iff, Template.build]

/-- What is put into the first gap opens another one, which the second stage fills under the
substitution of the template. -/
theorem build_buildPartly_opens :
    ∃ half, Template.buildPartly ⟨[([0x82], ⟨0, none⟩), ([], ⟨1, none⟩)], [],
        some (.undefinedUnder 6)⟩ [⟨0, .array [.gap ⟨2, none⟩, .undefined]⟩] = .ok half ∧
      half.build [⟨1, .bool true⟩, ⟨2, .undefined⟩] =
        .ok [0x82, 0x82, 0xc6, 0xf6, 0xc6, 0xf6, 0xf5] := by
  have hvalue : Value.Every (Value.Deferrable []) (.array [.gap ⟨2, none⟩, .undefined]) :=
    ⟨trivial, fun h ↦ Bool.noConfusion h, trivial, trivial⟩
  have hacyclic : Acyclic [⟨0, .array [.gap ⟨2, none⟩, .undefined]⟩] := by
    refine acyclic_of_lt fun gap next ⟨fill, hmem, hsame, hnext⟩ ↦ ?_
    obtain rfl := List.mem_singleton.mp hmem
    rw [← hsame, List.mem_singleton.mp hnext]
    decide
  have hclosed : ∀ fill ∈ [Fill.mk 1 (.bool true), Fill.mk 2 .undefined],
      fill.value.Every fun node ↦ (∀ g, node ≠ .gap g) ∧ ∀ t, node ≠ .template t := by
    intro fill hmem
    simp only [List.mem_cons, List.not_mem_nil, or_false] at hmem
    rcases hmem with rfl | rfl
    · exact ⟨nofun, nofun⟩
    · exact ⟨nofun, nofun⟩
  refine (build_buildPartly_iff _ [⟨0, .array [.gap ⟨2, none⟩, .undefined]⟩]
    [⟨1, .bool true⟩, ⟨2, .undefined⟩] ?_ ?_ (fun fill hmem g hg ↦
      ((hclosed fill hmem).of_occurs hg).1 g rfl) ?_ (by decide) hacyclic _).mpr rfl
  · intro chunk hmem
    simp only [List.mem_cons, List.not_mem_nil, or_false] at hmem
    rcases hmem with rfl | rfl <;> rfl
  · intro fill hmem g hg
    obtain rfl := List.mem_singleton.mp hmem
    have hunanswered := hvalue.of_occurs hg
    simpa [Value.Deferrable, answeredBy] using hunanswered
  · intro fill hmem t ht
    rcases List.mem_cons.mp hmem with rfl | hmem
    · exact hvalue.of_occurs ht
    · exact ((hclosed fill hmem).of_occurs ht).2 t rfl

end Wireline
