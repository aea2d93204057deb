import Wireline.Proofs.Wire.Filling

/-!
# Gaps filled later

A value can be written at once with fills for its gaps, or with some of them or none, to be
completed with the others afterwards. Completing a draft writes it again piece by piece
(`Encode.replay`), and a draft of two parts is completed part by part (`Encode.replay_append`), so
that the two stages can be compared piece by piece (`Encode.Completes`). A template that stands in a
value loses its substitution to that of the draft (`Value.adopt`), and else only holes can differ
(`Encode.completes_pieces`): one way looks at the last fill for a gap and the other at the first,
one withholds used fills from gaps in values and the other from gaps of templates, and only the
latter falls back on what a gap has of its own. Where the fills are for different gaps and none
leads back to its own, a hole becomes the same either way (`Encode.hole`), and the octets of a value
whose gaps are all filled later are the same (`build_encodePartly_iff`).

What is compared are outcomes without the cause of a failure (`Except.toOption`), since a gap
without a fill is another error at another time.
-/

set_option autoImplicit false
set_option relaxedAutoImplicit false

namespace Wireline

/-- A node that can be written around: no template, and no gap that would fall back on its own value
for want of a fill. -/
def Value.Deferrable (fills : List Fill) : Value → Prop
  | .template _ => False
  | .gap g => g.fallback.isSome → answeredBy fills g.id
  | _ => True

/-- A template that has gaps takes the substitution. -/
def Value.adoptNode (substitution : Option Substitution) : Value → Value
  | .template ⟨chunk :: chunks, tail, _⟩ => .template ⟨chunk :: chunks, tail, substitution⟩
  | v => v

/-- Every template that stands in the value and has gaps takes the substitution. -/
def Value.adopt (substitution : Option Substitution) (v : Value) : Value :=
  v.rebuild (Value.adoptNode substitution)

theorem Value.adopt_array (substitution : Option Substitution) (items : List Value) :
    (Value.array items).adopt substitution =
      .array (Value.rebuildItems (Value.adoptNode substitution) items) :=
  rfl

theorem Value.adopt_map (substitution : Option Substitution) (entries : List (Value × Value)) :
    (Value.map entries).adopt substitution =
      .map (Value.rebuildEntries (Value.adoptNode substitution) entries) :=
  rfl

/-- Nothing changes where each template has the substitution or no gaps. -/
theorem Value.adopt_eq_self {substitution : Option Substitution} {v : Value}
    (h : ∀ t : Template, Occurs (.template t) v → t.chunks ≠ [] → t.substitution = substitution) :
    v.adopt substitution = v := by
  have hnodes : v.Every (Occurs · v) := every_iff.mpr fun _ hnode ↦ hnode
  refine rebuild_eq_self (fun node hnode ↦ ?_) v hnodes
  cases node with
  | template t =>
    obtain ⟨chunks, tail, inner⟩ := t
    cases chunks with
    | nil => rfl
    | cons chunk chunks =>
      obtain rfl : inner = substitution := h _ hnode (List.cons_ne_nil _ _)
      rfl
  | _ => rfl

theorem Template.adaptChunks_eq_self (substitution : Option Substitution) :
    ∀ chunks : List (Octets × Gap), (∀ chunk ∈ chunks, chunk.2.fallback = none) →
      Template.adaptChunks substitution chunks = chunks
  | [], _ => rfl
  | (octets, ⟨id, fallback⟩) :: chunks, h => by
    obtain rfl : fallback = none := h _ List.mem_cons_self
    rw [adaptChunks, Value.adaptFallback, adaptChunks_eq_self substitution chunks fun chunk
      hmem ↦ h chunk (List.mem_cons_of_mem _ hmem)]

theorem Value.deferrable_kept (fills : List Fill) (substitution : Option Substitution) :
    KeptBy (Deferrable fills) substitution := by
  refine .of_forall (fun v hgap htemplate ↦ ?_) fun _ h ↦ h.elim
  cases v with
  | gap g => exact absurd rfl (hgap g)
  | template t => exact absurd rfl (htemplate t)
  | _ => trivial

namespace Encode

section Deferral

/-- What pieces are written as in a mode with fills, if they can be. -/
def written (mode : Mode) (fills : List Fill) (pieces : List Piece) : Option Draft :=
  (expandAll mode (.ofList fills) (fillWith mode (Fills.ofList fills).count) pieces).toOption

/-- What pieces are written as with fills, if they can be. -/
def direct (fills : List Fill) (pieces : List Piece) : Option Draft :=
  (expandAll .complete (.ofList fills) (fillWith .complete (Fills.ofList fills).count)
    pieces).toOption

/-- What pieces are written as around their gaps, if they can be. -/
def around (pieces : List Piece) : Option Draft :=
  (expandAll .partly (.ofList []) (fillWith .partly (Fills.ofList []).count) pieces).toOption

/-- What a draft is completed to, if it can be. -/
def replay (fills : List Fill) (substitution : Option Substitution) (draft : Draft) :
    Option Draft :=
  direct fills (piecesOfChunks substitution (Template.adaptChunks substitution draft.sealed) ++
    [.octets draft.segment])

variable {mode : Mode} {fills early late : List Fill} {substitution inner : Option Substitution}

theorem toOption_bind {ε α β : Type} (outcome : Except ε α) (next : α → Except ε β) :
    (outcome >>= next).toOption = outcome.toOption.bind fun a ↦ (next a).toOption := by
  cases outcome <;> rfl

theorem written_append (first second : List Piece) :
    written mode fills (first ++ second) = (written mode fills first).bind fun before ↦
      (written mode fills second).map (before ++ ·) := by
  simp only [written, expandAll_append, toOption_bind]
  congr 1
  funext before
  cases expandAll _ _ _ second <;> rfl

theorem direct_append (first second : List Piece) :
    direct fills (first ++ second) = (direct fills first).bind fun before ↦
      (direct fills second).map (before ++ ·) :=
  written_append first second

theorem written_octets (octets : Octets) :
    written mode fills [.octets octets] = some (.ofOctets octets) :=
  congrArg Except.toOption (expandAll_single octets)

theorem direct_octets (octets : Octets) :
    direct fills [.octets octets] = some (.ofOctets octets) :=
  written_octets octets

/-- It does not matter where a run of octets is cut in two. -/
theorem direct_split (before after : List Piece) (octets more : Octets) :
    direct fills (before ++ .octets (octets ++ more) :: after) =
      direct fills (before ++ [.octets octets] ++ .octets more :: after) := by
  have hrun (o : Octets) (pieces : List Piece) :
      direct fills (.octets o :: pieces) = (direct fills pieces).map (.ofOctets o ++ ·) := by
    have hcons : direct fills (.octets o :: pieces) = _ := direct_append [.octets o] pieces
    rwa [direct_octets, Option.bind_some] at hcons
  have hjoined : Draft.ofOctets (octets ++ more) = .ofOctets octets ++ .ofOctets more := rfl
  rw [List.append_assoc, direct_append, direct_append before]
  congr 1
  funext draft
  rw [List.singleton_append, hrun, hrun, hrun, Option.map_map, Option.map_map, Option.map_map]
  congr 1
  funext rest
  simp only [Function.comp_apply, hjoined, Draft.append_assoc]

theorem adaptChunks_append (first second : List (Octets × Gap)) :
    Template.adaptChunks substitution (first ++ second) =
      Template.adaptChunks substitution first ++ Template.adaptChunks substitution second := by
  induction first with
  | nil => rfl
  | cons chunk rest ih =>
    obtain ⟨octets, id, fallback⟩ := chunk
    simp only [List.cons_append, Template.adaptChunks, ih]

theorem piecesOfChunks_append (first second : List (Octets × Gap)) :
    piecesOfChunks substitution (first ++ second) =
      piecesOfChunks substitution first ++ piecesOfChunks substitution second := by
  induction first with
  | nil => rfl
  | cons chunk rest ih =>
    obtain ⟨octets, id, fallback⟩ := chunk
    simp only [List.cons_append, piecesOfChunks, ih]

/-- A draft in two parts is completed part by part. -/
theorem replay_append (first second : Draft) :
    replay fills substitution (first ++ second) = (replay fills substitution first).bind
      fun before ↦ (replay fills substitution second).map (before ++ ·) := by
  obtain ⟨chunks, segment⟩ := first
  obtain ⟨more, tail⟩ := second
  unfold replay
  rw [← direct_append]
  cases more with
  | nil => exact direct_split _ [] segment tail
  | cons chunk rest =>
    obtain ⟨octets, id, fallback⟩ := chunk
    have hjoined : (Draft.mk chunks segment ++ Draft.mk ((octets, ⟨id, fallback⟩) :: rest) tail) =
        ⟨chunks ++ (segment ++ octets, ⟨id, fallback⟩) :: rest, tail⟩ := rfl
    rw [hjoined, adaptChunks_append, piecesOfChunks_append, List.append_assoc]
    exact direct_split _ _ segment octets

theorem replay_octets (octets : Octets) :
    replay fills substitution (.ofOctets octets) = some (.ofOctets octets) :=
  direct_octets octets

/-! ### Completing in two stages -/

/-- What pieces are written as with the fills of both stages is what the second stage completes the
draft of the first to. The substitution is the one that the draft is kept with. -/
def Completes (early late : List Fill) (substitution : Option Substitution)
    (pieces whole : List Piece) : Prop :=
  direct (early ++ late) whole = (written .partly early pieces).bind (replay late substitution)

theorem Completes.append {first second whole others : List Piece}
    (hfirst : Completes early late substitution first whole)
    (hsecond : Completes early late substitution second others) :
    Completes early late substitution (first ++ second) (whole ++ others) := by
  rw [Completes, direct_append, written_append, hfirst, hsecond]
  cases written .partly early first with
  | none => rfl
  | some before =>
    cases written .partly early second with
    | none =>
      simp only [Option.bind_some, Option.bind_none, Option.map_none]
      cases replay late substitution before <;> rfl
    | some after => exact (replay_append before after).symm

theorem completes_octets (octets : Octets) :
    Completes early late substitution [.octets octets] [.octets octets] := by
  rw [Completes, direct_octets, written_octets, Option.bind_some, replay_octets]

theorem completes_fail (error : WireError) :
    Completes early late substitution [.fail error] [.fail error] := rfl

theorem completes_integer (n : Int) :
    Completes early late substitution [integer n] [integer n] := by
  cases n with
  | ofNat n =>
    rw [integer]
    split
    · exact completes_octets _
    · exact completes_fail _
  | negSucc n =>
    rw [integer]
    split
    · exact completes_octets _
    · exact completes_fail _

theorem completes_piecesOfChunks : ∀ chunks : List (Octets × Gap),
    (∀ chunk ∈ chunks, chunk.2.fallback = none ∧
      Completes early late substitution [.templated chunk.2 inner none]
        [.templated chunk.2 substitution none]) →
    Completes early late substitution (piecesOfChunks inner chunks)
      (piecesOfChunks substitution chunks)
  | [], _ => rfl
  | (octets, ⟨id, fallback⟩) :: chunks, h => by
    obtain ⟨hfallback, hgap⟩ := h _ List.mem_cons_self
    subst hfallback
    exact (completes_octets octets).append (hgap.append
      (completes_piecesOfChunks chunks fun chunk hmem ↦ h chunk (List.mem_cons_of_mem _ hmem)))

/-- A node of which the first stage writes what the second completes. The draft forgets the
substitution of a template. -/
def Completable (early late : List Fill) (substitution : Option Substitution) : Value → Prop
  | .gap g => Completes early late substitution [.plain g substitution] [.plain g substitution]
  | .template t => ∀ chunk ∈ t.chunks, chunk.2.fallback = none ∧
      Completes early late substitution [.templated chunk.2 t.substitution none]
        [.templated chunk.2 substitution none]
  | _ => True

mutual

/-- A value that is written in two stages is completed to what it would be, had each template that
stands in it taken the substitution of the draft. -/
theorem completes_pieces : ∀ v : Value, v.Every (Completable early late substitution) →
    Completes early late substitution (pieces substitution v)
      (pieces substitution (v.adopt substitution))
  | .array items, h => by
    have hitems := completes_piecesOfItems items h.2
    rw [Value.adopt_array, pieces, pieces, Value.length_rebuildItems]
    exact (completes_octets _).append hitems
  | .map entries, h => by
    have hentries := completes_piecesOfEntries entries h.2
    rw [Value.adopt_map, pieces, pieces, Value.length_rebuildEntries]
    exact (completes_octets _).append hentries
  | .tagged _ content, h => (completes_octets _).append (completes_pieces content h.2)
  | .gap _, h => h
  | .template ⟨[], tail, _⟩, _ => completes_octets tail
  | .template ⟨_ :: _, tail, _⟩, h =>
    (completes_piecesOfChunks _ h).append (completes_octets tail)
  | .integer n, _ => completes_integer n
  | .undefined, _ | .null, _ | .bool _, _ | .float _, _ | .octets _, _ | .text _, _
  | .encoded _, _ => completes_octets _

theorem completes_piecesOfItems : ∀ items : List Value,
    Value.EveryItem (Completable early late substitution) items →
      Completes early late substitution (piecesOfItems substitution items)
        (piecesOfItems substitution (Value.rebuildItems (Value.adoptNode substitution) items))
  | [], _ => rfl
  | item :: items, h =>
    (completes_pieces item h.1).append (completes_piecesOfItems items h.2)

theorem completes_piecesOfEntries : ∀ entries : List (Value × Value),
    Value.EveryEntry (Completable early late substitution) entries →
      Completes early late substitution (piecesOfEntries substitution entries)
        (piecesOfEntries substitution
          (Value.rebuildEntries (Value.adoptNode substitution) entries))
  | [], _ => rfl
  | (key, value) :: entries, h =>
    ((completes_pieces key h.1).append (completes_pieces value h.2.1)).append
      (completes_piecesOfEntries entries h.2.2)

end

/-! ### Holes -/

/-- What the hole of a gap is written as, if the gap has no value of its own. -/
def hole (mode : Mode) (fills : List Fill) (substitution : Option Substitution) (gap : Gap) :
    Option Draft :=
  match fillFor? fills gap.id with
  | some value => written mode fills (plan substitution value)
  | none => (leaveOpen mode gap .openGap).toOption

theorem written_singleton (piece : Piece) :
    written mode fills [piece] = (expandPiece mode (.ofList fills)
      (fillWith mode (Fills.ofList fills).count) piece).toOption := by
  rw [written, expandAll]
  cases expandPiece mode _ _ piece with
  | error error => rfl
  | ok draft => exact congrArg some (Draft.append_empty draft)

theorem written_plain (hnodup : (fills.map Fill.gap).Nodup) (hacyclic : Acyclic fills) (gap : Gap) :
    written mode fills [.plain gap substitution] = hole mode fills substitution gap := by
  have hplain : (Fills.ofList fills).plain? gap.id = fillFor? fills gap.id :=
    fillFor?_reverse hnodup gap.id
  rw [written_singleton, expandPiece, hplain, hole]
  cases hfill : fillFor? fills gap.id with
  | none => rfl
  | some value =>
    simp only [fill_plain_eq_expand hnodup hacyclic hfill, expand_eq]
    rfl

theorem written_templated (hnodup : (fills.map Fill.gap).Nodup) (hacyclic : Acyclic fills)
    {gap : Gap} {fallback : Option (List Piece)}
    (hfallback : fallback.isSome → answeredBy fills gap.id) :
    written mode fills [.templated gap substitution fallback] =
      hole mode fills substitution gap := by
  have htemplated : (Fills.ofList fills).templated? gap.id = fillFor? fills gap.id := rfl
  rw [written_singleton, expandPiece, htemplated, hole]
  cases hfill : fillFor? fills gap.id with
  | none =>
    have hunanswered : answeredBy fills gap.id = false := by
      rw [← isSome_fillFor?, hfill]
      rfl
    cases fallback with
    | none => cases mode <;> rfl
    | some pieces => simp [hunanswered] at hfallback
  | some value =>
    simp only [fill_templated_eq_expand hnodup hacyclic hfill, expand_eq]
    rfl

/-- A gap that stayed open is filled like any other. -/
theorem replay_ofGap (hnodup : (late.map Fill.gap).Nodup) (hacyclic : Acyclic late) {gap : Gap}
    (hgap : (Value.gap gap).Deferrable late) :
    replay late substitution (.ofGap gap) = hole .complete late substitution gap := by
  obtain ⟨id, fallback⟩ := gap
  let adapted : Gap := ⟨id, Value.adaptFallback substitution fallback⟩
  let pieces := piecesOfFallback substitution adapted.fallback
  have hfallback : pieces.isSome → answeredBy late id := by
    cases fallback with
    | none => exact fun h ↦ Bool.noConfusion h
    | some value => exact fun _ ↦ hgap rfl
  have hhole : direct late [.templated adapted substitution pieces] =
      hole .complete late substitution ⟨id, fallback⟩ :=
    written_templated hnodup hacyclic hfallback
  have hreplay : replay late substitution (.ofGap ⟨id, fallback⟩) =
      direct late ([.octets []] ++ ([.templated adapted substitution pieces] ++ [.octets []])) :=
    rfl
  rw [hreplay, direct_append, direct_append, direct_octets, hhole]
  cases hole .complete late substitution _ with
  | none => rfl
  | some draft => exact congrArg some ((Draft.empty_append _).trans (Draft.append_empty draft))

/-- The hole of a gap is written at once as what the second stage completes it to. It may have been
left open under another substitution. -/
def CompletesHole (early late : List Fill) (inner substitution : Option Substitution) (gap : Gap) :
    Prop :=
  hole .complete (early ++ late) substitution gap =
    (hole .partly early inner gap).bind (replay late substitution)

/-- The fills of two stages are for different gaps, and in neither stage nor at once one of them
leads back to its own gap. -/
structure Staged (early late : List Fill) : Prop where
  nodup : ((early ++ late).map Fill.gap).Nodup
  acyclic : Acyclic (early ++ late)
  acyclicEarly : Acyclic early
  acyclicLate : Acyclic late

namespace Staged

theorem once (hnodup : (fills.map Fill.gap).Nodup) (hacyclic : Acyclic fills) :
    Staged [] fills where
  nodup := hnodup
  acyclic := hacyclic
  acyclicEarly := acyclic_of_lt fun _ _ ⟨_, hmem, _⟩ ↦ absurd hmem List.not_mem_nil
  acyclicLate := hacyclic

theorem nodup_early (h : Staged early late) : (early.map Fill.gap).Nodup := by
  have hnodup := h.nodup
  rw [List.map_append] at hnodup
  exact hnodup.of_append_left

theorem nodup_late (h : Staged early late) : (late.map Fill.gap).Nodup := by
  have hnodup := h.nodup
  rw [List.map_append] at hnodup
  exact hnodup.of_append_right

/-- A gap without a fill in the first stage is left to the second. What it is filled with there must
not need the fills of the first. -/
theorem completesHole_of_unfilled (h : Staged early late) {gap : Gap}
    (hgap : (Value.gap gap).Deferrable late) (hearly : fillFor? early gap.id = none)
    (hlate : ∀ value, fillFor? late gap.id = some value →
      direct (early ++ late) (plan substitution value) = direct late (plan substitution value)) :
    CompletesHole early late inner substitution gap := by
  have hopen : hole .partly early inner gap = some (.ofGap gap) := by
    rw [hole, hearly]
    rfl
  rw [CompletesHole, hopen, Option.bind_some, replay_ofGap h.nodup_late h.acyclicLate hgap, hole,
    hole, fillFor?_append, hearly, Option.none_or]
  cases hfill : fillFor? late gap.id with
  | none => rfl
  | some value => exact hlate value hfill

theorem completes_plain (h : Staged early late) {gap : Gap}
    (hgap : CompletesHole early late substitution substitution gap) :
    Completes early late substitution [.plain gap substitution] [.plain gap substitution] := by
  have hdirect : direct (early ++ late) [.plain gap substitution] =
      hole .complete (early ++ late) substitution gap := written_plain h.nodup h.acyclic gap
  rw [Completes, hdirect, written_plain h.nodup_early h.acyclicEarly, hgap]

theorem completes_templated (h : Staged early late) {gap : Gap}
    (hgap : CompletesHole early late inner substitution gap) :
    Completes early late substitution [.templated gap inner none]
      [.templated gap substitution none] := by
  have hnone (fills : List Fill) : (none : Option (List Piece)).isSome → answeredBy fills gap.id :=
    fun h ↦ Bool.noConfusion h
  have hdirect : direct (early ++ late) [.templated gap substitution none] =
      hole .complete (early ++ late) substitution gap :=
    written_templated h.nodup h.acyclic (hnone _)
  rw [Completes, hdirect, written_templated h.nodup_early h.acyclicEarly (hnone _), hgap]

end Staged

/-! ### All fills later -/

/-- What a value is written as with fills is what the draft around its gaps is completed to. -/
def Defers (fills : List Fill) (substitution : Option Substitution) (pieces : List Piece) : Prop :=
  direct fills pieces = (around pieces).bind (replay fills substitution)

theorem defers_pieces (hnodup : (fills.map Fill.gap).Nodup) (hacyclic : Acyclic fills) (v : Value)
    (h : v.Every (Value.Deferrable fills)) : Defers fills substitution (pieces substitution v) := by
  have hadopt : v.adopt substitution = v :=
    Value.adopt_eq_self fun _ ht ↦ (h.of_occurs ht).elim
  have hstaged := Staged.once hnodup hacyclic
  have hnodes : v.Every (Completable [] fills substitution) := by
    refine Value.every_iff.mpr fun node hnode ↦ ?_
    have hdeferrable := h.of_occurs hnode
    cases node with
    | gap g =>
      exact hstaged.completes_plain
        (hstaged.completesHole_of_unfilled hdeferrable rfl fun _ _ ↦ rfl)
    | template => exact hdeferrable.elim
    | _ => trivial
  have hcompletes := completes_pieces v hnodes
  rwa [hadopt] at hcompletes

/-- A value can be written around its gaps if it holds no template and each of its gaps that has a
fallback is filled later. -/
theorem defers_plan (hnodup : (fills.map Fill.gap).Nodup) (hacyclic : Acyclic fills) (v : Value)
    (htemplates : ∀ t, ¬ Value.Occurs (.template t) v)
    (hfallbacks : ∀ g : Gap, Value.Occurs (.gap g) v → g.fallback.isSome →
      ∃ fill ∈ fills, fill.gap = g.id) :
    Defers fills substitution (plan substitution v) := by
  have hdeferrable : v.Every (Value.Deferrable fills) := by
    refine Value.every_iff.mpr fun node hnode ↦ ?_
    cases node with
    | template t => exact htemplates t hnode
    | gap g =>
      intro hfallback
      obtain ⟨fill, hmem, hsame⟩ := hfallbacks g hnode hfallback
      exact List.any_eq_true.mpr ⟨fill, hmem, by simpa using hsame⟩
    | _ => trivial
  exact defers_pieces hnodup hacyclic _
    (Value.Every.adapt (Value.deferrable_kept fills substitution) v hdeferrable)

end Deferral

end Encode

section Build

variable {fills : List Fill} {substitution : Option Substitution}

theorem toOption_eq_some_iff {ε α : Type} {outcome : Except ε α} {result : α} :
    outcome.toOption = some result ↔ outcome = .ok result := by
  cases outcome <;> simp [Except.toOption]

/-- Completing a template writes again what it was made from. -/
theorem toOption_build (draft : Draft) :
    ((draft.toTemplate substitution).build fills).toOption =
      (Encode.replay fills substitution draft).bind fun done ↦ done.finish.toOption := by
  have hwrite : Encode.write .complete none fills (.template (draft.toTemplate substitution)) =
      Encode.expandAll .complete (.ofList fills)
        (Encode.fillWith .complete (Fills.ofList fills).count)
        (Encode.piecesOfChunks substitution
          (Template.adaptChunks substitution draft.sealed) ++ [.octets draft.segment]) :=
    Encode.expand_eq _ _ _ _ _
  rw [Template.build, encode, Encode.toOption_bind, hwrite]
  rfl

theorem toOption_encode (v : Value) :
    (encode v { substitution, fills }).toOption =
      (Encode.direct fills (Encode.plan substitution v)).bind fun done ↦
        done.finish.toOption := by
  rw [encode, Encode.toOption_bind, Encode.write, Encode.expand_eq]
  rfl

theorem encodePartly_eq (v : Value) :
    (encodePartly v { substitution }).toOption =
      (Encode.around (Encode.plan substitution v)).map (·.toTemplate substitution) := by
  rw [encodePartly, Encode.write, Encode.expand_eq, Encode.around]
  cases Encode.expandAll .partly _ _ _ <;> rfl

/-- A template from a draft is completed as the draft is. -/
theorem exists_build_iff {outcome : Except WireError Template} {written : Option Draft}
    (houtcome : outcome.toOption = written.map (·.toTemplate substitution)) (octets : Octets) :
    (∃ template, outcome = .ok template ∧ template.build fills = .ok octets) ↔
      ((written.bind (Encode.replay fills substitution)).bind fun done ↦ done.finish.toOption) =
        some octets := by
  simp only [← toOption_eq_some_iff, houtcome]
  cases written with
  | none => simp
  | some draft => simp [toOption_build]

/-- Writing a value around its gaps and completing it with fills gives the octets that writing it
with the fills gives, or both fail. The fills are for different gaps, none of them leads back to its
own gap, and gaps with a fallback are filled. -/
theorem build_encodePartly_iff (v : Value) (substitution : Option Substitution)
    (fills : List Fill) (htemplates : ∀ t, ¬ Value.Occurs (.template t) v)
    (hnodup : (fills.map Fill.gap).Nodup) (hacyclic : Acyclic fills)
    (hfallbacks : ∀ g : Gap, Value.Occurs (.gap g) v → g.fallback.isSome →
      ∃ fill ∈ fills, fill.gap = g.id) (octets : Octets) :
    (∃ template, encodePartly v { substitution } = .ok template ∧
      template.build fills = .ok octets) ↔
    encode v { substitution, fills } = .ok octets := by
  have hdefers : Encode.Defers fills substitution (Encode.plan substitution v) :=
    Encode.defers_plan hnodup hacyclic v htemplates hfallbacks
  rw [← toOption_eq_some_iff, toOption_encode, hdefers]
  simp only [← toOption_eq_some_iff, encodePartly_eq]
  cases Encode.around (Encode.plan substitution v) with
  | none => simp
  | some draft => simp [toOption_build]

/-- The fill of a gap that stands in a key and in a list holds a gap that has a fill of its own. -/
theorem build_encodePartly_nested :
    (∃ template, encodePartly (.map [(.gap ⟨1, none⟩, .array [.gap ⟨1, some .null⟩, .undefined])])
        { substitution := some (.undefinedUnder 6) } = .ok template ∧
      template.build [⟨1, .array [.gap ⟨2, none⟩]⟩, ⟨2, .bool true⟩] =
        .ok [0xa1, 0x81, 0xf5, 0x82, 0x81, 0xf5, 0xc6, 0xf6]) := by
  have hleads (gap next : Nat)
      (h : Leads [⟨1, .array [.gap ⟨2, none⟩]⟩, ⟨2, .bool true⟩] gap next) : gap < next := by
    obtain ⟨fill, hmem, rfl, hnext⟩ := h
    simp only [List.mem_cons, List.not_mem_nil, or_false] at hmem
    rcases hmem with rfl | rfl
    · rw [show next = 2 from List.mem_singleton.mp hnext]
      decide
    · exact absurd hnext List.not_mem_nil
  have hnodes : Value.Every (Value.Deferrable [⟨1, .array [.gap ⟨2, none⟩]⟩, ⟨2, .bool true⟩])
      (.map [(.gap ⟨1, none⟩, .array [.gap ⟨1, some .null⟩, .undefined])]) := by
    refine ⟨trivial, fun _ ↦ rfl, ⟨trivial, fun _ ↦ rfl, trivial, trivial⟩, trivial⟩
  refine (build_encodePartly_iff _ _ [⟨1, .array [.gap ⟨2, none⟩]⟩, ⟨2, .bool true⟩]
    (fun t ht ↦ hnodes.of_occurs ht) (by decide) (acyclic_of_lt hleads) ?_ _).mpr rfl
  intro g hg hfallback
  obtain ⟨fill, hmem, hsame⟩ := List.any_eq_true.mp (hnodes.of_occurs hg hfallback)
  exact ⟨fill, hmem, by simpa using hsame⟩

end Build

end Wireline
