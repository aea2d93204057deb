import Mathlib.Logic.Relation
import Mathlib.Order.WellFoundedSet
import Wireline.Proofs.Wire.Writing

/-!
# Filling gaps

`Value.asks` lists the gaps for which fills are looked up while a value is written, and one gap
leads to another (`Leads`) if the fill of the first asks for the second. Where no fill leads back to
its own gap, what the writer withholds inside a fill is never missed: writing a value gives the same
for all fills that agree on the gaps which the value reaches, however deep the writer may go
(`Encode.expand_congr`).
-/

set_option autoImplicit false
set_option relaxedAutoImplicit false

namespace Wireline

/-! ### Which gaps are asked for -/

mutual

/-- The gaps that are looked up to write a value. The fallback of a gap in a template counts only if
the gap is not `answered`. -/
def Value.asks (answered : Nat → Bool) : Value → List Nat
  | .array items => Value.asksOfItems answered items
  | .map entries => Value.asksOfEntries answered entries
  | .tagged _ content => content.asks answered
  | .gap g => [g.id]
  | .template ⟨chunks, _, _⟩ => Value.asksOfChunks answered chunks
  | _ => []

def Value.asksOfItems (answered : Nat → Bool) : List Value → List Nat
  | [] => []
  | item :: items => item.asks answered ++ Value.asksOfItems answered items

def Value.asksOfEntries (answered : Nat → Bool) : List (Value × Value) → List Nat
  | [] => []
  | (key, value) :: entries =>
    key.asks answered ++ value.asks answered ++ Value.asksOfEntries answered entries

def Value.asksOfChunks (answered : Nat → Bool) : List (Octets × Gap) → List Nat
  | [] => []
  | (_, ⟨id, fallback⟩) :: chunks =>
    id :: (if answered id then [] else Value.asksOfFallback answered fallback) ++
      Value.asksOfChunks answered chunks

def Value.asksOfFallback (answered : Nat → Bool) : Option Value → List Nat
  | none => []
  | some value => value.asks answered

end

section Occurs

variable {answered : Nat → Bool} {gap : Nat}

theorem Value.mem_asksOfItems {items : List Value} :
    gap ∈ Value.asksOfItems answered items ↔ ∃ item ∈ items, gap ∈ item.asks answered := by
  induction items with
  | nil => simp [asksOfItems]
  | cons item items ih => simp [asksOfItems, ih]

theorem Value.mem_asksOfEntries {entries : List (Value × Value)} :
    gap ∈ Value.asksOfEntries answered entries ↔
      ∃ entry ∈ entries, gap ∈ entry.1.asks answered ∨ gap ∈ entry.2.asks answered := by
  induction entries with
  | nil => simp [asksOfEntries]
  | cons entry entries ih => simp [asksOfEntries, ih, or_assoc]

theorem Value.mem_asks_of_occurs {g : Gap} {v : Value} (h : Occurs (.gap g) v) :
    g.id ∈ v.asks answered := by
  induction h with
  | here => exact List.mem_cons_self
  | item hmem _ ih => exact mem_asksOfItems.mpr ⟨_, hmem, ih⟩
  | key hmem _ ih => exact mem_asksOfEntries.mpr ⟨_, hmem, .inl ih⟩
  | value hmem _ ih => exact mem_asksOfEntries.mpr ⟨_, hmem, .inr ih⟩
  | content _ ih => exact ih

mutual

/-- A value without templates asks only for the gaps that stand in it. -/
theorem Value.occurs_of_mem_asks : ∀ v : Value, v.Every NoTemplate → gap ∈ v.asks answered →
    ∃ g : Gap, Occurs (.gap g) v ∧ g.id = gap
  | .array items, h, hgap => by
    obtain ⟨item, hmem, g, hoccurs, hsame⟩ := occursItem_of_mem_asks items h.2 hgap
    exact ⟨g, .item hmem hoccurs, hsame⟩
  | .map entries, h, hgap => by
    obtain ⟨entry, hmem, g, hoccurs, hsame⟩ := occursEntry_of_mem_asks entries h.2 hgap
    exact ⟨g, hoccurs.elim (.key hmem) (.value hmem), hsame⟩
  | .tagged _ content, h, hgap => by
    obtain ⟨g, hoccurs, hsame⟩ := occurs_of_mem_asks content h.2 hgap
    exact ⟨g, .content hoccurs, hsame⟩
  | .gap g, _, hgap => ⟨g, .here, (List.mem_singleton.mp hgap).symm⟩
  | .template _, h, _ => h.elim
  | .undefined, _, hgap | .null, _, hgap | .bool _, _, hgap | .integer _, _, hgap
  | .float _, _, hgap | .octets _, _, hgap | .text _, _, hgap | .encoded _, _, hgap =>
    absurd hgap List.not_mem_nil

theorem Value.occursItem_of_mem_asks : ∀ items : List Value, EveryItem NoTemplate items →
    gap ∈ Value.asksOfItems answered items →
      ∃ item ∈ items, ∃ g : Gap, Occurs (.gap g) item ∧ g.id = gap
  | [], _, hgap => absurd hgap List.not_mem_nil
  | item :: items, h, hgap => by
    rcases List.mem_append.mp hgap with hfirst | hrest
    · exact ⟨item, List.mem_cons_self, occurs_of_mem_asks item h.1 hfirst⟩
    · obtain ⟨other, hmem, hother⟩ := occursItem_of_mem_asks items h.2 hrest
      exact ⟨other, List.mem_cons_of_mem _ hmem, hother⟩

theorem Value.occursEntry_of_mem_asks : ∀ entries : List (Value × Value),
    EveryEntry NoTemplate entries → gap ∈ Value.asksOfEntries answered entries →
      ∃ entry ∈ entries, ∃ g : Gap,
        (Occurs (.gap g) entry.1 ∨ Occurs (.gap g) entry.2) ∧ g.id = gap
  | [], _, hgap => absurd hgap List.not_mem_nil
  | (key, value) :: entries, h, hgap => by
    rcases List.mem_append.mp hgap with hfirst | hrest
    · rcases List.mem_append.mp hfirst with hkey | hvalue
      · obtain ⟨g, hoccurs, hsame⟩ := occurs_of_mem_asks key h.1 hkey
        exact ⟨_, List.mem_cons_self, g, .inl hoccurs, hsame⟩
      · obtain ⟨g, hoccurs, hsame⟩ := occurs_of_mem_asks value h.2.1 hvalue
        exact ⟨_, List.mem_cons_self, g, .inr hoccurs, hsame⟩
    · obtain ⟨other, hmem, hother⟩ := occursEntry_of_mem_asks entries h.2.2 hrest
      exact ⟨other, List.mem_cons_of_mem _ hmem, hother⟩

end

end Occurs

section Adapt

variable {answered : Nat → Bool}

theorem Value.asks_eq_nil_of_leaf {v : Value} (h : v.leaf?.isSome) : v.asks answered = [] := by
  cases v with
  | array | map | tagged | gap | template => exact Bool.noConfusion h
  | _ => rfl

theorem Value.asks_gapless (g : Gapless) : g.toValue.asks answered = [] := by
  have hnodes : g.toValue.Every fun node ↦ node.NoTemplate ∧ ∀ gap, node ≠ .gap gap :=
    every_gapless (fun v hgap htemplate ↦ ⟨noTemplate_of_ne htemplate, hgap⟩) g
  refine List.eq_nil_iff_forall_not_mem.mpr fun gap hgap ↦ ?_
  obtain ⟨hole, hoccurs, -⟩ := occurs_of_mem_asks _
    (every_iff.mpr fun node hnode ↦ (hnodes.of_occurs hnode).1) hgap
  exact (hnodes.of_occurs hoccurs).2 hole rfl

theorem Value.asks_leaf (substitution : Option Substitution) (v : Value) :
    (Substitution.leaf substitution v).asks answered = v.asks answered := by
  obtain hsame | ⟨hleaf, g, hg⟩ := leaf_eq_or substitution v
  · rw [hsame]
  · rw [hg, asks_gapless, asks_eq_nil_of_leaf hleaf]

mutual

/-- A substitution leaves gaps where they are. -/
theorem Value.asks_adapt (substitution : Option Substitution) : ∀ v : Value,
    (v.adapt substitution).asks answered = v.asks answered
  | .array items => by rw [adapt, asks, asks, asksOfItems_adapt substitution items]
  | .map entries => by rw [adapt, asks, asks, asksOfEntries_adapt substitution entries]
  | .tagged _ content => by rw [adapt, asks, asks, asks_adapt substitution content]
  | .template ⟨chunks, tail, inner⟩ => by
    rw [adapt, Template.adapt, asks, asks, asksOfChunks_adapt inner chunks]
  | .undefined | .null | .bool _ | .integer _ | .float _ | .octets _ | .text _ | .gap _
  | .encoded _ => asks_leaf substitution _

theorem Value.asksOfItems_adapt (substitution : Option Substitution) : ∀ items : List Value,
    Value.asksOfItems answered (Value.adaptItems substitution items) =
      Value.asksOfItems answered items
  | [] => rfl
  | item :: items => by
    rw [adaptItems, asksOfItems, asksOfItems, asks_adapt substitution item,
      asksOfItems_adapt substitution items]

theorem Value.asksOfEntries_adapt (substitution : Option Substitution) :
    ∀ entries : List (Value × Value),
      Value.asksOfEntries answered (Value.adaptEntries substitution entries) =
        Value.asksOfEntries answered entries
  | [] => rfl
  | (key, value) :: entries => by
    rw [adaptEntries, asksOfEntries, asksOfEntries, asks_adapt substitution key,
      asks_adapt substitution value, asksOfEntries_adapt substitution entries]

theorem Value.asksOfChunks_adapt (substitution : Option Substitution) :
    ∀ chunks : List (Octets × Gap),
      Value.asksOfChunks answered (Template.adaptChunks substitution chunks) =
        Value.asksOfChunks answered chunks
  | [] => rfl
  | (_, ⟨_, fallback⟩) :: chunks => by
    rw [Template.adaptChunks, asksOfChunks, asksOfChunks,
      asksOfFallback_adapt substitution fallback, asksOfChunks_adapt substitution chunks]

theorem Value.asksOfFallback_adapt (substitution : Option Substitution) :
    ∀ fallback : Option Value,
      Value.asksOfFallback answered (Value.adaptFallback substitution fallback) =
        Value.asksOfFallback answered fallback
  | none => rfl
  | some value => asks_adapt substitution value

end

end Adapt

/-! ### Writing the same pieces with other fills -/

namespace Encode

/-- Both kinds of hole become the same under a gap, and are filled if the gap is `answered`. -/
structure SameFor (answered : Nat → Bool) (fills others : Fills)
    (fill other : Fills → Option Substitution → Value → Except WireError Draft) (gap : Nat) :
    Prop where
  plain : ∀ substitution, (fills.plain? gap).map (fill (fills.insidePlain gap) substitution) =
    (others.plain? gap).map (other (others.insidePlain gap) substitution)
  templated : ∀ substitution,
    (fills.templated? gap).map (fill (fills.insideTemplated gap) substitution) =
      (others.templated? gap).map (other (others.insideTemplated gap) substitution)
  answered : (fills.templated? gap).isSome = answered gap

section Congr

variable {mode : Mode} {answered : Nat → Bool} {fills others : Fills}
  {fill other : Fills → Option Substitution → Value → Except WireError Draft}

theorem expandAll_cons_congr {piece : Piece} {pieces : List Piece}
    (hfirst : expandPiece mode fills fill piece = expandPiece mode others other piece)
    (hrest : expandAll mode fills fill pieces = expandAll mode others other pieces) :
    expandAll mode fills fill (piece :: pieces) =
      expandAll mode others other (piece :: pieces) := by
  rw [expandAll, expandAll, hfirst, hrest]

theorem expandAll_append_congr {first second : List Piece}
    (hfirst : expandAll mode fills fill first = expandAll mode others other first)
    (hsecond : expandAll mode fills fill second = expandAll mode others other second) :
    expandAll mode fills fill (first ++ second) =
      expandAll mode others other (first ++ second) := by
  rw [expandAll_append, expandAll_append, hfirst, hsecond]

/-- An integer is no hole. -/
theorem expandPiece_integer (n : Int) :
    expandPiece mode fills fill (integer n) = expandPiece mode others other (integer n) := by
  cases n with
  | ofNat n =>
    simp only [integer]
    split <;> rfl
  | negSucc n =>
    simp only [integer]
    split <;> rfl

theorem SameFor.expandPlain {gap : Gap} (h : SameFor answered fills others fill other gap.id)
    (substitution : Option Substitution) :
    expandPiece mode fills fill (.plain gap substitution) =
      expandPiece mode others other (.plain gap substitution) := by
  have hsame := h.plain substitution
  simp only [expandPiece]
  cases hfill : fills.plain? gap.id <;> cases hother : others.plain? gap.id <;>
    simp_all

/-- A templated hole becomes the same if its fallback does, wherever that is needed. -/
theorem SameFor.expandTemplated {gap : Gap} {fallback : Option (List Piece)}
    (h : SameFor answered fills others fill other gap.id) (substitution : Option Substitution)
    (hfallback : answered gap.id = false →
      expandFallback mode fills fill gap fallback = expandFallback mode others other gap fallback) :
    expandPiece mode fills fill (.templated gap substitution fallback) =
      expandPiece mode others other (.templated gap substitution fallback) := by
  have hsame := h.templated substitution
  have hanswered := h.answered
  simp only [expandPiece]
  cases hfill : fills.templated? gap.id <;> cases hother : others.templated? gap.id <;>
    simp_all

mutual

/-- Pieces are written the same if every gap that their value asks for becomes the same. -/
theorem expandAll_pieces_congr (substitution : Option Substitution) : ∀ v : Value,
    (∀ gap ∈ v.asks answered, SameFor answered fills others fill other gap) →
      expandAll mode fills fill (pieces substitution v) =
        expandAll mode others other (pieces substitution v)
  | .array items, h =>
    expandAll_cons_congr rfl (expandAll_piecesOfItems_congr substitution items h)
  | .map entries, h =>
    expandAll_cons_congr rfl (expandAll_piecesOfEntries_congr substitution entries h)
  | .tagged _ content, h =>
    expandAll_cons_congr rfl (expandAll_pieces_congr substitution content h)
  | .gap g, h =>
    expandAll_cons_congr ((h g.id List.mem_cons_self).expandPlain substitution) rfl
  | .template ⟨chunks, _, inner⟩, h =>
    expandAll_append_congr (expandAll_piecesOfChunks_congr inner chunks h) rfl
  | .integer n, _ => expandAll_cons_congr (expandPiece_integer n) rfl
  | .undefined, _ | .null, _ | .bool _, _ | .float _, _ | .octets _, _ | .text _, _
  | .encoded _, _ => rfl

theorem expandAll_piecesOfItems_congr (substitution : Option Substitution) :
    ∀ items : List Value,
      (∀ gap ∈ Value.asksOfItems answered items,
        SameFor answered fills others fill other gap) →
      expandAll mode fills fill (piecesOfItems substitution items) =
        expandAll mode others other (piecesOfItems substitution items)
  | [], _ => rfl
  | item :: items, h =>
    expandAll_append_congr
      (expandAll_pieces_congr substitution item fun gap hgap ↦ h gap (List.mem_append_left _ hgap))
      (expandAll_piecesOfItems_congr substitution items fun gap hgap ↦
        h gap (List.mem_append_right _ hgap))

theorem expandAll_piecesOfEntries_congr (substitution : Option Substitution) :
    ∀ entries : List (Value × Value),
      (∀ gap ∈ Value.asksOfEntries answered entries,
        SameFor answered fills others fill other gap) →
      expandAll mode fills fill (piecesOfEntries substitution entries) =
        expandAll mode others other (piecesOfEntries substitution entries)
  | [], _ => rfl
  | (key, value) :: entries, h =>
    expandAll_append_congr
      (expandAll_append_congr
        (expandAll_pieces_congr substitution key fun gap hgap ↦
          h gap (List.mem_append_left _ (List.mem_append_left _ hgap)))
        (expandAll_pieces_congr substitution value fun gap hgap ↦
          h gap (List.mem_append_left _ (List.mem_append_right _ hgap))))
      (expandAll_piecesOfEntries_congr substitution entries fun gap hgap ↦
        h gap (List.mem_append_right _ hgap))

theorem expandAll_piecesOfChunks_congr (substitution : Option Substitution) :
    ∀ chunks : List (Octets × Gap),
      (∀ gap ∈ Value.asksOfChunks answered chunks,
        SameFor answered fills others fill other gap) →
      expandAll mode fills fill (piecesOfChunks substitution chunks) =
        expandAll mode others other (piecesOfChunks substitution chunks)
  | [], _ => rfl
  | (_, ⟨id, fallback⟩) :: chunks, h => by
    simp only [Value.asksOfChunks] at h
    have hgap := h id (List.mem_append_left _ List.mem_cons_self)
    have hfallback (hanswered : answered id = false) :
        expandFallback mode fills fill ⟨id, fallback⟩ (piecesOfFallback substitution fallback) =
          expandFallback mode others other ⟨id, fallback⟩
            (piecesOfFallback substitution fallback) := by
      refine expandFallback_congr substitution ⟨id, fallback⟩ fallback fun gap hgap ↦ h gap ?_
      rw [if_neg (by simp [hanswered])]
      exact List.mem_append_left _ (List.mem_cons_of_mem _ hgap)
    refine expandAll_cons_congr rfl (expandAll_cons_congr (hgap.expandTemplated _ hfallback) ?_)
    exact expandAll_piecesOfChunks_congr substitution chunks fun gap hgap ↦
      h gap (List.mem_append_right _ hgap)

theorem expandFallback_congr (substitution : Option Substitution) (gap : Gap) :
    ∀ fallback : Option Value,
      (∀ gap ∈ Value.asksOfFallback answered fallback,
        SameFor answered fills others fill other gap) →
      expandFallback mode fills fill gap (piecesOfFallback substitution fallback) =
        expandFallback mode others other gap (piecesOfFallback substitution fallback)
  | none, _ => rfl
  | some value, h => expandAll_pieces_congr substitution value h

end

end Congr

end Encode

/-! ### Fills that do not lead back -/

section Leads

variable {fills : List Fill}

/-- The gaps that are filled. -/
def answeredBy (fills : List Fill) (gap : Nat) : Bool :=
  fills.any (·.gap == gap)

/-- The fill of the first gap asks for the second. -/
def Leads (fills : List Fill) (gap next : Nat) : Prop :=
  ∃ fill ∈ fills, fill.gap = gap ∧ next ∈ fill.value.asks (answeredBy fills)

/-- No fill leads back to its own gap, be it through the fills of other gaps. -/
def Acyclic (fills : List Fill) : Prop :=
  ∀ gap, ¬ Relation.TransGen (Leads fills) gap gap

/-- Fills that ask for later gaps only do not lead back. -/
theorem acyclic_of_lt (h : ∀ gap next, Leads fills gap next → gap < next) : Acyclic fills := by
  intro gap hpath
  have hlater {next : Nat} (hpath : Relation.TransGen (Leads fills) gap next) : gap < next := by
    induction hpath with
    | single hleads => exact h _ _ hleads
    | tail _ hleads ih => exact Nat.lt_trans ih (h _ _ hleads)
  exact Nat.lt_irrefl gap (hlater hpath)

/-- Where no fill leads back, what holds of a gap as soon as it holds of the gaps that its fill asks
for holds of every gap. -/
theorem Acyclic.induction (hacyclic : Acyclic fills) {p : Nat → Prop}
    (step : ∀ gap, (∀ next, Leads fills gap next → p next) → p gap) (gap : Nat) : p gap := by
  let later (next gap : Nat) : Prop := Relation.TransGen (Leads fills) gap next
  have hstrict : IsStrictOrder Nat later :=
    { irrefl := hacyclic, trans := fun _ _ _ hfirst hsecond ↦ hsecond.trans hfirst }
  have hunfilled (gap : Nat) (hgap : gap ∉ fills.map Fill.gap) : p gap := by
    refine step gap fun next hleads ↦ absurd ?_ hgap
    obtain ⟨fill, hmem, rfl, -⟩ := hleads
    exact List.mem_map_of_mem hmem
  -- Only finitely many gaps are filled, so no path through them goes on for ever.
  have hfinite : {gap | gap ∈ fills.map Fill.gap}.WellFoundedOn later :=
    (List.finite_toSet _).wellFoundedOn
  by_cases hgap : gap ∈ fills.map Fill.gap
  · refine hfinite.induction hgap fun gap _ ih ↦ step gap fun next hleads ↦ ?_
    by_cases hnext : next ∈ fills.map Fill.gap
    · exact ih next hnext (.single hleads)
    · exact hunfilled next hnext
  · exact hunfilled gap hgap

/-- Fills that ask for nothing lead nowhere. -/
theorem Acyclic.append {late : List Fill} (hacyclic : Acyclic fills)
    (htemplates : ∀ fill ∈ fills, fill.value.Every Value.NoTemplate)
    (hlate : ∀ fill ∈ late, ∀ answered, fill.value.asks answered = []) :
    Acyclic (fills ++ late) := by
  intro gap hpath
  refine hacyclic gap (Relation.TransGen.mono ?_ gap gap hpath)
  rintro gap next ⟨fill, hmem, hsame, hnext⟩
  rcases List.mem_append.mp hmem with hearly | hmem
  · obtain ⟨g, hoccurs, rfl⟩ := fill.value.occurs_of_mem_asks (htemplates fill hearly) hnext
    exact ⟨fill, hearly, hsame, Value.mem_asks_of_occurs hoccurs⟩
  · rw [hlate fill hmem] at hnext
    exact absurd hnext List.not_mem_nil

/-- The gaps that some others lead to, and they themselves. -/
def Reached (fills : List Fill) (gaps : List Nat) (gap : Nat) : Prop :=
  ∃ start ∈ gaps, Relation.ReflTransGen (Leads fills) start gap

/-- The fill that a list has for a gap. -/
def fillFor? (fills : List Fill) (gap : Nat) : Option Value :=
  (fills.find? (·.gap == gap)).map Fill.value

theorem isSome_fillFor? (gap : Nat) : (fillFor? fills gap).isSome = answeredBy fills gap := by
  rw [fillFor?, Option.isSome_map, answeredBy, Bool.eq_iff_iff, List.find?_isSome, List.any_eq_true]

theorem exists_of_fillFor? {gap : Nat} {value : Value} (h : fillFor? fills gap = some value) :
    ∃ fill ∈ fills, fill.gap = gap ∧ fill.value = value := by
  obtain ⟨fill, hfind, rfl⟩ := Option.map_eq_some_iff.mp h
  exact ⟨fill, List.mem_of_find?_eq_some hfind,
    by simpa using List.find?_some hfind, rfl⟩

theorem fillFor?_append (others : List Fill) (gap : Nat) :
    fillFor? (fills ++ others) gap = (fillFor? fills gap).or (fillFor? others gap) := by
  rw [fillFor?, List.find?_append, Option.map_or]
  rfl

theorem fillFor?_filter {gap other : Nat} (h : other ≠ gap) :
    fillFor? (fills.filter (·.gap != gap)) other = fillFor? fills other := by
  have hsame : (fun fill : Fill ↦ decide ((fill.gap != gap) = true ∧ (fill.gap == other) = true)) =
      fun fill ↦ fill.gap == other := by
    funext fill
    by_cases hother : fill.gap = other
    · simp [hother, h]
    · simp [hother]
  rw [fillFor?, List.find?_filter, hsame, fillFor?]

/-- Where the gaps are distinct, the first fill is the last one. -/
theorem fillFor?_reverse (hnodup : (fills.map Fill.gap).Nodup) (gap : Nat) :
    fillFor? fills.reverse gap = fillFor? fills gap := by
  induction fills with
  | nil => rfl
  | cons fill rest ih =>
    rw [List.map_cons, List.nodup_cons] at hnodup
    rw [List.reverse_cons]
    simp only [fillFor?, List.find?_append, List.find?_cons] at ih ⊢
    by_cases hsame : fill.gap = gap
    · have hnone : rest.reverse.find? (·.gap == gap) = none := by
        rw [List.find?_eq_none]
        intro other hother heq
        refine hnodup.1 (List.mem_map.mpr ⟨other, List.mem_reverse.mp hother, ?_⟩)
        rw [hsame]
        simpa using heq
      simp [hsame, hnone]
    · have hbeq : (fill.gap == gap) = false := by simpa using hsame
      simp only [hbeq, List.find?_nil, Option.or_none]
      exact ih hnodup.2

end Leads

namespace Fills

/-- What is left of some fills has the same for the gaps that are reached from others. -/
structure Covers (fills : List Fill) (left : Fills) (gaps : List Nat) : Prop where
  plain : ∀ gap, Reached fills gaps gap → left.plain? gap = fillFor? fills gap
  templated : ∀ gap, Reached fills gaps gap → left.templated? gap = fillFor? fills gap

section Covers

variable {fills : List Fill} {left : Fills} {gaps : List Nat} {gap : Nat} {value : Value}

theorem covers_ofList (hnodup : (fills.map Fill.gap).Nodup) (gaps : List Nat) :
    Covers fills (ofList fills) gaps where
  plain _ _ := fillFor?_reverse hnodup _
  templated _ _ := rfl

/-- What is reached from the fill of a gap is reached from the gap, and is not the gap. -/
theorem reached_inside (hacyclic : Acyclic fills) (hgap : gap ∈ gaps)
    (hfill : fillFor? fills gap = some value) {other : Nat}
    (hother : Reached fills (value.asks (answeredBy fills)) other) :
    Reached fills gaps other ∧ other ≠ gap := by
  obtain ⟨fill, hmem, hsame, rfl⟩ := exists_of_fillFor? hfill
  obtain ⟨start, hstart, hpath⟩ := hother
  have hleads : Leads fills gap start := ⟨fill, hmem, hsame, hstart⟩
  refine ⟨⟨gap, hgap, .head hleads hpath⟩, ?_⟩
  rintro rfl
  exact hacyclic other (.head' hleads hpath)

theorem Covers.insidePlain (h : Covers fills left gaps) (hacyclic : Acyclic fills)
    (hgap : gap ∈ gaps) (hfill : fillFor? fills gap = some value) :
    Covers fills (left.insidePlain gap) (value.asks (answeredBy fills)) where
  plain other hother := by
    obtain ⟨hreached, hne⟩ := reached_inside hacyclic hgap hfill hother
    rw [← h.plain other hreached]
    show fillFor? (left.plain.filter (·.gap != gap)).reverse other = _
    rw [← List.filter_reverse]
    exact fillFor?_filter hne
  templated other hother := h.templated other (reached_inside hacyclic hgap hfill hother).1

theorem Covers.insideTemplated (h : Covers fills left gaps) (hacyclic : Acyclic fills)
    (hgap : gap ∈ gaps) (hfill : fillFor? fills gap = some value) :
    Covers fills (left.insideTemplated gap) (value.asks (answeredBy fills)) where
  plain other hother := h.plain other (reached_inside hacyclic hgap hfill hother).1
  templated other hother := by
    obtain ⟨hreached, hne⟩ := reached_inside hacyclic hgap hfill hother
    rw [← h.templated other hreached]
    exact fillFor?_filter hne

/-- A fill that is used is withheld inside. -/
theorem length_filter_lt {left : List Fill} (h : (left.find? (·.gap == gap)).isSome) :
    (left.filter (·.gap != gap)).length < left.length := by
  obtain ⟨fill, hmem, hsame⟩ := List.find?_isSome.mp h
  refine List.length_filter_lt_length_iff_exists.mpr ⟨fill, hmem, ?_⟩
  simpa using hsame

theorem count_insidePlain_lt (h : (left.plain? gap).isSome) :
    (left.insidePlain gap).count < left.count := by
  simp only [plain?, Option.isSome_map, List.find?_isSome, List.mem_reverse] at h
  have hfewer := length_filter_lt (List.find?_isSome.mpr h)
  simp only [count, insidePlain]
  omega

theorem count_insideTemplated_lt (h : (left.templated? gap).isSome) :
    (left.insideTemplated gap).count < left.count := by
  simp only [templated?, Option.isSome_map] at h
  have hfewer := length_filter_lt h
  simp only [count, insideTemplated]
  omega

end Covers

end Fills

namespace Encode

/-- What writes the fills where at most `depth` of them can nest. -/
def fillWith (mode : Mode) : (depth : Nat) → Fills → Option Substitution → Value →
    Except WireError Draft
  | 0 => fun _ _ _ ↦ .ok .empty
  | depth + 1 => expand mode depth

theorem expand_eq (mode : Mode) (depth : Nat) (fills : Fills) (substitution : Option Substitution)
    (value : Value) : expand mode depth fills substitution value =
      expandAll mode fills (fillWith mode depth) (plan substitution value) := by
  cases depth <;> rfl

section Acyclic

variable {mode : Mode} {fills : List Fill} {left right : Fills} {gaps : List Nat} {gap : Nat}

/-- A look-up that both sides answer alike is filled alike, one level further in. -/
theorem map_fillWith_congr {depth other : Nat} {insideLeft insideRight : Fills}
    {answer answer' : Option Value} (hleft : answer = fillFor? fills gap)
    (hright : answer' = fillFor? fills gap)
    (hdepth : answer.isSome → insideLeft.count < depth)
    (hother : answer'.isSome → insideRight.count < other)
    (hsame : ∀ value, fillFor? fills gap = some value → ∀ level deep substitution,
      insideLeft.count ≤ level → level < depth → insideRight.count ≤ deep →
        expand mode level insideLeft substitution value =
          expand mode deep insideRight substitution value)
    (substitution : Option Substitution) :
    answer.map (fillWith mode depth insideLeft substitution) =
      answer'.map (fillWith mode other insideRight substitution) := by
  subst hleft hright
  cases hfill : fillFor? fills gap with
  | none => rfl
  | some value =>
    have hsome : (fillFor? fills gap).isSome := by rw [hfill]; rfl
    have hdepth := hdepth hsome
    have hother := hother hsome
    obtain ⟨level, rfl⟩ := Nat.exists_eq_succ_of_ne_zero (Nat.ne_of_gt (Nat.zero_lt_of_lt hdepth))
    obtain ⟨deep, rfl⟩ := Nat.exists_eq_succ_of_ne_zero (Nat.ne_of_gt (Nat.zero_lt_of_lt hother))
    exact congrArg some (hsame value hfill level deep substitution (Nat.le_of_lt_succ hdepth)
      (Nat.lt_succ_self level) (Nat.le_of_lt_succ hother))

/-- Fills that cover what a value reaches write it the same, however deep the writer may go beyond
the number of fills. -/
theorem expand_congr (hacyclic : Acyclic fills) (depth : Nat) :
    ∀ (other : Nat) (left right : Fills) (substitution : Option Substitution) (value : Value),
      left.count ≤ depth → right.count ≤ other →
      Fills.Covers fills left (value.asks (answeredBy fills)) →
      Fills.Covers fills right (value.asks (answeredBy fills)) →
        expand mode depth left substitution value = expand mode other right substitution value := by
  induction depth using Nat.strongRecOn with
  | ind depth ih =>
    intro other left right substitution value hdepth hother hleft hright
    rw [expand_eq, expand_eq]
    refine @expandAll_pieces_congr mode (answeredBy fills) left right _ _ substitution _
      fun gap hgap ↦ ?_
    rw [Value.asks_adapt] at hgap
    have hreached : Reached fills (value.asks (answeredBy fills)) gap := ⟨gap, hgap, .refl⟩
    constructor
    · refine map_fillWith_congr (hleft.plain gap hreached) (hright.plain gap hreached)
        (fun h ↦ Nat.lt_of_lt_of_le (Fills.count_insidePlain_lt h) hdepth)
        (fun h ↦ Nat.lt_of_lt_of_le (Fills.count_insidePlain_lt h) hother) ?_
      intro value hfill level deep substitution hlevel hlt hdeep
      exact ih level hlt deep _ _ substitution value hlevel hdeep
        (hleft.insidePlain hacyclic hgap hfill) (hright.insidePlain hacyclic hgap hfill)
    · refine map_fillWith_congr (hleft.templated gap hreached) (hright.templated gap hreached)
        (fun h ↦ Nat.lt_of_lt_of_le (Fills.count_insideTemplated_lt h) hdepth)
        (fun h ↦ Nat.lt_of_lt_of_le (Fills.count_insideTemplated_lt h) hother) ?_
      intro value hfill level deep substitution hlevel hlt hdeep
      exact ih level hlt deep _ _ substitution value hlevel hdeep
        (hleft.insideTemplated hacyclic hgap hfill) (hright.insideTemplated hacyclic hgap hfill)
    · rw [hleft.templated gap hreached, isSome_fillFor?]

/-- The fill of a gap is written as it would be outside of the gap. -/
theorem fillWith_eq_expand (hnodup : (fills.map Fill.gap).Nodup) (hacyclic : Acyclic fills)
    {value : Value} {inside : Fills} (hfewer : inside.count < (Fills.ofList fills).count)
    (hinside : Fills.Covers fills inside (value.asks (answeredBy fills)))
    (substitution : Option Substitution) :
    fillWith mode (Fills.ofList fills).count inside substitution value =
      expand mode (Fills.ofList fills).count (.ofList fills) substitution value := by
  obtain ⟨depth, hdepth⟩ :=
    Nat.exists_eq_succ_of_ne_zero (Nat.ne_of_gt (Nat.zero_lt_of_lt hfewer))
  rw [hdepth] at hfewer ⊢
  exact expand_congr hacyclic depth _ _ _ substitution value (Nat.le_of_lt_succ hfewer) hdepth.le
    hinside (Fills.covers_ofList hnodup _)

theorem fill_plain_eq_expand (hnodup : (fills.map Fill.gap).Nodup) (hacyclic : Acyclic fills)
    {value : Value} (hfill : fillFor? fills gap = some value)
    (substitution : Option Substitution) :
    fillWith mode (Fills.ofList fills).count ((Fills.ofList fills).insidePlain gap) substitution
        value =
      expand mode (Fills.ofList fills).count (.ofList fills) substitution value := by
  have hplain : (Fills.ofList fills).plain? gap = some value :=
    (fillFor?_reverse hnodup gap).trans hfill
  exact fillWith_eq_expand hnodup hacyclic
    (Fills.count_insidePlain_lt (Option.isSome_iff_exists.mpr ⟨value, hplain⟩))
    ((Fills.covers_ofList hnodup [gap]).insidePlain hacyclic List.mem_cons_self hfill) substitution

theorem fill_templated_eq_expand (hnodup : (fills.map Fill.gap).Nodup) (hacyclic : Acyclic fills)
    {value : Value} (hfill : fillFor? fills gap = some value)
    (substitution : Option Substitution) :
    fillWith mode (Fills.ofList fills).count ((Fills.ofList fills).insideTemplated gap)
        substitution value =
      expand mode (Fills.ofList fills).count (.ofList fills) substitution value :=
  fillWith_eq_expand hnodup hacyclic
    (Fills.count_insideTemplated_lt (Option.isSome_iff_exists.mpr ⟨value, hfill⟩))
    ((Fills.covers_ofList hnodup [gap]).insideTemplated hacyclic List.mem_cons_self hfill)
    substitution

end Acyclic

end Encode

end Wireline
