import Wireline.Proofs.Wire.Completeness

/-!
# What nests too deep is refused

The grammar sets no limit on nesting, and the reader has one. A sentence of the grammar that nests
deeper than the reader may go is refused for that reason and no other (`rejects_of_derives`): all
that stands before the place where the limit is reached is read, and the container that stands there
is not entered, whatever follows it.
-/

set_option autoImplicit false
set_option relaxedAutoImplicit false

namespace Wireline

namespace Grammar

open Decode

/-- Octets of a phrase that nests deeper than the reader may go are refused. -/
def Rejects (wire : Octets) : Phrase → Prop
  | .value v => ∀ (depth : Nat) (rest : Octets), depth < v.nesting 0 →
      item .plain depth (wire ++ rest) = .error (.tooDeep maxDepth)
  | .items vs => ∀ (depth : Nat) (rest : Octets), depth < Value.nestingOfItems 0 vs →
      items (item .plain depth) vs.length (wire ++ rest) = .error (.tooDeep maxDepth) ∧
      ∀ left, vs.length < left →
        itemRun (item .plain depth) left (wire ++ stop :: rest) = .error (.tooDeep maxDepth)
  | .entries es => ∀ (depth : Nat) (rest : Octets), depth < Value.nestingOfEntries 0 es →
      entries (item .plain depth) es.length (wire ++ rest) = .error (.tooDeep maxDepth) ∧
      ∀ left, es.length < left →
        entryRun (item .plain depth) left (wire ++ stop :: rest) = .error (.tooDeep maxDepth)

theorem valueOnly_of_error {item : Reader Item} {input : Octets} {error : WireError}
    (h : item input = .error error) : valueOnly item input = .error error := by
  simp only [valueOnly, h, bind, Except.bind]

/-- What a sentence that is not too deep is read as where nothing is replaced. -/
theorem item_of_derives {wire : Octets} {v : Value} (h : Derives wire (.value v)) {depth : Nat}
    (hdepth : v.nesting 0 ≤ depth) (rest : Octets) :
    item .plain depth (wire ++ rest) = .ok (.value v, rest) :=
  accepts_of_derives .plain h depth v rest hdepth (Hooks.fold_plain v)

section Rejects

theorem rejects_leaf {wire : Octets} {v : Value} (hnesting : v.nesting 0 = 0) :
    Rejects wire (.value v) := by
  intro depth rest hdepth
  rw [hnesting] at hdepth
  exact absurd hdepth (Nat.not_lt_zero depth)

/-- A container is refused if it may not be entered, or if its content is refused. -/
theorem rejects_container {major : Major} {info level : Nat} {tail : Octets} {v : Value}
    (hinfo : info < 32) (hnesting : v.nesting 0 = level + 1)
    (hclosed : ∀ rest, body .plain none major info (tail ++ rest) = .error (.tooDeep maxDepth))
    (hcontent : ∀ depth rest, depth < level →
      body .plain (some (item .plain depth)) major info (tail ++ rest) =
        .error (.tooDeep maxDepth)) :
    Rejects (Head.initial major info :: tail) (.value v) := by
  intro depth rest hdepth
  rw [hnesting] at hdepth
  have hbody : body .plain (inside .plain depth) major info (tail ++ rest) =
      .error (.tooDeep maxDepth) := by
    cases depth with
    | zero => exact hclosed rest
    | succ depth => exact hcontent depth rest (Nat.lt_of_succ_lt_succ hdepth)
  simp only [item_eq_node, node, List.cons_append, Head.readInitial_initial hinfo, bind,
    Except.bind, hbody]

theorem rejects_array {items : List Value} {wire : Octets} (ih : Rejects wire (.items items))
    {head : Octets} (hhead : HasHead .array head items.length) :
    Rejects (head ++ wire) (.value (.array items)) := by
  cases hhead with
  | @mk info _ octets hargument =>
    have hinfo := hargument.info_lt
    rw [List.cons_append]
    refine rejects_container (show info < 32 by omega) rfl (fun rest ↦ rfl)
      fun depth rest hdepth ↦ ?_
    simp only [body, descend, array, bind, Except.bind, List.append_assoc,
      if_neg hargument.ne_indefinite, readArgument_of_argument hargument, (ih depth rest hdepth).1]

theorem rejects_arrayRun {items : List Value} {wire : Octets} (ih : Rejects wire (.items items))
    (hcount : items.length ≤ wire.length) :
    Rejects (openEnded .array :: (wire ++ [stop])) (.value (.array items)) := by
  refine rejects_container (by decide) rfl (fun rest ↦ rfl) fun depth rest hdepth ↦ ?_
  have hrun := (ih depth rest hdepth).2 (wire ++ stop :: rest).length (by
    rw [List.length_append, List.length_cons]
    omega)
  simp only [body, descend, array, bind, Except.bind, List.append_assoc, if_true,
    List.cons_append, List.nil_append, hrun]

theorem rejects_map {entries : List (Value × Value)} {wire : Octets}
    (ih : Rejects wire (.entries entries)) {head : Octets}
    (hhead : HasHead .map head entries.length) :
    Rejects (head ++ wire) (.value (.map entries)) := by
  cases hhead with
  | @mk info _ octets hargument =>
    have hinfo := hargument.info_lt
    rw [List.cons_append]
    refine rejects_container (show info < 32 by omega) rfl (fun rest ↦ rfl)
      fun depth rest hdepth ↦ ?_
    simp only [body, descend, map, bind, Except.bind, List.append_assoc,
      if_neg hargument.ne_indefinite, readArgument_of_argument hargument, (ih depth rest hdepth).1]

theorem rejects_mapRun {entries : List (Value × Value)} {wire : Octets}
    (ih : Rejects wire (.entries entries)) (hcount : entries.length ≤ wire.length) :
    Rejects (openEnded .map :: (wire ++ [stop])) (.value (.map entries)) := by
  refine rejects_container (by decide) rfl (fun rest ↦ rfl) fun depth rest hdepth ↦ ?_
  have hrun := (ih depth rest hdepth).2 (wire ++ stop :: rest).length (by
    rw [List.length_append, List.length_cons]
    omega)
  simp only [body, descend, map, bind, Except.bind, List.append_assoc, if_true,
    List.cons_append, List.nil_append, hrun]

/-- The number of a tag is read before its content is entered. -/
theorem rejects_tagged {tag : UInt64} {content : Value} {wire : Octets}
    (ih : Rejects wire (.value content)) {head : Octets}
    (hhead : HasHead .tag head tag.toNat) :
    Rejects (head ++ wire) (.value (.tagged tag content)) := by
  cases hhead with
  | @mk info _ octets hargument =>
    have hinfo := hargument.info_lt
    rw [List.cons_append]
    refine rejects_container (show info < 32 by omega) rfl (fun rest ↦ ?_)
      fun depth rest hdepth ↦ ?_
    · simp only [body, descend, bind, Except.bind, List.append_assoc,
        readArgument_of_argument hargument]
    · simp only [body, descend, bind, Except.bind, List.append_assoc,
        readArgument_of_argument hargument, valueOnly_of_error (ih depth rest hdepth)]

theorem rejects_moreItems {first : Value} {others : List Value} {wire rest : Octets}
    (hfirst : Derives wire (.value first)) (ihfirst : Rejects wire (.value first))
    (ihothers : Rejects rest (.items others)) :
    Rejects (wire ++ rest) (.items (first :: others)) := by
  intro depth later hdepth
  -- the first item is too deep, or it is read and the others are
  rcases Nat.lt_or_ge depth (first.nesting 0) with hdeep | hread
  · constructor
    · have hrefused := valueOnly_of_error (ihfirst depth (rest ++ later) hdeep)
      simp only [List.append_assoc, List.length_cons, items, bind, Except.bind, hrefused]
    · intro left hleft
      obtain ⟨left, rfl⟩ := Nat.exists_eq_succ_of_ne_zero (Nat.ne_of_gt (Nat.zero_lt_of_lt hleft))
      have hrefused := ihfirst depth (rest ++ stop :: later) hdeep
      simp only [List.append_assoc, itemRun, bind, Except.bind, hrefused]
  · have hothers : depth < Value.nestingOfItems 0 others := by
      simp only [Value.nestingOfItems] at hdepth
      omega
    obtain ⟨hitems, hrun⟩ := ihothers depth later hothers
    constructor
    · have hgone := valueOnly_of_value (item_of_derives hfirst hread (rest ++ later))
      simp only [List.append_assoc, List.length_cons, items, bind, Except.bind, hgone, hitems]
    · intro left hleft
      obtain ⟨left, rfl⟩ := Nat.exists_eq_succ_of_ne_zero (Nat.ne_of_gt (Nat.zero_lt_of_lt hleft))
      have hgone := item_of_derives hfirst hread (rest ++ stop :: later)
      simp only [List.append_assoc, itemRun, bind, Except.bind, hgone,
        hrun left (Nat.lt_of_succ_lt_succ hleft)]

theorem rejects_moreEntries {key value : Value} {others : List (Value × Value)}
    {wire second rest : Octets} (hkey : Derives wire (.value key))
    (hvalue : Derives second (.value value)) (ihkey : Rejects wire (.value key))
    (ihvalue : Rejects second (.value value)) (ihothers : Rejects rest (.entries others)) :
    Rejects (wire ++ second ++ rest) (.entries ((key, value) :: others)) := by
  intro depth later hdepth
  have hstart (left : Nat) (hleft : ((key, value) :: others).length < left) :
      ∃ fewer, left = fewer + 1 ∧ others.length < fewer := by
    rw [List.length_cons] at hleft
    exact ⟨left - 1, by omega, by omega⟩
  rcases Nat.lt_or_ge depth (key.nesting 0) with hdeep | hreadKey
  · constructor
    · have hrefused := valueOnly_of_error (ihkey depth (second ++ (rest ++ later)) hdeep)
      simp only [List.append_assoc, List.length_cons, entries, bind, Except.bind, hrefused]
    · intro left hleft
      obtain ⟨left, rfl, -⟩ := hstart left hleft
      have hrefused := ihkey depth (second ++ (rest ++ stop :: later)) hdeep
      simp only [List.append_assoc, entryRun, bind, Except.bind, hrefused]
  have hgoneKey (after : Octets) := item_of_derives hkey hreadKey after
  rcases Nat.lt_or_ge depth (value.nesting 0) with hdeep | hreadValue
  · constructor
    · have hrefused := valueOnly_of_error (ihvalue depth (rest ++ later) hdeep)
      simp only [List.append_assoc, List.length_cons, entries, bind, Except.bind,
        valueOnly_of_value (hgoneKey _), hrefused]
    · intro left hleft
      obtain ⟨left, rfl, -⟩ := hstart left hleft
      have hrefused := valueOnly_of_error (ihvalue depth (rest ++ stop :: later) hdeep)
      simp only [List.append_assoc, entryRun, bind, Except.bind, hgoneKey, hrefused]
  · have hgoneValue (after : Octets) :=
      valueOnly_of_value (item_of_derives hvalue hreadValue after)
    have hothers : depth < Value.nestingOfEntries 0 others := by
      simp only [Value.nestingOfEntries] at hdepth
      omega
    obtain ⟨hentries, hrun⟩ := ihothers depth later hothers
    constructor
    · simp only [List.append_assoc, List.length_cons, entries, bind, Except.bind,
        valueOnly_of_value (hgoneKey _), hgoneValue, hentries]
    · intro left hleft
      obtain ⟨left, rfl, hfewer⟩ := hstart left hleft
      simp only [List.append_assoc, entryRun, bind, Except.bind, hgoneKey, hgoneValue,
        hrun left hfewer]

/-- Octets that stand for a phrase which nests too deep are refused for that. -/
theorem rejects_of_derives {wire : Octets} {phrase : Phrase} (h : Derives wire phrase) :
    Rejects wire phrase := by
  induction h with
  | array hhead _ ih => exact rejects_array ih hhead
  | arrayRun hitems ih => exact rejects_arrayRun ih hitems.count_le
  | map hhead _ ih => exact rejects_map ih hhead
  | mapRun hentries ih => exact rejects_mapRun ih hentries.count_le
  | tagged hhead _ ih => exact rejects_tagged ih hhead
  | noItems | noEntries => exact fun depth _ hdepth ↦ absurd hdepth (Nat.not_lt_zero depth)
  | moreItems hitem _ ihitem ihitems => exact rejects_moreItems hitem ihitem ihitems
  | moreEntries hkey hvalue _ ihkey ihvalue ihentries =>
    exact rejects_moreEntries hkey hvalue ihkey ihvalue ihentries
  | _ => exact rejects_leaf rfl

end Rejects

theorem decodeAll_of_tooDeep {wire : Octets} {v : Value} (h : Derives wire (.value v))
    (hnesting : maxDepth < v.nesting 0) : decodeAll wire = .error (.tooDeep maxDepth) := by
  have hrefused := valueOnly_of_error (rejects_of_derives h maxDepth [] hnesting)
  rw [List.append_nil] at hrefused
  simp only [decodeAll, Decode.value, hrefused, bind, Except.bind]

end Grammar

end Wireline
