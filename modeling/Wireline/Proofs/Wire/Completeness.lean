import Wireline.Proofs.Wire.Heads

/-!
# What the grammar derives is read

Hooks act on a value from the inside out, and `Hooks.fold` says so without regard to octets. The
reader does both at once: if octets stand for a value of the grammar that does not nest too deep,
and the hooks make something of it, then this is what is read, and the octets after it are left
(`accepts_of_derives`).
-/

set_option autoImplicit false
set_option relaxedAutoImplicit false

namespace Wireline

/-! ### Hooks on a whole value -/

namespace Hooks

mutual

/-- What hooks make of a value, all that is inside it first. -/
def fold (hooks : Hooks) : Value → Except WireError Value
  | .array items => do
    let items ← hooks.foldItems items
    .ok (hooks.finish (.array items))
  | .map entries => do
    let entries ← hooks.foldEntries entries
    .ok (hooks.finish (.map entries))
  | .tagged tag content => do
    let content ← hooks.fold content
    let value ← Decode.underTag hooks tag content
    .ok (hooks.finish value)
  | v => .ok (hooks.finish v)

def foldItems (hooks : Hooks) : List Value → Except WireError (List Value)
  | [] => .ok []
  | item :: items => do
    let first ← hooks.fold item
    let others ← hooks.foldItems items
    .ok (first :: others)

def foldEntries (hooks : Hooks) : List (Value × Value) → Except WireError (List (Value × Value))
  | [] => .ok []
  | (key, value) :: entries => do
    let key ← hooks.fold key
    let value ← hooks.fold value
    let others ← hooks.foldEntries entries
    .ok ((key, value) :: others)

end

section Fold

variable {hooks : Hooks}

mutual

/-- Hooks that leave tags alone rebuild the value. -/
theorem fold_eq_rebuild (h : ∀ tag, hooks.onTag tag = none) : ∀ v : Value,
    hooks.fold v = .ok (v.rebuild hooks.finish)
  | .array items => by
    rw [fold, foldItems_eq_rebuildItems h items]
    rfl
  | .map entries => by
    rw [fold, foldEntries_eq_rebuildEntries h entries]
    rfl
  | .tagged tag content => by
    rw [fold, fold_eq_rebuild h content]
    simp only [bind, Except.bind, Decode.underTag, h, Value.rebuild]
  | .undefined | .null | .bool _ | .integer _ | .float _ | .octets _ | .text _ | .gap _
  | .template _ | .encoded _ => rfl

theorem foldItems_eq_rebuildItems (h : ∀ tag, hooks.onTag tag = none) : ∀ items : List Value,
    hooks.foldItems items = .ok (Value.rebuildItems hooks.finish items)
  | [] => rfl
  | item :: items => by
    rw [foldItems, fold_eq_rebuild h item, foldItems_eq_rebuildItems h items]
    rfl

theorem foldEntries_eq_rebuildEntries (h : ∀ tag, hooks.onTag tag = none) :
    ∀ entries : List (Value × Value),
      hooks.foldEntries entries = .ok (Value.rebuildEntries hooks.finish entries)
  | [] => rfl
  | (key, value) :: entries => by
    rw [foldEntries, fold_eq_rebuild h key, fold_eq_rebuild h value,
      foldEntries_eq_rebuildEntries h entries]
    rfl

end

/-- Without hooks a value stays as it is. -/
theorem fold_plain (v : Value) : Hooks.plain.fold v = .ok v := by
  have hevery : v.Every fun _ ↦ True := .of_forall (fun _ ↦ trivial) v
  have hkept : v.rebuild Hooks.plain.finish = v := Value.rebuild_eq_self (fun _ _ ↦ rfl) v hevery
  rw [fold_eq_rebuild (fun _ ↦ rfl), hkept]

end Fold

end Hooks

/-! ### Items -/

namespace Decode

/-- The reader of what is inside an item that may hold others to a given depth. -/
def inside (hooks : Hooks) : (depth : Nat) → Option (Reader Item)
  | 0 => none
  | depth + 1 => some (item hooks depth)

theorem item_eq_node (hooks : Hooks) (depth : Nat) :
    item hooks depth = node hooks (inside hooks depth) := by
  cases depth <;> rfl

/-- What is read of an item once its body is read. -/
theorem item_of_body {hooks : Hooks} {depth info : Nat} {major : Major} {input rest : Octets}
    {v : Value} (hinfo : info < 32)
    (hbody : body hooks (inside hooks depth) major info input = .ok (.value v, rest)) :
    item hooks depth (Head.initial major info :: input) = .ok (.value (hooks.finish v), rest) := by
  simp only [item_eq_node, node, Head.readInitial_initial hinfo, bind, Except.bind, hbody]

theorem valueOnly_of_value {item : Reader Item} {input rest : Octets} {v : Value}
    (h : item input = .ok (.value v, rest)) : valueOnly item input = .ok (v, rest) := by
  simp only [valueOnly, h, bind, Except.bind]

end Decode

namespace Grammar

open Decode

/-- The octets of a phrase are read in full and no others, as what the hooks make of the phrase. -/
def Accepts (hooks : Hooks) (wire : Octets) : Phrase → Prop
  | .value v => ∀ (depth : Nat) (w : Value) (rest : Octets), v.nesting 0 ≤ depth →
      hooks.fold v = .ok w → item hooks depth (wire ++ rest) = .ok (.value w, rest)
  | .items vs => ∀ (depth : Nat) (ws : List Value) (rest : Octets),
      Value.nestingOfItems 0 vs ≤ depth → hooks.foldItems vs = .ok ws →
      items (item hooks depth) vs.length (wire ++ rest) = .ok (ws, rest) ∧
      ∀ left, vs.length < left →
        itemRun (item hooks depth) left (wire ++ stop :: rest) = .ok (ws, rest)
  | .entries es => ∀ (depth : Nat) (ws : List (Value × Value)) (rest : Octets),
      Value.nestingOfEntries 0 es ≤ depth → hooks.foldEntries es = .ok ws →
      entries (item hooks depth) es.length (wire ++ rest) = .ok (ws, rest) ∧
      ∀ left, es.length < left →
        entryRun (item hooks depth) left (wire ++ stop :: rest) = .ok (ws, rest)

section Accepts

variable {hooks : Hooks}

/-- A value that holds no others is read by its body alone. -/
theorem accepts_leaf {major : Major} {info : Nat} {tail : Octets} {v : Value} (hinfo : info < 32)
    (hfold : hooks.fold v = .ok (hooks.finish v))
    (hbody : ∀ inner rest, body hooks inner major info (tail ++ rest) = .ok (.value v, rest)) :
    Accepts hooks (Head.initial major info :: tail) (.value v) := by
  intro depth w rest _ hw
  rw [hfold] at hw
  cases hw
  exact item_of_body hinfo (hbody _ rest)

theorem accepts_string {major : Major} {wire content : Octets} {v : Value}
    (h : IsString major wire content) (hfold : hooks.fold v = .ok (hooks.finish v))
    (hbody : ∀ inner info input rest, string major info input = .ok (content, rest) →
      body hooks inner major info input = .ok (.value v, rest)) :
    Accepts hooks wire (.value v) := by
  obtain ⟨info, tail, hinfo, rfl, hread⟩ := h.read
  exact accepts_leaf hinfo hfold fun inner rest ↦ hbody inner info _ rest (hread rest)

theorem item_stop (depth : Nat) (rest : Octets) :
    item hooks depth (stop :: rest) = .ok (.stop, rest) := by
  rw [item_eq_node, stop_eq, openEnded, node, Head.readInitial_initial (by decide)]
  rfl

/-- A container is read by what reads its content, one level further in. -/
theorem accepts_container {major : Major} {info level : Nat} {tail : Octets} {v : Value}
    (hinfo : info < 32) (hnesting : v.nesting 0 = level + 1)
    (hbody : ∀ depth w rest, level ≤ depth → hooks.fold v = .ok w → ∃ u,
      body hooks (some (item hooks depth)) major info (tail ++ rest) = .ok (.value u, rest) ∧
        w = hooks.finish u) :
    Accepts hooks (Head.initial major info :: tail) (.value v) := by
  intro depth w rest hdepth hw
  rw [hnesting] at hdepth
  obtain ⟨depth, rfl⟩ := Nat.exists_eq_succ_of_ne_zero (Nat.ne_of_gt (Nat.zero_lt_of_lt hdepth))
  obtain ⟨u, hread, rfl⟩ := hbody depth w rest (Nat.le_of_succ_le_succ hdepth) hw
  exact item_of_body hinfo hread

theorem accepts_array {items : List Value} {wire : Octets}
    (ih : Accepts hooks wire (.items items)) {head : Octets}
    (hhead : HasHead .array head items.length) :
    Accepts hooks (head ++ wire) (.value (.array items)) := by
  cases hhead with
  | @mk info _ octets hargument =>
    have hinfo := hargument.info_lt
    rw [List.cons_append]
    refine accepts_container (show info < 32 by omega) rfl fun depth w rest hdepth hw ↦ ?_
    obtain ⟨ws, hws, hw⟩ := exists_of_bind_eq_ok hw
    cases hw
    refine ⟨.array ws, ?_, rfl⟩
    simp only [body, descend, array, bind, Except.bind, List.append_assoc,
      if_neg hargument.ne_indefinite, readArgument_of_argument hargument,
      (ih depth ws rest hdepth hws).1]

theorem accepts_arrayRun {items : List Value} {wire : Octets}
    (ih : Accepts hooks wire (.items items)) (hcount : items.length ≤ wire.length) :
    Accepts hooks (openEnded .array :: (wire ++ [stop])) (.value (.array items)) := by
  refine accepts_container (by decide) rfl fun depth w rest hdepth hw ↦ ?_
  obtain ⟨ws, hws, hw⟩ := exists_of_bind_eq_ok hw
  cases hw
  refine ⟨.array ws, ?_, rfl⟩
  -- the run counts down from the octets that are left, and every item takes one at least
  have hrun := (ih depth ws rest hdepth hws).2 (wire ++ stop :: rest).length (by
    rw [List.length_append, List.length_cons]
    omega)
  simp only [body, descend, array, bind, Except.bind, List.append_assoc, if_true,
    List.cons_append, List.nil_append, hrun]

theorem accepts_map {entries : List (Value × Value)} {wire : Octets}
    (ih : Accepts hooks wire (.entries entries)) {head : Octets}
    (hhead : HasHead .map head entries.length) :
    Accepts hooks (head ++ wire) (.value (.map entries)) := by
  cases hhead with
  | @mk info _ octets hargument =>
    have hinfo := hargument.info_lt
    rw [List.cons_append]
    refine accepts_container (show info < 32 by omega) rfl fun depth w rest hdepth hw ↦ ?_
    obtain ⟨ws, hws, hw⟩ := exists_of_bind_eq_ok hw
    cases hw
    refine ⟨.map ws, ?_, rfl⟩
    simp only [body, descend, map, bind, Except.bind, List.append_assoc,
      if_neg hargument.ne_indefinite, readArgument_of_argument hargument,
      (ih depth ws rest hdepth hws).1]

theorem accepts_mapRun {entries : List (Value × Value)} {wire : Octets}
    (ih : Accepts hooks wire (.entries entries)) (hcount : entries.length ≤ wire.length) :
    Accepts hooks (openEnded .map :: (wire ++ [stop])) (.value (.map entries)) := by
  refine accepts_container (by decide) rfl fun depth w rest hdepth hw ↦ ?_
  obtain ⟨ws, hws, hw⟩ := exists_of_bind_eq_ok hw
  cases hw
  refine ⟨.map ws, ?_, rfl⟩
  have hrun := (ih depth ws rest hdepth hws).2 (wire ++ stop :: rest).length (by
    rw [List.length_append, List.length_cons]
    omega)
  simp only [body, descend, map, bind, Except.bind, List.append_assoc, if_true,
    List.cons_append, List.nil_append, hrun]

theorem accepts_tagged {tag : UInt64} {content : Value} {wire : Octets}
    (ih : Accepts hooks wire (.value content)) {head : Octets}
    (hhead : HasHead .tag head tag.toNat) :
    Accepts hooks (head ++ wire) (.value (.tagged tag content)) := by
  cases hhead with
  | @mk info _ octets hargument =>
    have hinfo := hargument.info_lt
    rw [List.cons_append]
    refine accepts_container (show info < 32 by omega) rfl fun depth w rest hdepth hw ↦ ?_
    obtain ⟨inner, hinner, hw⟩ := exists_of_bind_eq_ok hw
    obtain ⟨u, hu, hw⟩ := exists_of_bind_eq_ok hw
    cases hw
    refine ⟨u, ?_, rfl⟩
    have hcontent := valueOnly_of_value (ih depth inner rest hdepth hinner)
    simp only [body, descend, bind, Except.bind, List.append_assoc,
      readArgument_of_argument hargument, hcontent, UInt64.ofNat_toNat, hu]

theorem accepts_moreItems {item : Value} {items : List Value} {wire rest : Octets}
    (ihitem : Accepts hooks wire (.value item)) (ihitems : Accepts hooks rest (.items items)) :
    Accepts hooks (wire ++ rest) (.items (item :: items)) := by
  intro depth ws later hdepth hws
  obtain ⟨first, hfirst, hws⟩ := exists_of_bind_eq_ok hws
  obtain ⟨others, hothers, hws⟩ := exists_of_bind_eq_ok hws
  cases hws
  obtain ⟨hdepthFirst, hdepthOthers⟩ := Nat.max_le.mp hdepth
  obtain ⟨hitems, hrun⟩ := ihitems depth others later hdepthOthers hothers
  constructor
  · have hread := valueOnly_of_value (ihitem depth first (rest ++ later) hdepthFirst hfirst)
    simp only [List.append_assoc, List.length_cons, Decode.items, bind, Except.bind, hread, hitems]
  · intro left hleft
    obtain ⟨left, rfl⟩ := Nat.exists_eq_succ_of_ne_zero (Nat.ne_of_gt (Nat.zero_lt_of_lt hleft))
    have hread := ihitem depth first (rest ++ stop :: later) hdepthFirst hfirst
    simp only [List.append_assoc, Decode.itemRun, bind, Except.bind, hread,
      hrun left (Nat.lt_of_succ_lt_succ hleft)]

theorem accepts_moreEntries {key value : Value} {entries : List (Value × Value)}
    {wire second rest : Octets} (ihkey : Accepts hooks wire (.value key))
    (ihvalue : Accepts hooks second (.value value))
    (ihentries : Accepts hooks rest (.entries entries)) :
    Accepts hooks (wire ++ second ++ rest) (.entries ((key, value) :: entries)) := by
  intro depth ws later hdepth hws
  obtain ⟨first, hfirst, hws⟩ := exists_of_bind_eq_ok hws
  obtain ⟨next, hnext, hws⟩ := exists_of_bind_eq_ok hws
  obtain ⟨others, hothers, hws⟩ := exists_of_bind_eq_ok hws
  cases hws
  obtain ⟨hdepthPair, hdepthOthers⟩ := Nat.max_le.mp hdepth
  obtain ⟨hdepthKey, hdepthValue⟩ := Nat.max_le.mp hdepthPair
  obtain ⟨hentries, hrun⟩ := ihentries depth others later hdepthOthers hothers
  constructor
  · have hread :=
      valueOnly_of_value (ihkey depth first (second ++ (rest ++ later)) hdepthKey hfirst)
    have hread' := valueOnly_of_value (ihvalue depth next (rest ++ later) hdepthValue hnext)
    simp only [List.append_assoc, List.length_cons, Decode.entries, bind, Except.bind, hread,
      hread', hentries]
  · intro left hleft
    obtain ⟨left, rfl⟩ := Nat.exists_eq_succ_of_ne_zero (Nat.ne_of_gt (Nat.zero_lt_of_lt hleft))
    have hread := ihkey depth first (second ++ (rest ++ stop :: later)) hdepthKey hfirst
    have hread' := valueOnly_of_value (ihvalue depth next (rest ++ stop :: later) hdepthValue hnext)
    simp only [List.append_assoc, Decode.entryRun, bind, Except.bind, hread, hread',
      hrun left (Nat.lt_of_succ_lt_succ hleft)]

theorem accepts_number {major : Major} {head : Octets} {n : Nat} {v : Value}
    (h : HasHead major head n) (hfold : hooks.fold v = .ok (hooks.finish v))
    (hbody : ∀ inner info input rest, Head.readArgument info input = .ok (n, rest) →
      body hooks inner major info input = .ok (.value v, rest)) :
    Accepts hooks head (.value v) := by
  cases h with
  | @mk info _ octets hargument =>
    have hinfo := hargument.info_lt
    exact accepts_leaf (by omega) hfold fun inner rest ↦
      hbody inner info _ rest (readArgument_of_argument hargument rest)

theorem accepts_word {info width : Nat} {word : Octets} {v : Value} (hinfo : info < 32)
    (hlength : word.length = width) (hfold : hooks.fold v = .ok (hooks.finish v))
    (hbody : ∀ input rest, Reader.unsigned width input = .ok (word.toNat, rest) →
      simple info input = .ok (.value v, rest)) :
    Accepts hooks (Head.initial .simple info :: word) (.value v) := by
  refine accepts_leaf hinfo hfold fun inner rest ↦ ?_
  exact hbody _ rest (hlength ▸ Reader.unsigned_append word rest)

/-- Octets that stand for a phrase are read as what the hooks make of it. -/
theorem accepts_of_derives (hooks : Hooks) {wire : Octets} {phrase : Phrase}
    (h : Derives wire phrase) : Accepts hooks wire phrase := by
  induction h with
  | unsigned h =>
    refine accepts_number h rfl fun inner info input rest hread ↦ ?_
    simp only [body, hread, bind, Except.bind]
  | negative h =>
    refine accepts_number h rfl fun inner info input rest hread ↦ ?_
    simp only [body, hread, bind, Except.bind]
  | octets h =>
    refine accepts_string h rfl fun inner info input rest hread ↦ ?_
    simp only [body, hread, bind, Except.bind]
  | text h =>
    refine accepts_string h rfl fun inner info input rest hread ↦ ?_
    simp only [body, hread, bind, Except.bind, Text.ofOctets?_octets]
  | array hhead _ ih => exact accepts_array ih hhead
  | arrayRun hitems ih => exact accepts_arrayRun ih hitems.count_le
  | map hhead _ ih => exact accepts_map ih hhead
  | mapRun hentries ih => exact accepts_mapRun ih hentries.count_le
  | tagged hhead _ ih => exact accepts_tagged ih hhead
  | no => exact accepts_leaf (by decide) rfl fun inner rest ↦ rfl
  | yes => exact accepts_leaf (by decide) rfl fun inner rest ↦ rfl
  | null => exact accepts_leaf (by decide) rfl fun inner rest ↦ rfl
  | undefined => exact accepts_leaf (by decide) rfl fun inner rest ↦ rfl
  | half h =>
    refine accepts_word (by decide) h rfl fun input rest hread ↦ ?_
    simp only [simple, hread, bind, Except.bind]
    rfl
  | single h =>
    refine accepts_word (by decide) h rfl fun input rest hread ↦ ?_
    simp only [simple, hread, bind, Except.bind]
    rfl
  | double h =>
    refine accepts_word (by decide) h rfl fun input rest hread ↦ ?_
    simp only [simple, hread, bind, Except.bind]
    rfl
  | noItems =>
    intro depth ws rest _ hws
    cases hws
    refine ⟨rfl, fun left hleft ↦ ?_⟩
    obtain ⟨left, rfl⟩ := Nat.exists_eq_succ_of_ne_zero (Nat.ne_of_gt hleft)
    simp only [List.nil_append, Decode.itemRun, item_stop, bind, Except.bind]
  | moreItems _ _ ihitem ihitems => exact accepts_moreItems ihitem ihitems
  | noEntries =>
    intro depth ws rest _ hws
    cases hws
    refine ⟨rfl, fun left hleft ↦ ?_⟩
    obtain ⟨left, rfl⟩ := Nat.exists_eq_succ_of_ne_zero (Nat.ne_of_gt hleft)
    simp only [List.nil_append, Decode.entryRun, item_stop, bind, Except.bind]
  | moreEntries _ _ _ ihkey ihvalue ihentries => exact accepts_moreEntries ihkey ihvalue ihentries

end Accepts

end Grammar

end Wireline
