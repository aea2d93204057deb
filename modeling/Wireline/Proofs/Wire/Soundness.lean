import Wireline.Proofs.Wire.Completeness

/-!
# What is read is in the grammar

A reader of items is `Sound` for a depth if all that it reads stands in the grammar for a value of
no more than that depth, and comes out as what the hooks make of that value. Strings, runs and
containers of sound readers are sound, and so is `Decode.item`, by induction on the depth
(`item_sound`).
-/

set_option autoImplicit false
set_option relaxedAutoImplicit false

namespace Wireline

namespace Grammar

open Decode

/-! ### Readers of items -/

/-- What a reader of items reads is in the grammar. -/
structure Sound (hooks : Hooks) (depth : Nat) (item : Reader Item) : Prop where
  value : ∀ {input rest : Octets} {w : Value}, item input = .ok (.value w, rest) →
    ∃ wire v, input = wire ++ rest ∧ Derives wire (.value v) ∧ v.nesting 0 ≤ depth ∧
      hooks.fold v = .ok w
  stop : ∀ {input rest : Octets}, item input = .ok (.stop, rest) → input = stop :: rest

namespace Sound

variable {hooks : Hooks} {depth : Nat} {item : Reader Item}

theorem valueOnly (h : Sound hooks depth item) {input rest : Octets} {w : Value}
    (hread : valueOnly item input = .ok (w, rest)) :
    ∃ wire v, input = wire ++ rest ∧ Derives wire (.value v) ∧ v.nesting 0 ≤ depth ∧
      hooks.fold v = .ok w := by
  obtain ⟨⟨out, others⟩, hitem, hread⟩ := exists_of_bind_eq_ok hread
  cases out with
  | stop => cases hread
  | value v =>
    cases hread
    exact h.value hitem

theorem items (h : Sound hooks depth item) (count : Nat) :
    ∀ {input rest : Octets} {ws : List Value}, items item count input = .ok (ws, rest) →
      ∃ wire vs, input = wire ++ rest ∧ Derives wire (.items vs) ∧ vs.length = count ∧
        Value.nestingOfItems 0 vs ≤ depth ∧ hooks.foldItems vs = .ok ws := by
  induction count with
  | zero =>
    intro input rest ws hread
    cases hread
    exact ⟨[], [], rfl, .noItems, rfl, Nat.zero_le _, rfl⟩
  | succ count ih =>
    intro input rest ws hread
    obtain ⟨⟨first, middle⟩, hfirst, hread⟩ := exists_of_bind_eq_ok hread
    obtain ⟨⟨others, last⟩, hothers, hread⟩ := exists_of_bind_eq_ok hread
    cases hread
    obtain ⟨wire, v, hinput, hderives, hdepth, hfold⟩ := h.valueOnly hfirst
    obtain ⟨more, vs, hmiddle, hrest, hcount, hdepths, hfolds⟩ := ih hothers
    refine ⟨wire ++ more, v :: vs, by rw [hinput, hmiddle, List.append_assoc],
      .moreItems hderives hrest, by rw [List.length_cons, hcount],
      Nat.max_le.mpr ⟨hdepth, hdepths⟩, ?_⟩
    simp only [Hooks.foldItems, hfold, hfolds, bind, Except.bind]

theorem itemRun (h : Sound hooks depth item) (left : Nat) :
    ∀ {input rest : Octets} {ws : List Value}, itemRun item left input = .ok (ws, rest) →
      ∃ wire vs, input = wire ++ Grammar.stop :: rest ∧ Derives wire (.items vs) ∧
        Value.nestingOfItems 0 vs ≤ depth ∧ hooks.foldItems vs = .ok ws := by
  induction left with
  | zero =>
    intro input rest ws hread
    cases hread
  | succ left ih =>
    intro input rest ws hread
    obtain ⟨⟨out, middle⟩, hitem, hread⟩ := exists_of_bind_eq_ok hread
    cases out with
    | stop =>
      cases hread
      exact ⟨[], [], h.stop hitem, .noItems, Nat.zero_le _, rfl⟩
    | value first =>
      obtain ⟨⟨others, last⟩, hothers, hread⟩ := exists_of_bind_eq_ok hread
      cases hread
      obtain ⟨wire, v, hinput, hderives, hdepth, hfold⟩ := h.value hitem
      obtain ⟨more, vs, hmiddle, hrest, hdepths, hfolds⟩ := ih hothers
      refine ⟨wire ++ more, v :: vs, by rw [hinput, hmiddle, List.append_assoc],
        .moreItems hderives hrest, Nat.max_le.mpr ⟨hdepth, hdepths⟩, ?_⟩
      simp only [Hooks.foldItems, hfold, hfolds, bind, Except.bind]

theorem entries (h : Sound hooks depth item) (count : Nat) :
    ∀ {input rest : Octets} {ws : List (Value × Value)},
      entries item count input = .ok (ws, rest) →
      ∃ wire es, input = wire ++ rest ∧ Derives wire (.entries es) ∧ es.length = count ∧
        Value.nestingOfEntries 0 es ≤ depth ∧ hooks.foldEntries es = .ok ws := by
  induction count with
  | zero =>
    intro input rest ws hread
    cases hread
    exact ⟨[], [], rfl, .noEntries, rfl, Nat.zero_le _, rfl⟩
  | succ count ih =>
    intro input rest ws hread
    obtain ⟨⟨first, second⟩, hfirst, hread⟩ := exists_of_bind_eq_ok hread
    obtain ⟨⟨next, third⟩, hnext, hread⟩ := exists_of_bind_eq_ok hread
    obtain ⟨⟨others, last⟩, hothers, hread⟩ := exists_of_bind_eq_ok hread
    cases hread
    obtain ⟨wire, key, hinput, hkey, hdepthKey, hfoldKey⟩ := h.valueOnly hfirst
    obtain ⟨wire', value, hsecond, hvalue, hdepthValue, hfoldValue⟩ := h.valueOnly hnext
    obtain ⟨more, es, hthird, hrest, hcount, hdepths, hfolds⟩ := ih hothers
    refine ⟨wire ++ wire' ++ more, (key, value) :: es,
      by rw [hinput, hsecond, hthird, List.append_assoc, List.append_assoc],
      .moreEntries hkey hvalue hrest, by rw [List.length_cons, hcount],
      Nat.max_le.mpr ⟨Nat.max_le.mpr ⟨hdepthKey, hdepthValue⟩, hdepths⟩, ?_⟩
    simp only [Hooks.foldEntries, hfoldKey, hfoldValue, hfolds, bind, Except.bind]

theorem entryRun (h : Sound hooks depth item) (left : Nat) :
    ∀ {input rest : Octets} {ws : List (Value × Value)},
      entryRun item left input = .ok (ws, rest) →
      ∃ wire es, input = wire ++ Grammar.stop :: rest ∧ Derives wire (.entries es) ∧
        Value.nestingOfEntries 0 es ≤ depth ∧ hooks.foldEntries es = .ok ws := by
  induction left with
  | zero =>
    intro input rest ws hread
    cases hread
  | succ left ih =>
    intro input rest ws hread
    obtain ⟨⟨out, second⟩, hitem, hread⟩ := exists_of_bind_eq_ok hread
    cases out with
    | stop =>
      cases hread
      exact ⟨[], [], h.stop hitem, .noEntries, Nat.zero_le _, rfl⟩
    | value first =>
      obtain ⟨⟨next, third⟩, hnext, hread⟩ := exists_of_bind_eq_ok hread
      obtain ⟨⟨others, last⟩, hothers, hread⟩ := exists_of_bind_eq_ok hread
      cases hread
      obtain ⟨wire, key, hinput, hkey, hdepthKey, hfoldKey⟩ := h.value hitem
      obtain ⟨wire', value, hsecond, hvalue, hdepthValue, hfoldValue⟩ := h.valueOnly hnext
      obtain ⟨more, es, hthird, hrest, hdepths, hfolds⟩ := ih hothers
      refine ⟨wire ++ wire' ++ more, (key, value) :: es,
        by rw [hinput, hsecond, hthird, List.append_assoc, List.append_assoc],
        .moreEntries hkey hvalue hrest,
        Nat.max_le.mpr ⟨Nat.max_le.mpr ⟨hdepthKey, hdepthValue⟩, hdepths⟩, ?_⟩
      simp only [Hooks.foldEntries, hfoldKey, hfoldValue, hfolds, bind, Except.bind]

theorem array (h : Sound hooks depth item) {info : Nat} {input rest : Octets} {ws : List Value}
    (hread : array item info input = .ok (ws, rest)) :
    ∃ tail vs, input = tail ++ rest ∧
      Derives (Head.initial .array info :: tail) (.value (.array vs)) ∧
      Value.nestingOfItems 0 vs ≤ depth ∧ hooks.foldItems vs = .ok ws := by
  unfold Decode.array at hread
  split at hread
  · next hindefinite =>
    subst hindefinite
    obtain ⟨wire, vs, hinput, hitems, hdepth, hfold⟩ := h.itemRun _ hread
    exact ⟨wire ++ [Grammar.stop], vs, by rw [hinput]; simp, .arrayRun hitems, hdepth, hfold⟩
  · obtain ⟨⟨count, others⟩, hcount, hread⟩ := exists_of_bind_eq_ok hread
    obtain ⟨octets, hinput, hargument⟩ := argument_of_readArgument hcount
    obtain ⟨wire, vs, hothers, hitems, rfl, hdepth, hfold⟩ := h.items count hread
    exact ⟨octets ++ wire, vs, by rw [hinput, hothers, List.append_assoc],
      .array (.mk hargument) hitems, hdepth, hfold⟩

theorem map (h : Sound hooks depth item) {info : Nat} {input rest : Octets}
    {ws : List (Value × Value)} (hread : map item info input = .ok (ws, rest)) :
    ∃ tail es, input = tail ++ rest ∧
      Derives (Head.initial .map info :: tail) (.value (.map es)) ∧
      Value.nestingOfEntries 0 es ≤ depth ∧ hooks.foldEntries es = .ok ws := by
  unfold Decode.map at hread
  split at hread
  · next hindefinite =>
    subst hindefinite
    obtain ⟨wire, es, hinput, hentries, hdepth, hfold⟩ := h.entryRun _ hread
    exact ⟨wire ++ [Grammar.stop], es, by rw [hinput]; simp, .mapRun hentries, hdepth, hfold⟩
  · obtain ⟨⟨count, others⟩, hcount, hread⟩ := exists_of_bind_eq_ok hread
    obtain ⟨octets, hinput, hargument⟩ := argument_of_readArgument hcount
    obtain ⟨wire, es, hothers, hentries, rfl, hdepth, hfold⟩ := h.entries count hread
    exact ⟨octets ++ wire, es, by rw [hinput, hothers, List.append_assoc],
      .map (.mk hargument) hentries, hdepth, hfold⟩

end Sound

/-! ### Simple items -/

/-- What a simple item with some information stands for: the break, or a value that holds no
others. -/
def SimpleAs (info : Nat) (input rest : Octets) : Item → Prop
  | .stop => info = Head.indefinite ∧ input = rest
  | .value v => (∃ tail, input = tail ++ rest ∧
      Derives (Head.initial .simple info :: tail) (.value v)) ∧
      v.nesting 0 = 0 ∧ ∀ hooks : Hooks, hooks.fold v = .ok (hooks.finish v)

section SimpleAs

variable {info : Nat} {input rest : Octets} {out : Item}

/-- A value that its information alone makes up. -/
theorem simpleAs_mark {v : Value} (hderives : Derives [Head.initial .simple info] (.value v))
    (hnesting : v.nesting 0 = 0) (hfold : ∀ hooks : Hooks, hooks.fold v = .ok (hooks.finish v))
    (hread : Except.ok (Item.value v, input) = (.ok (out, rest) : Except WireError _)) :
    SimpleAs info input rest out := by
  cases hread
  exact ⟨⟨[], rfl, hderives⟩, hnesting, hfold⟩

/-- A float of some width. -/
theorem simpleAs_word {width : Nat} (float : Nat → Binary64)
    (hderives : ∀ word : Octets, word.length = width →
      Derives (Head.initial .simple info :: word) (.value (.float (float word.toNat))))
    (hread : (Reader.unsigned width input >>= fun (word, rest) ↦
      .ok (Item.value (.float (float word)), rest)) = .ok (out, rest)) :
    SimpleAs info input rest out := by
  obtain ⟨⟨word, others⟩, hword, hread⟩ := exists_of_bind_eq_ok hread
  cases hread
  obtain ⟨octets, hlength, rfl, hinput⟩ := Reader.eq_append_of_unsigned hword
  exact ⟨⟨octets, hinput, hderives octets hlength⟩, rfl, fun _ ↦ rfl⟩

theorem simpleAs_of_simple (hread : simple info input = .ok (out, rest)) :
    SimpleAs info input rest out := by
  unfold simple at hread
  split at hread
  · next hinfo => exact simpleAs_mark (hinfo ▸ .no) rfl (fun _ ↦ rfl) hread
  split at hread
  · next hinfo => exact simpleAs_mark (hinfo ▸ .yes) rfl (fun _ ↦ rfl) hread
  split at hread
  · next hinfo => exact simpleAs_mark (hinfo ▸ .null) rfl (fun _ ↦ rfl) hread
  split at hread
  · next hinfo => exact simpleAs_mark (hinfo ▸ .undefined) rfl (fun _ ↦ rfl) hread
  split at hread
  · next hinfo =>
    subst hinfo
    exact simpleAs_word Binary64.ofBinary16 (fun _ ↦ .half) hread
  split at hread
  · next hinfo =>
    subst hinfo
    exact simpleAs_word Binary64.ofBinary32 (fun _ ↦ .single) hread
  split at hread
  · next hinfo =>
    subst hinfo
    exact simpleAs_word (fun word ↦ ⟨UInt64.ofNat word⟩) (fun _ ↦ .double) hread
  split at hread
  · next hinfo =>
    cases hread
    exact ⟨hinfo, rfl⟩
  split at hread
  · cases hread
  · cases hread

end SimpleAs

/-! ### Bodies -/

theorem eq_some_of_descend {inner : Option (Reader Item)} {item : Reader Item}
    (h : descend inner = .ok item) : inner = some item := by
  cases inner with
  | none => cases h
  | some other =>
    cases h
    rfl

section Body

variable {hooks : Hooks} {depth : Nat} {inner : Option (Reader Item)}

theorem body_stop {major : Major} {info : Nat} {input rest : Octets}
    (hread : body hooks inner major info input = .ok (.stop, rest)) :
    major = .simple ∧ info = Head.indefinite ∧ input = rest := by
  cases major with
  | simple => exact ⟨rfl, simpleAs_of_simple hread⟩
  | text =>
    obtain ⟨⟨octets, others⟩, -, hread⟩ := exists_of_bind_eq_ok hread
    simp only at hread
    split at hread <;> cases hread
  | tag =>
    obtain ⟨⟨tag, others⟩, -, hread⟩ := exists_of_bind_eq_ok hread
    obtain ⟨item, -, hread⟩ := exists_of_bind_eq_ok hread
    obtain ⟨⟨content, last⟩, -, hread⟩ := exists_of_bind_eq_ok hread
    obtain ⟨v, -, hread⟩ := exists_of_bind_eq_ok hread
    cases hread
  | array =>
    obtain ⟨item, -, hread⟩ := exists_of_bind_eq_ok hread
    obtain ⟨⟨values, others⟩, -, hread⟩ := exists_of_bind_eq_ok hread
    cases hread
  | map =>
    obtain ⟨item, -, hread⟩ := exists_of_bind_eq_ok hread
    obtain ⟨⟨pairs, others⟩, -, hread⟩ := exists_of_bind_eq_ok hread
    cases hread
  | _ =>
    obtain ⟨⟨argument, others⟩, -, hread⟩ := exists_of_bind_eq_ok hread
    cases hread

/-- The body of a value stands in the grammar after the initial octet of the value. -/
theorem body_value
    (hinner : ∀ item, inner = some item → ∃ level, depth = level + 1 ∧ Sound hooks level item)
    {major : Major} {info : Nat} {input rest : Octets} {u : Value}
    (hread : body hooks inner major info input = .ok (.value u, rest)) :
    ∃ tail v, input = tail ++ rest ∧ Derives (Head.initial major info :: tail) (.value v) ∧
      v.nesting 0 ≤ depth ∧ hooks.fold v = .ok (hooks.finish u) := by
  cases major with
  | unsigned =>
    obtain ⟨⟨n, others⟩, hargument, hread⟩ := exists_of_bind_eq_ok hread
    cases hread
    obtain ⟨octets, hinput, hargument⟩ := argument_of_readArgument hargument
    exact ⟨octets, _, hinput, .unsigned (.mk hargument), Nat.zero_le _, rfl⟩
  | negative =>
    obtain ⟨⟨n, others⟩, hargument, hread⟩ := exists_of_bind_eq_ok hread
    cases hread
    obtain ⟨octets, hinput, hargument⟩ := argument_of_readArgument hargument
    exact ⟨octets, _, hinput, .negative (.mk hargument), Nat.zero_le _, rfl⟩
  | octets =>
    obtain ⟨⟨content, others⟩, hstring, hread⟩ := exists_of_bind_eq_ok hread
    cases hread
    obtain ⟨tail, hinput, hstring⟩ := isString_of_string hstring
    exact ⟨tail, _, hinput, .octets hstring, Nat.zero_le _, rfl⟩
  | text =>
    obtain ⟨⟨content, others⟩, hstring, hread⟩ := exists_of_bind_eq_ok hread
    simp only at hread
    split at hread
    · next text htext =>
      cases hread
      obtain ⟨tail, hinput, hstring⟩ := isString_of_string hstring
      rw [← Text.octets_of_ofOctets? htext] at hstring
      exact ⟨tail, _, hinput, .text hstring, Nat.zero_le _, rfl⟩
    · cases hread
  | array =>
    obtain ⟨item, hdescend, hread⟩ := exists_of_bind_eq_ok hread
    obtain ⟨⟨ws, others⟩, harray, hread⟩ := exists_of_bind_eq_ok hread
    cases hread
    obtain ⟨level, rfl, hsound⟩ := hinner item (eq_some_of_descend hdescend)
    obtain ⟨tail, vs, hinput, hderives, hdepth, hfold⟩ := hsound.array harray
    refine ⟨tail, .array vs, hinput, hderives, Nat.succ_le_succ hdepth, ?_⟩
    simp only [Hooks.fold, hfold, bind, Except.bind]
  | map =>
    obtain ⟨item, hdescend, hread⟩ := exists_of_bind_eq_ok hread
    obtain ⟨⟨ws, others⟩, hmap, hread⟩ := exists_of_bind_eq_ok hread
    cases hread
    obtain ⟨level, rfl, hsound⟩ := hinner item (eq_some_of_descend hdescend)
    obtain ⟨tail, es, hinput, hderives, hdepth, hfold⟩ := hsound.map hmap
    refine ⟨tail, .map es, hinput, hderives, Nat.succ_le_succ hdepth, ?_⟩
    simp only [Hooks.fold, hfold, bind, Except.bind]
  | tag =>
    obtain ⟨⟨tag, middle⟩, hargument, hread⟩ := exists_of_bind_eq_ok hread
    obtain ⟨item, hdescend, hread⟩ := exists_of_bind_eq_ok hread
    obtain ⟨⟨content, last⟩, hcontent, hread⟩ := exists_of_bind_eq_ok hread
    obtain ⟨w, hw, hread⟩ := exists_of_bind_eq_ok hread
    cases hread
    obtain ⟨level, rfl, hsound⟩ := hinner item (eq_some_of_descend hdescend)
    obtain ⟨octets, hinput, hargument⟩ := argument_of_readArgument hargument
    obtain ⟨wire, v, hmiddle, hderives, hdepth, hfold⟩ := hsound.valueOnly hcontent
    -- an argument of any width fits the word of a tag
    have htag : (UInt64.ofNat tag).toNat = tag := by
      rw [UInt64.toNat_ofNat', Nat.mod_eq_of_lt hargument.lt]
    have hhead : HasHead .tag (Head.initial .tag info :: octets) (UInt64.ofNat tag).toNat := by
      rw [htag]
      exact .mk hargument
    refine ⟨octets ++ wire, .tagged (UInt64.ofNat tag) v,
      by rw [hinput, hmiddle, List.append_assoc],
      .tagged hhead hderives, Nat.succ_le_succ hdepth, ?_⟩
    simp only [Hooks.fold, hfold, hw, bind, Except.bind]
  | simple =>
    obtain ⟨⟨tail, hinput, hderives⟩, hnesting, hfold⟩ := simpleAs_of_simple hread
    exact ⟨tail, u, hinput, hderives, by rw [hnesting]; exact Nat.zero_le _, hfold hooks⟩

theorem node_sound
    (hinner : ∀ item, inner = some item → ∃ level, depth = level + 1 ∧ Sound hooks level item) :
    Sound hooks depth (node hooks inner) where
  value := by
    intro input rest w hread
    obtain ⟨⟨⟨major, info⟩, others⟩, hinitial, hread⟩ := exists_of_bind_eq_ok hread
    obtain ⟨⟨out, last⟩, hbody, hread⟩ := exists_of_bind_eq_ok hread
    obtain ⟨-, hinput⟩ := Head.initial_of_readInitial hinitial
    cases out with
    | stop => cases hread
    | value u =>
      cases hread
      obtain ⟨tail, v, hothers, hderives, hdepth, hfold⟩ := body_value hinner hbody
      exact ⟨_, v, by rw [hinput, hothers, List.cons_append], hderives, hdepth, hfold⟩
  stop := by
    intro input rest hread
    obtain ⟨⟨⟨major, info⟩, others⟩, hinitial, hread⟩ := exists_of_bind_eq_ok hread
    obtain ⟨⟨out, last⟩, hbody, hread⟩ := exists_of_bind_eq_ok hread
    obtain ⟨-, hinput⟩ := Head.initial_of_readInitial hinitial
    cases out with
    | value u => cases hread
    | stop =>
      cases hread
      obtain ⟨rfl, rfl, rfl⟩ := body_stop hbody
      exact hinput

end Body

theorem item_sound (hooks : Hooks) (depth : Nat) : Sound hooks depth (item hooks depth) := by
  induction depth with
  | zero => exact node_sound (fun _ h ↦ by cases h)
  | succ depth ih =>
    refine node_sound fun item h ↦ ⟨depth, rfl, ?_⟩
    cases h
    exact ih

end Grammar

end Wireline
