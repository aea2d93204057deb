import Mathlib.Data.Option.Basic
import Wireline.Proofs.Wire.Acceptance

/-!
# Hooks against the values that are read

Hooks act while an input is read. `Hooks.Follows` compares the outcome with that of reading the same
input without hooks: the octets that are used are the same, what comes out is what the hooks make of
the value that comes out without them, and where something fails it is for the same reason, unless
the hook on a tag has refused a content before (`Hooks.Refuses`).

The comparison goes through two steps one after the other (`Hooks.Follows.bind`), and so from the
items of a container to the container and to nested items of any depth
(`Decode.followsItem_item`). Where no tag has a hook nothing can be refused, and reading with hooks
is reading and then rebuilding (`decodeAll_eq_map_rebuild`).
-/

set_option autoImplicit false
set_option relaxedAutoImplicit false

namespace Wireline

namespace Hooks

/-! ### Refusals -/

/-- The error is one that the hook on some tag gives for some content. -/
def Refuses (hooks : Hooks) (error : WireError) : Prop :=
  ∃ tag hook content, hooks.onTag tag = some hook ∧ hook content = .error error

theorem not_refuses {hooks : Hooks} (h : ∀ tag, hooks.onTag tag = none) (error : WireError) :
    ¬ hooks.Refuses error := by
  rintro ⟨tag, hook, content, htag, -⟩
  rw [h tag] at htag
  cases htag

theorem refuses_of_underTag {hooks : Hooks} {tag : UInt64} {content : Value} {error : WireError}
    (h : Decode.underTag hooks tag content = .error error) : hooks.Refuses error := by
  unfold Decode.underTag at h
  split at h
  · next hook htag => exact ⟨tag, hook, content, htag, h⟩
  · cases h

/-- What hooks make of a node before `finish` has seen it. -/
def foldInside (hooks : Hooks) : Value → Except WireError Value
  | .array items => do
    let items ← hooks.foldItems items
    .ok (.array items)
  | .map entries => do
    let entries ← hooks.foldEntries entries
    .ok (.map entries)
  | .tagged tag content => do
    let content ← hooks.fold content
    Decode.underTag hooks tag content
  | v => .ok v

theorem fold_eq_foldInside (hooks : Hooks) (v : Value) :
    hooks.fold v = (do
      let inside ← hooks.foldInside v
      .ok (hooks.finish inside)) := by
  cases v with
  | array items => rw [fold, foldInside]; cases hooks.foldItems items <;> rfl
  | map entries => rw [fold, foldInside]; cases hooks.foldEntries entries <;> rfl
  | tagged tag content => rw [fold, foldInside]; cases hooks.fold content <;> rfl
  | _ => rfl

/-- What is made of an item, if values are made something of. A break stays as it is. -/
def foldItem (onValue : Value → Except WireError Value) :
    Decode.Item → Except WireError Decode.Item
  | .value v => do
    let w ← onValue v
    .ok (.value w)
  | .stop => .ok .stop

theorem foldItem_value_error {onValue : Value → Except WireError Value} {v : Value}
    {error : WireError} (h : foldItem onValue (.value v) = .error error) :
    onValue v = .error error := by
  cases hvalue : onValue v with
  | error other =>
    rw [foldItem, hvalue] at h
    cases h
    rfl
  | ok w =>
    rw [foldItem, hvalue] at h
    cases h

/-! ### The comparison -/

/-- The outcome of reading with hooks against that of reading without them, where `make` is what the
hooks do to what is read. -/
inductive Follows (hooks : Hooks) {α β : Type} (make : α → Except WireError β) :
    Except WireError (α × Octets) → Except WireError (β × Octets) → Prop
  | read {a : α} {b : β} {rest : Octets} (h : make a = .ok b) :
      Follows hooks make (.ok (a, rest)) (.ok (b, rest))
  | refused {a : α} {rest : Octets} {refusal : WireError} (h : make a = .error refusal)
      (hrefuses : hooks.Refuses refusal) : Follows hooks make (.ok (a, rest)) (.error refusal)
  | failed (error : WireError) : Follows hooks make (.error error) (.error error)
  /-- A hook has refused something before reading fails. -/
  | refusedBefore {error refusal : WireError} (hrefuses : hooks.Refuses refusal) :
      Follows hooks make (.error error) (.error refusal)

namespace Follows

variable {hooks : Hooks} {α β γ δ : Type} {make : α → Except WireError β}
  {makeNext : γ → Except WireError δ} {plain : Except WireError (α × Octets)}
  {hooked : Except WireError (β × Octets)}

/-- Two steps are comparable if the first ones are, the second ones are whatever comes out of the
first, and a refusal in the first step is one for the outcome of both. -/
theorem bind {next : α × Octets → Except WireError (γ × Octets)}
    {nextHooked : β × Octets → Except WireError (δ × Octets)}
    (h : Follows hooks make plain hooked)
    (hnext : ∀ a b rest, make a = .ok b →
      Follows hooks makeNext (next (a, rest)) (nextHooked (b, rest)))
    (hrefused : ∀ a rest c last refusal, make a = .error refusal →
      next (a, rest) = .ok (c, last) → makeNext c = .error refusal) :
    Follows hooks makeNext (plain >>= next) (hooked >>= nextHooked) := by
  cases h with
  | read hmake => exact hnext _ _ _ hmake
  | @refused a rest refusal hmake hrefuses =>
    show Follows hooks makeNext (next (a, rest)) (.error refusal)
    cases hlater : next (a, rest) with
    | error error => exact .refusedBefore hrefuses
    | ok result => exact .refused (hrefused a rest _ _ refusal hmake hlater) hrefuses
  | failed error => exact .failed error
  | refusedBefore hrefuses => exact .refusedBefore hrefuses

/-- The first step has nothing to do with hooks. -/
theorem bindSame {σ : Type} (first : Except WireError (σ × Octets))
    {next : σ × Octets → Except WireError (γ × Octets)}
    {nextHooked : σ × Octets → Except WireError (δ × Octets)}
    (hnext : ∀ s rest, Follows hooks makeNext (next (s, rest)) (nextHooked (s, rest))) :
    Follows hooks makeNext (first >>= next) (first >>= nextHooked) := by
  cases first with
  | error error => exact .failed error
  | ok result => exact hnext result.1 result.2

/-- What is read becomes a node around it. -/
theorem into {node : α → Value} {made : β → Value} (h : Follows hooks make plain hooked)
    (hinside : ∀ a, hooks.foldInside (node a) = (make a).map made) :
    Follows hooks (foldItem hooks.foldInside)
      (plain >>= fun (a, rest) ↦ .ok (.value (node a), rest))
      (hooked >>= fun (b, rest) ↦ .ok (.value (made b), rest)) := by
  refine h.bind ?_ ?_
  · intro a b rest hmake
    exact .read (by rw [foldItem, hinside, hmake]; rfl)
  · intro a rest out last refusal hmake hnext
    cases hnext
    rw [foldItem, hinside, hmake]
    rfl

theorem ok_iff (h : Follows hooks make plain hooked) {b : β} {rest : Octets} :
    hooked = .ok (b, rest) ↔ ∃ a, plain = .ok (a, rest) ∧ make a = .ok b := by
  constructor
  · rintro rfl
    cases h with
    | read hmake => exact ⟨_, rfl, hmake⟩
  · rintro ⟨a, rfl, hmake⟩
    cases h with
    | read hmade =>
      rw [hmade] at hmake
      cases hmake
      rfl
    | refused hmade =>
      rw [hmade] at hmake
      cases hmake

theorem of_ok {a : α} {rest : Octets} (h : Follows hooks make (.ok (a, rest)) hooked) :
    hooked = (make a).map (·, rest) := by
  cases h with
  | read hmake => rw [hmake]; rfl
  | refused hmake => rw [hmake]; rfl

theorem of_error {error : WireError} (h : Follows hooks make (.error error) hooked) :
    hooked = .error error ∨ ∃ refusal, hooks.Refuses refusal ∧ hooked = .error refusal := by
  cases h with
  | failed => exact .inl rfl
  | refusedBefore hrefuses => exact .inr ⟨_, hrefuses, rfl⟩

end Follows

end Hooks

/-! ### Items -/

namespace Decode

/-- A reader of items with hooks against one without them. -/
def FollowsItem (hooks : Hooks) (plain hooked : Reader Item) : Prop :=
  ∀ input, hooks.Follows (Hooks.foldItem hooks.fold) (plain input) (hooked input)

namespace FollowsItem

variable {hooks : Hooks} {plain hooked : Reader Item}

theorem valueOnly (h : FollowsItem hooks plain hooked) (input : Octets) :
    hooks.Follows hooks.fold (valueOnly plain input) (valueOnly hooked input) := by
  refine (h input).bind ?_ ?_
  · intro a b rest hmake
    cases a with
    | stop =>
      cases hmake
      exact .failed .strayBreak
    | value v =>
      obtain ⟨w, hfold, hmake⟩ := exists_of_bind_eq_ok hmake
      cases hmake
      exact .read hfold
  · intro a rest c last refusal hmake hnext
    cases a with
    | stop => cases hnext
    | value v =>
      cases hnext
      exact Hooks.foldItem_value_error hmake

/-- A list of items, from its first item and the others. -/
theorem cons {first w : Value} {others ws : Except WireError (List Value × Octets)}
    (hfirst : hooks.fold first = .ok w) (hothers : hooks.Follows hooks.foldItems others ws) :
    hooks.Follows hooks.foldItems
      (others >>= fun (values, rest) ↦ .ok (first :: values, rest))
      (ws >>= fun (values, rest) ↦ .ok (w :: values, rest)) := by
  refine hothers.bind ?_ ?_
  · intro vs us rest hmake
    exact .read (by simp only [Hooks.foldItems, hfirst, hmake, bind, Except.bind])
  · intro vs rest us last refusal hmake hnext
    cases hnext
    simp only [Hooks.foldItems, hfirst, hmake, bind, Except.bind]

theorem items (h : FollowsItem hooks plain hooked) (count : Nat) :
    ∀ input,
      hooks.Follows hooks.foldItems (items plain count input) (items hooked count input) := by
  induction count with
  | zero => exact fun input ↦ .read rfl
  | succ count ih =>
    intro input
    refine (h.valueOnly input).bind ?_ ?_
    · intro first w rest hfold
      exact cons hfold (ih rest)
    · intro first rest vs last refusal hfold hnext
      obtain ⟨⟨others, later⟩, -, hnext⟩ := exists_of_bind_eq_ok hnext
      cases hnext
      simp only [Hooks.foldItems, hfold, bind, Except.bind]

theorem itemRun (h : FollowsItem hooks plain hooked) (left : Nat) :
    ∀ input,
      hooks.Follows hooks.foldItems (itemRun plain left input) (itemRun hooked left input) := by
  induction left with
  | zero => exact fun input ↦ .failed _
  | succ left ih =>
    intro input
    refine (h input).bind ?_ ?_
    · intro a b rest hmake
      cases a with
      | stop =>
        cases hmake
        exact .read rfl
      | value first =>
        obtain ⟨w, hfold, hmake⟩ := exists_of_bind_eq_ok hmake
        cases hmake
        exact cons hfold (ih rest)
    · intro a rest vs last refusal hmake hnext
      cases a with
      | stop => cases hmake
      | value first =>
        obtain ⟨⟨others, later⟩, -, hnext⟩ := exists_of_bind_eq_ok hnext
        cases hnext
        simp only [Hooks.foldItems, Hooks.foldItem_value_error hmake, bind, Except.bind]

theorem array (h : FollowsItem hooks plain hooked) (info : Nat) (input : Octets) :
    hooks.Follows hooks.foldItems (array plain info input) (array hooked info input) := by
  unfold Decode.array
  split
  · exact h.itemRun _ input
  · exact .bindSame _ fun count rest ↦ h.items count rest

/-- The value of an entry whose key is read, and the entries after it. -/
theorem consEntry (h : FollowsItem hooks plain hooked) {key w : Value}
    (hkey : hooks.fold key = .ok w) {others ws : Reader (List (Value × Value))}
    (hothers : ∀ input, hooks.Follows hooks.foldEntries (others input) (ws input))
    (input : Octets) :
    hooks.Follows hooks.foldEntries
      (do
        let (value, rest) ← Decode.valueOnly plain input
        let (entries, rest) ← others rest
        .ok ((key, value) :: entries, rest))
      (do
        let (value, rest) ← Decode.valueOnly hooked input
        let (entries, rest) ← ws rest
        .ok ((w, value) :: entries, rest)) := by
  refine (h.valueOnly input).bind ?_ ?_
  · intro value u rest hvalue
    refine (hothers rest).bind ?_ ?_
    · intro es us last hmake
      exact .read (by simp only [Hooks.foldEntries, hkey, hvalue, hmake, bind, Except.bind])
    · intro es last us later refusal hmake hnext
      cases hnext
      simp only [Hooks.foldEntries, hkey, hvalue, hmake, bind, Except.bind]
  · intro value rest es last refusal hvalue hnext
    obtain ⟨⟨entries, later⟩, -, hnext⟩ := exists_of_bind_eq_ok hnext
    cases hnext
    simp only [Hooks.foldEntries, hkey, hvalue, bind, Except.bind]

theorem entries (h : FollowsItem hooks plain hooked) (count : Nat) :
    ∀ input,
      hooks.Follows hooks.foldEntries (entries plain count input) (entries hooked count input) := by
  induction count with
  | zero => exact fun input ↦ .read rfl
  | succ count ih =>
    intro input
    refine (h.valueOnly input).bind ?_ ?_
    · intro key w rest hkey
      exact h.consEntry hkey ih rest
    · intro key rest es last refusal hkey hnext
      obtain ⟨⟨value, middle⟩, -, hnext⟩ := exists_of_bind_eq_ok hnext
      obtain ⟨⟨others, later⟩, -, hnext⟩ := exists_of_bind_eq_ok hnext
      cases hnext
      simp only [Hooks.foldEntries, hkey, bind, Except.bind]

theorem entryRun (h : FollowsItem hooks plain hooked) (left : Nat) :
    ∀ input,
      hooks.Follows hooks.foldEntries (entryRun plain left input) (entryRun hooked left input) := by
  induction left with
  | zero => exact fun input ↦ .failed _
  | succ left ih =>
    intro input
    refine (h input).bind ?_ ?_
    · intro a b rest hmake
      cases a with
      | stop =>
        cases hmake
        exact .read rfl
      | value key =>
        obtain ⟨w, hkey, hmake⟩ := exists_of_bind_eq_ok hmake
        cases hmake
        exact h.consEntry hkey ih rest
    · intro a rest es last refusal hmake hnext
      cases a with
      | stop => cases hmake
      | value key =>
        obtain ⟨⟨value, middle⟩, -, hnext⟩ := exists_of_bind_eq_ok hnext
        obtain ⟨⟨others, later⟩, -, hnext⟩ := exists_of_bind_eq_ok hnext
        cases hnext
        simp only [Hooks.foldEntries, Hooks.foldItem_value_error hmake, bind, Except.bind]

theorem map (h : FollowsItem hooks plain hooked) (info : Nat) (input : Octets) :
    hooks.Follows hooks.foldEntries (map plain info input) (map hooked info input) := by
  unfold Decode.map
  split
  · exact h.entryRun _ input
  · exact .bindSame _ fun count rest ↦ h.entries count rest

/-! ### Nested items -/

/-- What a simple item stands for is left to `finish` alone. -/
theorem simple (info : Nat) (input : Octets) :
    hooks.Follows (Hooks.foldItem hooks.foldInside) (simple info input) (simple info input) := by
  cases hread : Decode.simple info input with
  | error error => exact .failed error
  | ok result =>
    obtain ⟨out, rest⟩ := result
    cases out with
    | stop => exact .read rfl
    | value v =>
      obtain ⟨-, hnesting, -⟩ := Grammar.simpleAs_of_simple hread
      have hleaf : hooks.foldInside v = .ok v := by
        cases v with
        | array => cases hnesting
        | map => cases hnesting
        | tagged => cases hnesting
        | _ => rfl
      exact .read (by rw [Hooks.foldItem, hleaf]; rfl)

theorem underTag (tag : UInt64) (content : Value) {w : Value} (rest : Octets)
    (hfold : hooks.fold content = .ok w) :
    hooks.Follows (Hooks.foldItem hooks.foldInside) (.ok (.value (.tagged tag content), rest))
      (do
        let value ← underTag hooks tag w
        .ok (.value value, rest)) := by
  cases htag : Decode.underTag hooks tag w with
  | ok u =>
    refine .read ?_
    simp only [Hooks.foldItem, Hooks.foldInside, hfold, htag, bind, Except.bind]
  | error refusal =>
    refine .refused ?_ (Hooks.refuses_of_underTag htag)
    simp only [Hooks.foldItem, Hooks.foldInside, hfold, htag, bind, Except.bind]

theorem body {inner innerHooked : Option (Reader Item)}
    (h : Option.Rel (FollowsItem hooks) inner innerHooked) (major : Major) (info : Nat)
    (input : Octets) :
    hooks.Follows (Hooks.foldItem hooks.foldInside) (body .plain inner major info input)
      (body hooks innerHooked major info input) := by
  cases major with
  | unsigned => exact .bindSame _ fun n rest ↦ .read rfl
  | negative => exact .bindSame _ fun n rest ↦ .read rfl
  | octets => exact .bindSame _ fun content rest ↦ .read rfl
  | text =>
    refine .bindSame _ fun content rest ↦ ?_
    simp only
    split
    · exact .read rfl
    · exact .failed _
  | array =>
    cases h with
    | none => exact .failed _
    | some hitem =>
      exact (hitem.array info input).into fun vs ↦ by
        rw [Hooks.foldInside]
        cases hooks.foldItems vs <;> rfl
  | map =>
    cases h with
    | none => exact .failed _
    | some hitem =>
      exact (hitem.map info input).into fun es ↦ by
        rw [Hooks.foldInside]
        cases hooks.foldEntries es <;> rfl
  | tag =>
    refine .bindSame _ fun tag middle ↦ ?_
    cases h with
    | none => exact .failed _
    | some hitem =>
      refine (hitem.valueOnly middle).bind ?_ ?_
      · intro content w rest hfold
        exact underTag (UInt64.ofNat tag) content rest hfold
      · intro content rest out last refusal hfold hnext
        cases hnext
        simp only [Hooks.foldItem, Hooks.foldInside, hfold, bind, Except.bind]
  | simple => exact simple info input

theorem node {inner innerHooked : Option (Reader Item)}
    (h : Option.Rel (FollowsItem hooks) inner innerHooked) :
    FollowsItem hooks (node .plain inner) (node hooks innerHooked) := by
  intro input
  refine .bindSame _ fun (major, info) rest ↦ ?_
  refine (body h major info rest).bind ?_ ?_
  · intro a b last hmake
    cases a with
    | stop =>
      cases hmake
      exact .read rfl
    | value v =>
      obtain ⟨u, hinside, hmake⟩ := exists_of_bind_eq_ok hmake
      cases hmake
      refine .read ?_
      simp only [Hooks.foldItem, Hooks.fold_eq_foldInside, Hooks.plain, id, hinside, bind,
        Except.bind]
  · intro a last out later refusal hmake hnext
    cases a with
    | stop => cases hmake
    | value v =>
      cases hnext
      have hinside := Hooks.foldItem_value_error hmake
      simp only [Hooks.foldItem, Hooks.fold_eq_foldInside, Hooks.plain, id, hinside, bind,
        Except.bind]

end FollowsItem

/-- At any depth, reading an item with hooks is like reading it without. -/
theorem followsItem_item (hooks : Hooks) (depth : Nat) :
    FollowsItem hooks (item .plain depth) (item hooks depth) := by
  induction depth with
  | zero => exact .node .none
  | succ depth ih => exact .node (.some ih)

theorem follows_value (hooks : Hooks) (input : Octets) :
    hooks.Follows hooks.fold (value .plain input) (value hooks input) :=
  (followsItem_item hooks maxDepth).valueOnly input

end Decode

/-! ### Whole inputs -/

theorem decode_eq_ok_iff_value {hooks : Hooks} {input : Octets} {v : Value} :
    decode input hooks = .ok v ↔ ∃ rest, Decode.value hooks input = .ok (v, rest) := by
  rw [decode]
  cases Decode.value hooks input with
  | error error => simp [Except.map]
  | ok result => cases result; simp [Except.map]

theorem decode_eq_error_iff_value {hooks : Hooks} {input : Octets} {error : WireError} :
    decode input hooks = .error error ↔ Decode.value hooks input = .error error := by
  rw [decode]
  cases Decode.value hooks input <;> simp [Except.map]

theorem decode_of_ok {input : Octets} {v : Value} (hooks : Hooks) (h : decode input = .ok v) :
    decode input hooks = hooks.fold v := by
  have hfollows := Decode.follows_value hooks input
  obtain ⟨rest, hplain⟩ := decode_eq_ok_iff_value.mp h
  rw [hplain] at hfollows
  rw [decode, hfollows.of_ok]
  cases hooks.fold v <;> rfl

theorem decode_of_error {input : Octets} {error : WireError} (hooks : Hooks)
    (h : decode input = .error error) :
    decode input hooks = .error error ∨
      ∃ refusal, hooks.Refuses refusal ∧ decode input hooks = .error refusal := by
  have hfollows := Decode.follows_value hooks input
  rw [decode_eq_error_iff_value.mp h] at hfollows
  simp only [decode_eq_error_iff_value]
  exact hfollows.of_error

/-- Where no tag has a hook, reading with hooks is reading and then rebuilding, also where reading
fails. -/
theorem decodeAll_eq_map_rebuild {hooks : Hooks} (h : ∀ tag, hooks.onTag tag = none)
    (input : Octets) : decodeAll input hooks = (decodeAll input).map (·.rebuild hooks.finish) := by
  have hfollows := Decode.follows_value hooks input
  cases hplain : Decode.value .plain input with
  | error error =>
    rw [hplain] at hfollows
    rcases hfollows.of_error with hhooked | ⟨refusal, hrefuses, -⟩
    · simp only [decodeAll, hplain, hhooked, bind, Except.bind, Except.map]
    · exact absurd hrefuses (Hooks.not_refuses h refusal)
  | ok result =>
    obtain ⟨v, rest⟩ := result
    have hhooked : Decode.value hooks input = .ok (v.rebuild hooks.finish, rest) :=
      (Decode.follows_value hooks input).ok_iff.mpr ⟨v, hplain, Hooks.fold_eq_rebuild h v⟩
    simp only [decodeAll, hplain, hhooked, bind, Except.bind]
    split <;> rfl

/-- Reading with hooks succeeds exactly if reading without them does and the hooks make something of
the value that is read, the content of a node before the node. The same octets are used, so a hook
has no say in what is accepted or how deep it may nest: what the hooks make of the value is the
outcome even where they refuse it, and where reading fails without hooks it fails with them, for the
same reason unless a hook refused something before. Every node is handed to `finish` once, so if
`finish` puts a mark on each value, there is one mark to each node. -/
theorem decode_hooks_eq_fold (input : Octets) (hooks : Hooks) :
    (∀ w, decode input hooks = .ok w ↔ ∃ v, decode input = .ok v ∧ hooks.fold v = .ok w) ∧
    (∀ w rest, Decode.value hooks input = .ok (w, rest) ↔
      ∃ v, Decode.value .plain input = .ok (v, rest) ∧ hooks.fold v = .ok w) ∧
    (∀ v, decode input = .ok v → decode input hooks = hooks.fold v) ∧
    (∀ error, decode input = .error error → decode input hooks = .error error ∨
      ∃ refusal, hooks.Refuses refusal ∧ decode input hooks = .error refusal) ∧
    (∀ v mark, decode input = .ok v → ∃ w, decode input { finish := .tagged mark } = .ok w ∧
      w.count (Value.hasTag mark) = v.count (Value.hasTag mark) + v.count fun _ ↦ true) := by
  refine ⟨fun w ↦ ⟨fun h ↦ ?_, ?_⟩, fun w rest ↦ (Decode.follows_value hooks input).ok_iff,
    fun v ↦ decode_of_ok hooks, fun error ↦ decode_of_error hooks, fun v mark h ↦ ?_⟩
  · cases hplain : decode input with
    | ok v => exact ⟨v, rfl, decode_of_ok hooks hplain ▸ h⟩
    | error error =>
      rcases decode_of_error hooks hplain with herror | ⟨refusal, -, herror⟩
      · rw [herror] at h
        cases h
      · rw [herror] at h
        cases h
  · rintro ⟨v, hplain, hfold⟩
    rw [decode_of_ok hooks hplain, hfold]
  · refine ⟨v.rebuild (.tagged mark), ?_, Value.count_rebuild_tagged v⟩
    rw [decode_of_ok _ h]
    exact Hooks.fold_eq_rebuild (fun _ ↦ rfl) v

end Wireline
