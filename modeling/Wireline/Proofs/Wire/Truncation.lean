import Wireline.Proofs.Wire.Hooks

/-!
# Inputs cut short and inputs that go on

A reader takes octets from the front and never looks at where the input ends, except to find that
it ends too soon. So what it makes of an input it makes of every longer one (`Reader.Prolongs`): the
same thing is read, with the further octets left over, or the same error is found. Only where the
input ran out may more of it change the outcome, and then fewer octets were left than were needed.

This goes through two steps one after the other (`Reader.Prolongs.bind`), so it holds of heads,
strings and containers, and of items of any depth (`stable_item`). An indefinite run counts down
from the length of the input, and a longer input lets it count from further up, so runs are compared
with any two counts (`Extends`). What follows for whole inputs is `decode_truncated_or_extended`.
-/

set_option autoImplicit false
set_option relaxedAutoImplicit false

namespace Wireline

namespace Reader

/-- The outcome of reading an input against that of reading it with `more` after it. -/
inductive Prolongs (more : Octets) {α : Type} :
    Except WireError (α × Octets) → Except WireError (α × Octets) → Prop
  | read (a : α) (rest : Octets) : Prolongs more (.ok (a, rest)) (.ok (a, rest ++ more))
  | failed {error : WireError} (h : error.isRange = false) :
      Prolongs more (.error error) (.error error)
  /-- With more octets anything may come of it. -/
  | short {needed available : Nat} (h : available < needed)
      (outcome : Except WireError (α × Octets)) :
      Prolongs more (.error (.outOfOctets needed available)) outcome

namespace Prolongs

variable {more : Octets} {α β : Type}

theorem bind {short long : Except WireError (α × Octets)}
    {next nextLong : α × Octets → Except WireError (β × Octets)} (h : Prolongs more short long)
    (hnext : ∀ a rest, Prolongs more (next (a, rest)) (nextLong (a, rest ++ more))) :
    Prolongs more (short >>= next) (long >>= nextLong) := by
  cases h with
  | read a rest => exact hnext a rest
  | failed h => exact .failed h
  | short h outcome => exact .short h _

/-- A choice that does not look at the input. -/
theorem ite {c : Prop} [Decidable c] {short long other otherLong : Except WireError (α × Octets)}
    (hthen : c → Prolongs more short long) (helse : ¬ c → Prolongs more other otherLong) :
    Prolongs more (if c then short else other) (if c then long else otherLong) := by
  by_cases h : c
  · rw [if_pos h, if_pos h]
    exact hthen h
  · rw [if_neg h, if_neg h]
    exact helse h

theorem of_read {long : Except WireError (α × Octets)} {a : α} {rest : Octets}
    (h : Prolongs more (.ok (a, rest)) long) : long = .ok (a, rest ++ more) := by
  cases h
  rfl

theorem of_failed {long : Except WireError (α × Octets)} {error : WireError}
    (h : Prolongs more (.error error) long) (hrange : error.isRange = false) :
    long = .error error := by
  cases h with
  | failed => rfl
  | short => cases hrange

theorem lt_of_short {needed available : Nat} {long : Except WireError (α × Octets)}
    (h : Prolongs more (.error (.outOfOctets needed available)) long) : available < needed := by
  cases h with
  | failed h => cases h
  | short h => exact h

end Prolongs

/-- The second reader makes of a longer input what the first one makes of its front. -/
def Extends {α : Type} (short long : Reader α) : Prop :=
  ∀ input more, Prolongs more (short input) (long (input ++ more))

/-- The reader makes of a longer input what it makes of its front. -/
def Stable {α : Type} (reader : Reader α) : Prop :=
  Extends reader reader

theorem stable_take (count : Nat) : Stable (take count) := by
  intro input more
  unfold take
  split
  · next hcount =>
    have hlonger : count ≤ (input ++ more).length := by
      rw [List.length_append]
      omega
    rw [if_pos hlonger, List.take_append_of_le_length hcount, List.drop_append_of_le_length hcount]
    exact .read _ _
  · next hcount => exact .short (Nat.lt_of_not_le hcount) _

theorem unsigned_eq_take (width : Nat) (input : Octets) :
    unsigned width input = (do
      let (octets, rest) ← take width input
      .ok (octets.toNat, rest)) := by
  unfold unsigned
  cases take width input <;> rfl

theorem stable_unsigned (width : Nat) : Stable (unsigned width) := by
  intro input more
  rw [unsigned_eq_take, unsigned_eq_take]
  exact (stable_take width input more).bind fun octets rest ↦ .read _ rest

end Reader

/-! ### Heads and strings -/

namespace Head

open Reader

theorem stable_readInitial : Stable readInitial := by
  intro input more
  cases input with
  | nil => exact .short Nat.zero_lt_one _
  | cons octet rest => exact .read _ rest

theorem stable_readArgument (info : Nat) : Stable (readArgument info) := by
  intro input more
  refine .ite (fun _ ↦ .read info input) fun _ ↦ ?_
  refine .ite (fun _ ↦ stable_unsigned 1 input more) fun _ ↦ ?_
  refine .ite (fun _ ↦ stable_unsigned 2 input more) fun _ ↦ ?_
  refine .ite (fun _ ↦ stable_unsigned 4 input more) fun _ ↦ ?_
  exact .ite (fun _ ↦ stable_unsigned 8 input more) fun _ ↦ .failed rfl

end Head

namespace Decode

open Reader

theorem stable_definiteString (info : Nat) : Stable (definiteString info) := by
  intro input more
  exact (Head.stable_readArgument info input more).bind fun length rest ↦
    stable_take length rest more

/-- A count that is not used up makes no difference, and one that is used up has run out of octets
too. -/
theorem chunks_extends {major : Major} (left : Nat) :
    ∀ longer, left ≤ longer → Extends (chunks major left) (chunks major longer) := by
  induction left with
  | zero => exact fun longer _ input more ↦ .short Nat.zero_lt_one _
  | succ left ih =>
    intro longer hleft input more
    obtain ⟨longer, rfl⟩ := Nat.exists_eq_succ_of_ne_zero (Nat.ne_of_gt (Nat.zero_lt_of_lt hleft))
    refine (Head.stable_readInitial input more).bind fun (chunkMajor, info) rest ↦ ?_
    refine .ite (fun _ ↦ .read [] rest) fun _ ↦ ?_
    refine .ite (fun _ ↦ .failed rfl) fun _ ↦ ?_
    refine .ite (fun _ ↦ .failed rfl) fun _ ↦ ?_
    refine (stable_definiteString info rest more).bind fun chunk middle ↦ ?_
    exact (ih longer (Nat.le_of_succ_le_succ hleft) middle more).bind fun others last ↦
      .read _ last

theorem stable_string (major : Major) (info : Nat) : Stable (string major info) := by
  intro input more
  refine .ite (fun _ ↦ ?_) fun _ ↦ stable_definiteString info input more
  exact chunks_extends _ _ (List.length_append ▸ Nat.le_add_right _ _) input more

/-! ### Containers -/

section Containers

variable {item : Reader Item}

theorem stable_valueOnly (h : Stable item) : Stable (valueOnly item) := by
  intro input more
  refine (h input more).bind fun out rest ↦ ?_
  cases out with
  | value v => exact .read v rest
  | stop => exact .failed rfl

theorem stable_items (h : Stable item) (count : Nat) : Stable (items item count) := by
  induction count with
  | zero => exact fun input more ↦ .read [] input
  | succ count ih =>
    intro input more
    refine (stable_valueOnly h input more).bind fun first rest ↦ ?_
    exact (ih rest more).bind fun others last ↦ .read _ last

theorem itemRun_extends (h : Stable item) (left : Nat) :
    ∀ longer, left ≤ longer → Extends (itemRun item left) (itemRun item longer) := by
  induction left with
  | zero => exact fun longer _ input more ↦ .short Nat.zero_lt_one _
  | succ left ih =>
    intro longer hleft input more
    obtain ⟨longer, rfl⟩ := Nat.exists_eq_succ_of_ne_zero (Nat.ne_of_gt (Nat.zero_lt_of_lt hleft))
    refine (h input more).bind fun out rest ↦ ?_
    cases out with
    | stop => exact .read [] rest
    | value first =>
      exact (ih longer (Nat.le_of_succ_le_succ hleft) rest more).bind fun others last ↦
        .read _ last

theorem stable_array (h : Stable item) (info : Nat) : Stable (array item info) := by
  intro input more
  refine .ite (fun _ ↦ ?_) fun _ ↦ ?_
  · exact itemRun_extends h _ _ (List.length_append ▸ Nat.le_add_right _ _) input more
  · exact (Head.stable_readArgument info input more).bind fun count rest ↦
      stable_items h count rest more

theorem stable_entries (h : Stable item) (count : Nat) : Stable (entries item count) := by
  induction count with
  | zero => exact fun input more ↦ .read [] input
  | succ count ih =>
    intro input more
    refine (stable_valueOnly h input more).bind fun key rest ↦ ?_
    refine (stable_valueOnly h rest more).bind fun value middle ↦ ?_
    exact (ih middle more).bind fun others last ↦ .read _ last

theorem entryRun_extends (h : Stable item) (left : Nat) :
    ∀ longer, left ≤ longer → Extends (entryRun item left) (entryRun item longer) := by
  induction left with
  | zero => exact fun longer _ input more ↦ .short Nat.zero_lt_one _
  | succ left ih =>
    intro longer hleft input more
    obtain ⟨longer, rfl⟩ := Nat.exists_eq_succ_of_ne_zero (Nat.ne_of_gt (Nat.zero_lt_of_lt hleft))
    refine (h input more).bind fun out rest ↦ ?_
    cases out with
    | stop => exact .read [] rest
    | value key =>
      refine (stable_valueOnly h rest more).bind fun value middle ↦ ?_
      exact (ih longer (Nat.le_of_succ_le_succ hleft) middle more).bind fun others last ↦
        .read _ last

theorem stable_map (h : Stable item) (info : Nat) : Stable (map item info) := by
  intro input more
  refine .ite (fun _ ↦ ?_) fun _ ↦ ?_
  · exact entryRun_extends h _ _ (List.length_append ▸ Nat.le_add_right _ _) input more
  · exact (Head.stable_readArgument info input more).bind fun count rest ↦
      stable_entries h count rest more

end Containers

/-! ### Items -/

theorem stable_simple (info : Nat) : Stable (simple info) := by
  intro input more
  refine .ite (fun _ ↦ .read _ input) fun _ ↦ ?_
  refine .ite (fun _ ↦ .read _ input) fun _ ↦ ?_
  refine .ite (fun _ ↦ .read _ input) fun _ ↦ ?_
  refine .ite (fun _ ↦ .read _ input) fun _ ↦ ?_
  refine .ite (fun _ ↦ ?_) fun _ ↦ ?_
  · exact (stable_unsigned 2 input more).bind fun word rest ↦ .read _ rest
  refine .ite (fun _ ↦ ?_) fun _ ↦ ?_
  · exact (stable_unsigned 4 input more).bind fun word rest ↦ .read _ rest
  refine .ite (fun _ ↦ ?_) fun _ ↦ ?_
  · exact (stable_unsigned 8 input more).bind fun word rest ↦ .read _ rest
  refine .ite (fun _ ↦ .read _ input) fun _ ↦ ?_
  exact .ite (fun _ ↦ .failed rfl) fun _ ↦ .failed rfl

section Item

variable {hooks : Hooks}

theorem stable_body (hhooks : ∀ error, hooks.Refuses error → error.isRange = false)
    {inner : Option (Reader Item)} (h : ∀ item, inner = some item → Stable item) (major : Major)
    (info : Nat) : Stable (body hooks inner major info) := by
  intro input more
  cases major with
  | unsigned => exact (Head.stable_readArgument info input more).bind fun n rest ↦ .read _ rest
  | negative => exact (Head.stable_readArgument info input more).bind fun n rest ↦ .read _ rest
  | octets => exact (stable_string .octets info input more).bind fun content rest ↦ .read _ rest
  | text =>
    refine (stable_string .text info input more).bind fun content rest ↦ ?_
    simp only
    split
    · exact .read _ rest
    · exact .failed rfl
  | array =>
    cases inner with
    | none => exact .failed rfl
    | some item =>
      exact (stable_array (h item rfl) info input more).bind fun values rest ↦ .read _ rest
  | map =>
    cases inner with
    | none => exact .failed rfl
    | some item =>
      exact (stable_map (h item rfl) info input more).bind fun pairs rest ↦ .read _ rest
  | tag =>
    refine (Head.stable_readArgument info input more).bind fun tag middle ↦ ?_
    cases inner with
    | none => exact .failed rfl
    | some item =>
      refine (stable_valueOnly (h item rfl) middle more).bind fun content rest ↦ ?_
      simp only
      cases hvalue : underTag hooks (UInt64.ofNat tag) content with
      | ok v => exact .read _ rest
      | error error => exact .failed (hhooks error (Hooks.refuses_of_underTag hvalue))
  | simple => exact stable_simple info input more

theorem stable_node (hhooks : ∀ error, hooks.Refuses error → error.isRange = false)
    {inner : Option (Reader Item)} (h : ∀ item, inner = some item → Stable item) :
    Stable (node hooks inner) := by
  intro input more
  refine (Head.stable_readInitial input more).bind fun (major, info) rest ↦ ?_
  refine (stable_body hhooks h major info rest more).bind fun out last ↦ ?_
  cases out with
  | value v => exact .read _ last
  | stop => exact .read _ last

/-- Items of any depth are read the same whatever follows them, if no hook refuses a content as if
octets were missing. -/
theorem stable_item (hhooks : ∀ error, hooks.Refuses error → error.isRange = false)
    (depth : Nat) : Stable (item hooks depth) := by
  induction depth with
  | zero => exact stable_node hhooks fun item h ↦ by cases h
  | succ depth ih =>
    refine stable_node hhooks fun item h ↦ ?_
    cases h
    exact ih

end Item

/-- Without hooks there is nothing that could refuse a content. -/
theorem stable_value : Stable (value .plain) :=
  stable_valueOnly (stable_item (fun error h ↦ absurd h (Hooks.not_refuses (fun _ ↦ rfl) error))
    maxDepth)

end Decode

/-! ### Whole inputs -/

open Reader

/-- Of the octets of a value none can be spared: without the last ones, reading runs out. -/
theorem value_of_cut {first last : Octets} {v : Value} (hlast : last ≠ [])
    (h : Decode.value .plain (first ++ last) = .ok (v, [])) :
    ∃ needed available, Decode.value .plain first = .error (.outOfOctets needed available) := by
  have hstable := Decode.stable_value first last
  rw [h] at hstable
  cases hcut : Decode.value .plain first with
  | ok result =>
    rw [hcut] at hstable
    -- what is left of the first octets and the last ones would be left of both, where nothing is
    have hrest := hstable.of_read
    simp only [Except.ok.injEq, Prod.mk.injEq, List.nil_eq, List.append_eq_nil_iff] at hrest
    exact absurd hrest.2.2 hlast
  | error error =>
    rw [hcut] at hstable
    cases hstable with
    | short hlt => exact ⟨_, _, rfl⟩

/-- Reading a whole input runs out of octets only where reading from its front does. -/
theorem value_of_decodeAll_short {input : Octets} {needed available : Nat}
    (h : decodeAll input = .error (.outOfOctets needed available)) :
    Decode.value .plain input = .error (.outOfOctets needed available) := by
  rw [decodeAll] at h
  cases hvalue : Decode.value .plain input with
  | error error =>
    rw [hvalue] at h
    cases h
    rfl
  | ok result =>
    rw [hvalue] at h
    simp only [bind, Except.bind] at h
    split at h <;> cases h

/-- An input that is read from the front begins with the octets that are used. From any fewer of
them reading runs out of octets. Whatever stands after them instead, the same value is read, and if
the whole input was to be one value then what stands after it is counted as trailing. An error other
than running out stays the same however the input goes on, and running out means that fewer octets
were left than were needed. -/
theorem decode_truncated_or_extended (input : Octets) :
    (∀ v, decode input = .ok v → ∃ used, used ≤ input.length ∧
      Decode.value .plain input = .ok (v, input.drop used) ∧
      (∀ fewer, fewer < used → ∃ needed available,
        decode (input.take fewer) = .error (.outOfOctets needed available)) ∧
      (∀ more, decode (input.take used ++ more) = .ok v) ∧
      (∀ more, more ≠ [] →
        decodeAll (input.take used ++ more) = .error (.trailing more.length))) ∧
    (∀ error, decode input = .error error → error.isRange = false →
      ∀ more, decode (input ++ more) = .error error) ∧
    (∀ needed available, decode input = .error (.outOfOctets needed available) ∨
      decodeAll input = .error (.outOfOctets needed available) → available < needed) := by
  refine ⟨fun v h ↦ ?_, fun error h hrange more ↦ ?_, fun needed available h ↦ ?_⟩
  · obtain ⟨rest, hvalue⟩ := decode_eq_ok_iff_value.mp h
    obtain ⟨wire, u, rfl, hderives⟩ := Grammar.value_eq_ok_iff.mp hvalue
    have hread (more : Octets) : Decode.value .plain (wire ++ more) = .ok (v, more) :=
      Grammar.value_eq_ok_iff.mpr ⟨wire, u, rfl, hderives⟩
    refine ⟨wire.length, by simp, ?_, fun fewer hfewer ↦ ?_, fun more ↦ ?_, fun more hmore ↦ ?_⟩
    · rw [List.drop_left]
      exact hvalue
    · have hsplit : wire.take fewer ++ wire.drop fewer = wire ++ [] := by
        rw [List.take_append_drop, List.append_nil]
      have hdropped : wire.drop fewer ≠ [] := by
        rw [Ne, List.drop_eq_nil_iff]
        omega
      obtain ⟨needed, available, hshort⟩ := value_of_cut hdropped (hsplit ▸ hread [])
      refine ⟨needed, available, ?_⟩
      rw [List.take_append_of_le_length (Nat.le_of_lt hfewer)]
      exact decode_eq_error_iff_value.mpr hshort
    · rw [List.take_left]
      exact decode_eq_ok_iff_value.mpr ⟨more, hread more⟩
    · rw [List.take_left]
      simp only [decodeAll, hread more, bind, Except.bind, List.isEmpty_eq_false_iff.mpr hmore,
        Bool.false_eq_true, if_false]
  · have hstable := Decode.stable_value input more
    rw [decode_eq_error_iff_value.mp h] at hstable
    exact decode_eq_error_iff_value.mpr (hstable.of_failed hrange)
  · have hstable := Decode.stable_value input []
    have hvalue : Decode.value .plain input = .error (.outOfOctets needed available) :=
      h.elim decode_eq_error_iff_value.mp value_of_decodeAll_short
    rw [hvalue] at hstable
    exact hstable.lt_of_short

end Wireline
