import Wireline.Proofs.Wire.Hooks
import Wireline.Proofs.Wire.Scan
import Wireline.Proofs.Wire.Reencoding

/-!
# What an input can cost

An input says itself how many items a container holds, up to `2 ^ 64 - 1` of them, and of a run it
says only in the end that it is over. Neither makes reading take long or the outcome large.

For the time, the reader of items is described as a `Scan`, where a run goes on for as long as it
does and is not counted down from the number of octets as in `Decode`. It settles on what `Decode`
gives, kind by kind (`Scan.settles_body`) and level by level (`Scan.opens_itemAt`). So it ends,
after no more heads than the octets pay for.

For the space, `Value.size` counts the nodes of a value and the octets of its strings. The grammar
spends at least one octet on each of them (`Grammar.Derives.size_le`).
-/

set_option autoImplicit false
set_option relaxedAutoImplicit false

namespace Wireline

/-! ### Turns of the loops -/

namespace Decode

open Reader (done fail)

/-- The value that an item is, where a break has no place. -/
def onlyValue : Item → Reader Value
  | .value v => done v
  | .stop => fail .strayBreak

/-- The value that an item is, or nothing where a break ends the run. -/
def valueOrStop : Item → Reader (Option Value)
  | .value v => done (some v)
  | .stop => done none

def itemOrStop (item : Reader Item) : Reader (Option Value) :=
  item.andThen valueOrStop

/-- An entry of a map. -/
def entry (item : Reader Item) : Reader (Value × Value) :=
  (valueOnly item).andThen fun key ↦ (valueOnly item).andThen fun value ↦ done (key, value)

/-- An entry, or nothing where a break ends the run. -/
def entryOrStop (item : Reader Item) : Reader (Option (Value × Value)) :=
  item.andThen fun
    | .stop => done none
    | .value key => (valueOnly item).andThen fun value ↦ done (some (key, value))

/-- The rest of a chunk after its initial octet, or nothing where that was a break. -/
def chunkAfter (major chunkMajor : Major) (info : Nat) : Reader (Option Octets) :=
  if chunkMajor = .simple ∧ info = Head.indefinite then done none
  else if chunkMajor ≠ major then fail (.foreignChunk chunkMajor)
  else if info = Head.indefinite then fail .nestedRun
  else (definiteString info).andThen fun chunk ↦ done (some chunk)

/-- A chunk of an indefinite string, or nothing where a break ends the run. -/
def chunkOrStop (major : Major) : Reader (Option Octets) :=
  Reader.andThen Head.readInitial fun (chunkMajor, info) ↦ chunkAfter major chunkMajor info

theorem valueOnly_eq_andThen (item : Reader Item) : valueOnly item = item.andThen onlyValue := by
  funext input
  rw [valueOnly, Reader.andThen]
  cases item input with
  | error error => rfl
  | ok result => obtain ⟨_ | _, _⟩ := result <;> rfl

theorem items_eq_times (item : Reader Item) (count : Nat) :
    items item count = (valueOnly item).times count := by
  induction count with
  | zero => rfl
  | succ count ih =>
    funext input
    rw [items, ih]
    rfl

theorem entries_eq_times (item : Reader Item) (count : Nat) :
    entries item count = (entry item).times count := by
  induction count with
  | zero => rfl
  | succ count ih =>
    funext input
    simp only [entries, ih, Reader.times, entry, Reader.andThen, bind_assoc]
    rfl

theorem itemRun_eq_run (item : Reader Item) (left : Nat) :
    itemRun item left = (itemOrStop item).run left := by
  induction left with
  | zero => rfl
  | succ left ih =>
    funext input
    simp only [itemRun, ih, Reader.run, itemOrStop, Reader.andThen]
    cases item input with
    | error error => rfl
    | ok result => obtain ⟨_ | _, _⟩ := result <;> rfl

theorem entryRun_eq_run (item : Reader Item) (left : Nat) :
    entryRun item left = (entryOrStop item).run left := by
  induction left with
  | zero => rfl
  | succ left ih =>
    funext input
    simp only [entryRun, ih, Reader.run, entryOrStop, Reader.andThen]
    cases item input with
    | error error => rfl
    | ok result =>
      obtain ⟨key | _, rest⟩ := result
      · simp only [bind, Except.bind, Reader.andThen]
        cases valueOnly item rest <;> rfl
      · rfl

theorem chunks_succ (major : Major) (left : Nat) :
    chunks major (left + 1) = (chunkOrStop major).andThen fun
      | none => done []
      | some chunk => (chunks major left).andThen fun others ↦ done (chunk ++ others) := by
  funext input
  simp only [chunks, chunkOrStop, Reader.andThen]
  cases Head.readInitial input with
  | error error => rfl
  | ok result =>
    obtain ⟨⟨chunkMajor, info⟩, rest⟩ := result
    simp only [bind, Except.bind, chunkAfter]
    split
    · rfl
    split
    · rfl
    split
    · rfl
    simp only [Reader.andThen, bind, Except.bind]
    cases definiteString info rest <;> rfl

theorem chunks_eq_run (major : Major) (left : Nat) :
    chunks major left =
      ((chunkOrStop major).run left).andThen fun chunks ↦ done chunks.flatten := by
  induction left with
  | zero => rfl
  | succ left ih =>
    funext input
    rw [chunks_succ, ih, Reader.run]
    generalize chunkOrStop major = turn
    simp only [Reader.andThen]
    cases turn input with
    | error error => rfl
    | ok result =>
      obtain ⟨_ | chunk, rest⟩ := result
      · rfl
      simp only [bind, Except.bind, Reader.andThen, done]
      cases turn.run left rest <;> rfl

end Decode

/-! ### Scans of items -/

namespace Scan

open Decode (Item)
open Reader (done fail)

def ValueOnly (item : Scan Item) : Scan Value :=
  AndThen item fun out ↦ Straight (Decode.onlyValue out) 0

def ItemOrStop (item : Scan Item) : Scan (Option Value) :=
  AndThen item fun out ↦ Straight (Decode.valueOrStop out) 0

def Entry (item : Scan Item) : Scan (Value × Value) :=
  AndThen (ValueOnly item) fun key ↦ AndThen (ValueOnly item) fun value ↦
    Straight (done (key, value)) 0

def EntryOrStop (item : Scan Item) : Scan (Option (Value × Value)) :=
  AndThen item fun
    | .stop => Straight (done none) 0
    | .value key => AndThen (ValueOnly item) fun value ↦ Straight (done (some (key, value))) 0

def ChunkOrStop (major : Major) : Scan (Option Octets) :=
  AndThen (Straight Head.readInitial 1) fun (chunkMajor, info) ↦
    Straight (Decode.chunkAfter major chunkMajor info) 0

/-- The content of a string. -/
def Content (major : Major) (info : Nat) : Scan Octets :=
  if info = Head.indefinite then
    AndThen (Run (ChunkOrStop major)) fun chunks ↦ Straight (done chunks.flatten) 0
  else Straight (Decode.definiteString info) 0

/-- The items of an array, as many as are declared or as there are before a break. -/
def Elements (item : Scan Item) (info : Nat) : Scan (List Value) :=
  if info = Head.indefinite then Run (ItemOrStop item)
  else AndThen (Straight (Head.readArgument info) 0) (Times (ValueOnly item))

/-- The entries of a map. -/
def Entries (item : Scan Item) (info : Nat) : Scan (List (Value × Value)) :=
  if info = Head.indefinite then Run (EntryOrStop item)
  else AndThen (Straight (Head.readArgument info) 0) (Times (Entry item))

/-- The item that octets of text make up. -/
def textItem (octets : Octets) : Reader Item := fun rest ↦
  match Text.ofOctets? octets with
  | some text => .ok (.value (.text text), rest)
  | none => .error .invalidText

/-- The item that a content under a tag makes up. -/
def tagItem (hooks : Hooks) (tag : Nat) (content : Value) : Reader Item := fun rest ↦ do
  let value ← Decode.underTag hooks (UInt64.ofNat tag) content
  .ok (.value value, rest)

/-- What is read inside a container, if nesting allows for one. -/
def Inside {α : Type} (inner : Option (Scan Item)) (content : Scan Item → Scan α) :
    Scan α :=
  match inner with
  | some item => content item
  | none => Straight (fail (.tooDeep maxDepth)) 0

/-- An item of a given kind after its initial octet. -/
def Body (hooks : Hooks) (inner : Option (Scan Item)) (major : Major) (info : Nat) :
    Scan Item :=
  match major with
  | .octets => AndThen (Content .octets info) fun octets ↦
      Straight (done (.value (.octets octets))) 0
  | .text => AndThen (Content .text info) fun octets ↦ Straight (textItem octets) 0
  | .array => AndThen (Inside inner fun item ↦ Elements item info) fun values ↦
      Straight (done (.value (.array values))) 0
  | .map => AndThen (Inside inner fun item ↦ Entries item info) fun pairs ↦
      Straight (done (.value (.map pairs))) 0
  | .tag => AndThen (Straight (Head.readArgument info) 0) fun tag ↦
      AndThen (Inside inner ValueOnly) fun content ↦ Straight (tagItem hooks tag content) 0
  | .unsigned | .negative | .simple => Straight (Decode.body hooks none major info) 0

/-- The item as hooks leave it. -/
def finished (hooks : Hooks) : Item → Reader Item
  | .value v => done (.value (hooks.finish v))
  | .stop => done .stop

/-- One item. -/
def Node (hooks : Hooks) (inner : Option (Scan Item)) : Scan Item :=
  AndThen (Straight Head.readInitial 1) fun (major, info) ↦
    AndThen (Body hooks inner major info) fun out ↦ Straight (finished hooks out) 0

/-- One item that may hold others to a given depth. -/
def ItemAt (hooks : Hooks) : (depth : Nat) → Scan Item
  | 0 => Node hooks none
  | depth + 1 => Node hooks (some (ItemAt hooks depth))

/-- One value from the front. -/
def FirstValue (hooks : Hooks) : Scan Value :=
  ValueOnly (ItemAt hooks maxDepth)

/-! ### What they settle on -/

theorem opens_readInitial : Opens (Straight Head.readInitial 1) Head.readInitial where
  ends _ := ⟨1, rfl, rfl⟩
  outcome_eq := And.left
  used := by
    rintro input ⟨major, info⟩ rest heads ⟨houtcome, rfl⟩
    obtain ⟨-, rfl⟩ := Head.initial_of_readInitial houtcome.symm
    exact Nat.le_of_eq (Nat.add_comm _ _)
  begun := by
    rintro input error heads ⟨-, rfl⟩
    exact Nat.le_add_left _ _
  heads_pos := by
    rintro input outcome heads ⟨-, rfl⟩
    exact Nat.zero_lt_one
  nil := rfl

theorem settles_readArgument (info : Nat) :
    Settles (Straight (Head.readArgument info) 0) (Head.readArgument info) := by
  refine settles_straight fun hread ↦ ?_
  obtain ⟨octets, rfl, -⟩ := Grammar.argument_of_readArgument hread
  exact (List.suffix_append octets _).length_le

theorem settles_definiteString (info : Nat) :
    Settles (Straight (Decode.definiteString info) 0) (Decode.definiteString info) := by
  refine settles_straight fun {input content rest} hread ↦ ?_
  obtain ⟨octets, rfl, -⟩ := Grammar.argument_of_definiteString hread
  simp only [List.length_append]
  omega

theorem settles_chunkAfter (major chunkMajor : Major) (info : Nat) :
    Settles (Straight (Decode.chunkAfter major chunkMajor info) 0)
      (Decode.chunkAfter major chunkMajor info) := by
  refine settles_straight fun {input found rest} hread ↦ ?_
  unfold Decode.chunkAfter at hread
  split at hread
  · exact (settles_done none).length_le hread
  split at hread
  · cases hread
  split at hread
  · cases hread
  · exact ((settles_definiteString info).andThen fun chunk ↦ settles_done (some chunk)).length_le
      hread

theorem settles_onlyValue (out : Item) :
    Settles (Straight (Decode.onlyValue out) 0) (Decode.onlyValue out) := by
  cases out with
  | value v => exact settles_done v
  | stop => exact settles_fail .strayBreak

theorem settles_valueOrStop (out : Item) :
    Settles (Straight (Decode.valueOrStop out) 0) (Decode.valueOrStop out) := by
  cases out with
  | value v => exact settles_done (some v)
  | stop => exact settles_done none

theorem settles_textItem (octets : Octets) :
    Settles (Straight (textItem octets) 0) (textItem octets) := by
  refine settles_straight fun hread ↦ ?_
  unfold textItem at hread
  split at hread
  · cases hread
    exact Nat.le_refl _
  · cases hread

theorem settles_tagItem (hooks : Hooks) (tag : Nat) (content : Value) :
    Settles (Straight (tagItem hooks tag content) 0) (tagItem hooks tag content) := by
  refine settles_straight fun hread ↦ ?_
  obtain ⟨value, -, hread⟩ := exists_of_bind_eq_ok hread
  cases hread
  exact Nat.le_refl _

theorem settles_finished (hooks : Hooks) (out : Item) :
    Settles (Straight (finished hooks out) 0) (finished hooks out) := by
  cases out with
  | value v => exact settles_done _
  | stop => exact settles_done Item.stop

/-- What holds no other items is read straight on. -/
theorem settles_leaf (hooks : Hooks) (major : Major) (info : Nat) :
    Settles (Straight (Decode.body hooks none major info) 0)
      (Decode.body hooks none major info) := by
  refine settles_straight fun {input out rest} hread ↦ ?_
  cases out with
  | stop =>
    obtain ⟨-, -, rfl⟩ := Grammar.body_stop hread
    exact Nat.le_refl _
  | value v =>
    have hclosed : ∀ item, none = some item →
        ∃ level, 0 = level + 1 ∧ Grammar.Sound hooks level item := nofun
    obtain ⟨tail, -, rfl, -⟩ := Grammar.body_value hclosed hread
    exact (List.suffix_append tail rest).length_le

section Items

variable {item : Scan Item} {reader : Reader Item}

theorem Settles.valueOnly (h : Settles item reader) :
    Settles (ValueOnly item) (Decode.valueOnly reader) := by
  rw [Decode.valueOnly_eq_andThen]
  exact h.andThen settles_onlyValue

theorem Opens.itemOrStop (h : Opens item reader) :
    Opens (ItemOrStop item) (Decode.itemOrStop reader) :=
  h.andThen settles_valueOrStop

theorem Settles.entry (h : Settles item reader) : Settles (Entry item) (Decode.entry reader) :=
  h.valueOnly.andThen fun key ↦ h.valueOnly.andThen fun value ↦ settles_done (key, value)

theorem Opens.entryOrStop (h : Opens item reader) :
    Opens (EntryOrStop item) (Decode.entryOrStop reader) := by
  refine h.andThen fun out ↦ ?_
  cases out with
  | value key => exact h.valueOnly.andThen fun value ↦ settles_done (some (key, value))
  | stop => exact settles_done none

theorem opens_chunkOrStop (major : Major) :
    Opens (ChunkOrStop major) (Decode.chunkOrStop major) :=
  opens_readInitial.andThen fun (chunkMajor, info) ↦ settles_chunkAfter major chunkMajor info

theorem settles_content (major : Major) (info : Nat) :
    Settles (Content major info) (Decode.string major info) := by
  by_cases hindefinite : info = Head.indefinite
  · have heq : Decode.string major info =
        (Decode.chunkOrStop major).loop.andThen fun chunks ↦ done chunks.flatten := by
      funext input
      rw [Decode.string, if_pos hindefinite, Decode.chunks_eq_run]
      rfl
    rw [heq, Content, if_pos hindefinite]
    exact (opens_chunkOrStop major).run.andThen fun chunks ↦ settles_done chunks.flatten
  · have heq : Decode.string major info = Decode.definiteString info := by
      funext input
      rw [Decode.string, if_neg hindefinite]
    rw [heq, Content, if_neg hindefinite]
    exact settles_definiteString info

theorem Opens.elements (h : Opens item reader) (info : Nat) :
    Settles (Elements item info) (Decode.array reader info) := by
  by_cases hindefinite : info = Head.indefinite
  · have heq : Decode.array reader info = (Decode.itemOrStop reader).loop := by
      funext input
      rw [Decode.array, if_pos hindefinite, Decode.itemRun_eq_run]
      rfl
    rw [heq, Elements, if_pos hindefinite]
    exact h.itemOrStop.run
  · have heq : Decode.array reader info =
        Reader.andThen (Head.readArgument info) (Decode.valueOnly reader).times := by
      funext input
      simp only [Decode.array, if_neg hindefinite, Decode.items_eq_times]
      rfl
    rw [heq, Elements, if_neg hindefinite]
    exact (settles_readArgument info).andThen h.valueOnly.times

theorem Opens.entries (h : Opens item reader) (info : Nat) :
    Settles (Entries item info) (Decode.map reader info) := by
  by_cases hindefinite : info = Head.indefinite
  · have heq : Decode.map reader info = (Decode.entryOrStop reader).loop := by
      funext input
      rw [Decode.map, if_pos hindefinite, Decode.entryRun_eq_run]
      rfl
    rw [heq, Entries, if_pos hindefinite]
    exact h.entryOrStop.run
  · have heq : Decode.map reader info =
        Reader.andThen (Head.readArgument info) (Decode.entry reader).times := by
      funext input
      simp only [Decode.map, if_neg hindefinite, Decode.entries_eq_times]
      rfl
    rw [heq, Entries, if_neg hindefinite]
    exact (settles_readArgument info).andThen h.toSettles.entry.times

end Items

section Body

variable {hooks : Hooks} {inner : Option (Scan Item)} {readers : Option (Reader Item)}

theorem settles_body (h : Option.Rel Opens inner readers) (major : Major) (info : Nat) :
    Settles (Body hooks inner major info) (Decode.body hooks readers major info) := by
  cases major with
  | unsigned | negative | simple => exact settles_leaf hooks _ info
  | octets =>
    exact (settles_content .octets info).andThen fun octets ↦ settles_done _
  | text => exact (settles_content .text info).andThen settles_textItem
  | array =>
    cases h with
    | none => exact (settles_fail (.tooDeep maxDepth)).andThen fun values ↦ settles_done _
    | some hitem => exact (hitem.elements info).andThen fun values ↦ settles_done _
  | map =>
    cases h with
    | none => exact (settles_fail (.tooDeep maxDepth)).andThen fun pairs ↦ settles_done _
    | some hitem => exact (hitem.entries info).andThen fun pairs ↦ settles_done _
  | tag =>
    cases h with
    | none =>
      exact (settles_readArgument info).andThen fun tag ↦
        (settles_fail (.tooDeep maxDepth)).andThen (settles_tagItem hooks tag)
    | some hitem =>
      exact (settles_readArgument info).andThen fun tag ↦
        hitem.valueOnly.andThen (settles_tagItem hooks tag)

theorem opens_node (h : Option.Rel Opens inner readers) :
    Opens (Node hooks inner) (Decode.node hooks readers) := by
  have heq : Decode.node hooks readers = Reader.andThen Head.readInitial fun head ↦
      (Decode.body hooks readers head.1 head.2).andThen (finished hooks) := by
    funext input
    simp only [Decode.node, Reader.andThen]
    cases Head.readInitial input with
    | error error => rfl
    | ok result =>
      obtain ⟨⟨major, info⟩, rest⟩ := result
      simp only [bind, Except.bind]
      cases Decode.body hooks readers major info rest with
      | error error => rfl
      | ok result => obtain ⟨_ | _, _⟩ := result <;> rfl
  rw [heq]
  exact opens_readInitial.andThen fun head ↦
    (settles_body h head.1 head.2).andThen (settles_finished hooks)

end Body

/-- Items of any depth are read to an end, one more level at a time. -/
theorem opens_itemAt (hooks : Hooks) (depth : Nat) :
    Opens (ItemAt hooks depth) (Decode.item hooks depth) := by
  induction depth with
  | zero => exact opens_node .none
  | succ depth ih => exact opens_node (.some ih)

theorem settles_firstValue (hooks : Hooks) :
    Settles (FirstValue hooks) (Decode.value hooks) :=
  (opens_itemAt hooks maxDepth).valueOnly

end Scan

/-! ### The size of what is read -/

namespace Value

mutual

/-- How many nodes a value has, map keys included, and octets its strings have, together. -/
def size : Value → Nat
  | .octets o => o.length + 1
  | .text t => (Text.octets t).length + 1
  | .array items => sizeOfItems items + 1
  | .map entries => sizeOfEntries entries + 1
  | .tagged _ content => content.size + 1
  | _ => 1

def sizeOfItems : List Value → Nat
  | [] => 0
  | item :: items => item.size + sizeOfItems items

def sizeOfEntries : List (Value × Value) → Nat
  | [] => 0
  | (key, value) :: entries => key.size + value.size + sizeOfEntries entries

end

end Value

namespace Grammar

/-- The size of what a phrase holds. -/
def Phrase.size : Phrase → Nat
  | .value v => v.size
  | .items values => Value.sizeOfItems values
  | .entries pairs => Value.sizeOfEntries pairs

/-- Each node is paid for by an initial octet, and a string by its content as well. -/
theorem Derives.size_le {wire : Octets} {phrase : Phrase} (h : Derives wire phrase) :
    phrase.size ≤ wire.length := by
  induction h with
  | unsigned h | negative h => exact h.length_pos
  | octets h | text h => exact h.length_lt
  | array hhead _ ih | map hhead _ ih | tagged hhead _ ih =>
    have hpos := hhead.length_pos
    simp only [Phrase.size, Value.size, List.length_append] at ih ⊢
    omega
  | arrayRun _ ih | mapRun _ ih =>
    simp only [Phrase.size, Value.size, List.length_cons, List.length_append] at ih ⊢
    omega
  | no | yes | null | undefined | half | single | double => exact Nat.succ_le_succ (Nat.zero_le _)
  | noItems | noEntries => exact Nat.le_refl 0
  | moreItems _ _ ihitem ihitems =>
    simp only [Phrase.size, Value.sizeOfItems, List.length_append] at ihitem ihitems ⊢
    omega
  | moreEntries _ _ _ ihkey ihvalue ihentries =>
    simp only [Phrase.size, Value.sizeOfEntries, List.length_append] at ihkey ihvalue ihentries ⊢
    omega

end Grammar

/-- Whatever counts and lengths an input declares, reading it comes to an end, with the outcome that
`Decode.value` gives, after it has begun at most one head more than the input has octets. A value
that is read without hooks from the front of the input is no larger than the octets that were used
for it, and nests no deeper than the limit. -/
theorem decode_cost (input : Octets) :
    (∀ hooks, ∃ heads, Scan.FirstValue hooks input (Decode.value hooks input) heads) ∧
    (∀ hooks outcome heads, Scan.FirstValue hooks input outcome heads →
      outcome = Decode.value hooks input ∧ heads ≤ input.length + 1) ∧
    (∀ v, decode input = .ok v → ∃ used, used ≤ input.length ∧
      Decode.value .plain input = .ok (v, input.drop used) ∧ v.size ≤ used ∧
      v.nesting 0 ≤ 256) := by
  refine ⟨fun hooks ↦ ?_, fun hooks outcome heads hscan ↦ ?_, fun v hread ↦ ?_⟩
  · exact (Scan.settles_firstValue hooks).ends input
  · have hsettles := Scan.settles_firstValue hooks
    refine ⟨hsettles.outcome_eq hscan, ?_⟩
    cases outcome with
    | error error => exact hsettles.begun hscan
    | ok result =>
      have hused := hsettles.used hscan
      omega
  · obtain ⟨rest, hvalue⟩ := decode_eq_ok_iff_value.mp hread
    obtain ⟨wire, u, rfl, hderives, hnesting, hfold⟩ := Grammar.value_eq_ok_iff.mp hvalue
    cases (Hooks.fold_plain u).symm.trans hfold
    refine ⟨wire.length, (List.prefix_append wire rest).length_le, ?_, hderives.size_le, hnesting⟩
    rw [List.drop_left]
    exact hvalue

/-- An array that declares as many items as a word can count, and has none. -/
example : decode [0x9b, 0xff, 0xff, 0xff, 0xff, 0xff, 0xff, 0xff, 0xff] =
    .error (.outOfOctets 1 0) := by
  rfl

end Wireline
