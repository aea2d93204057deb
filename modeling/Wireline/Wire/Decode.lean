import Wireline.Text.Utf8
import Wireline.Value.Basic
import Wireline.Wire.Head

/-!
# Reading values

`decode` reads one value from the front of a sequence of octets and `decodeAll` one that takes up
all of it. Arrays, maps and tags nest at most `maxDepth` deep.

`Hooks` may change what is read on the way out: a hook on a tag sees the content of that tag, and
`finish` sees every value, contents before their containers and the result of a tag's hook too. A
break is not a value, and no hook sees it.

An item is read by `node`, which gets the reader for the items inside it as an argument, or none
where nesting has reached the limit. Indefinite runs count down from the number of octets that are
left, which every item uses at least one of; where the count is used up nothing is left, and the run
has no end.
-/

set_option autoImplicit false
set_option relaxedAutoImplicit false

namespace Wireline

/-- What to do to values while they are read. -/
structure Hooks where
  /-- Applied to every value once all inside it is read. -/
  finish : Value → Value := id
  /-- What replaces a value under a given tag, computed from its content. -/
  onTag : UInt64 → Option (Value → Except WireError Value) := fun _ ↦ none

/-- No hooks: values come out as they are written. -/
def Hooks.plain : Hooks := {}

/-- Deepest nesting of arrays, maps and tags. -/
def maxDepth : Nat := 256

namespace Decode

/-- What stands at a place in the input: a value, or the break that ends an indefinite run. -/
inductive Item
  | value (value : Value)
  | stop

/-- A value, where a break has no place. -/
def valueOnly (item : Reader Item) : Reader Value := fun input ↦ do
  match ← item input with
  | (.value v, rest) => .ok (v, rest)
  | (.stop, _) => .error .strayBreak

/-- A string of definite length. -/
def definiteString (info : Nat) : Reader Octets := fun input ↦ do
  let (length, rest) ← Head.readArgument info input
  Reader.take length rest

/-- The chunks of an indefinite string up to its break, joined. -/
def chunks (major : Major) : (left : Nat) → Reader Octets
  | 0, _ => .error (.outOfOctets 1 0)
  | left + 1, input => do
    let ((chunkMajor, info), rest) ← Head.readInitial input
    if chunkMajor = .simple ∧ info = Head.indefinite then .ok ([], rest)
    else if chunkMajor ≠ major then .error (.foreignChunk chunkMajor)
    else if info = Head.indefinite then .error .nestedRun
    else
      let (chunk, rest) ← definiteString info rest
      let (others, rest) ← chunks major left rest
      .ok (chunk ++ others, rest)

/-- The content of a string of octets or text. -/
def string (major : Major) (info : Nat) : Reader Octets := fun input ↦
  if info = Head.indefinite then chunks major input.length input else definiteString info input

/-- A given number of items. -/
def items (item : Reader Item) : (count : Nat) → Reader (List Value)
  | 0, input => .ok ([], input)
  | count + 1, input => do
    let (first, rest) ← valueOnly item input
    let (others, rest) ← items item count rest
    .ok (first :: others, rest)

/-- Items up to a break. -/
def itemRun (item : Reader Item) : (left : Nat) → Reader (List Value)
  | 0, _ => .error (.outOfOctets 1 0)
  | left + 1, input => do
    match ← item input with
    | (.stop, rest) => .ok ([], rest)
    | (.value first, rest) =>
      let (others, rest) ← itemRun item left rest
      .ok (first :: others, rest)

/-- The content of an array. -/
def array (item : Reader Item) (info : Nat) : Reader (List Value) := fun input ↦ do
  if info = Head.indefinite then itemRun item input.length input
  else
    let (count, rest) ← Head.readArgument info input
    items item count rest

/-- A given number of entries. -/
def entries (item : Reader Item) : (count : Nat) → Reader (List (Value × Value))
  | 0, input => .ok ([], input)
  | count + 1, input => do
    let (key, rest) ← valueOnly item input
    let (value, rest) ← valueOnly item rest
    let (others, rest) ← entries item count rest
    .ok ((key, value) :: others, rest)

/-- Entries up to a break, which may only stand where a key would. -/
def entryRun (item : Reader Item) : (left : Nat) → Reader (List (Value × Value))
  | 0, _ => .error (.outOfOctets 1 0)
  | left + 1, input => do
    match ← item input with
    | (.stop, rest) => .ok ([], rest)
    | (.value key, rest) =>
      let (value, rest) ← valueOnly item rest
      let (others, rest) ← entryRun item left rest
      .ok ((key, value) :: others, rest)

/-- The content of a map. -/
def map (item : Reader Item) (info : Nat) : Reader (List (Value × Value)) := fun input ↦ do
  if info = Head.indefinite then entryRun item input.length input
  else
    let (count, rest) ← Head.readArgument info input
    entries item count rest

/-- The value or break that a simple item stands for. -/
def simple (info : Nat) : Reader Item := fun input ↦ do
  if info = 20 then .ok (.value (.bool false), input)
  else if info = 21 then .ok (.value (.bool true), input)
  else if info = 22 then .ok (.value .null, input)
  else if info = 23 then .ok (.value .undefined, input)
  else if info = 25 then
    let (word, rest) ← Reader.unsigned 2 input
    .ok (.value (.float (.ofBinary16 word)), rest)
  else if info = 26 then
    let (word, rest) ← Reader.unsigned 4 input
    .ok (.value (.float (.ofBinary32 word)), rest)
  else if info = 27 then
    let (word, rest) ← Reader.unsigned 8 input
    .ok (.value (.float ⟨UInt64.ofNat word⟩), rest)
  else if info = Head.indefinite then .ok (.stop, input)
  else if 28 ≤ info then .error (.reservedLength info)
  else .error (.unsupportedSimple info)

/-- The reader of the items inside a container, if nesting allows for one. -/
def descend (inner : Option (Reader Item)) : Except WireError (Reader Item) :=
  match inner with
  | some item => .ok item
  | none => .error (.tooDeep maxDepth)

/-- The value under a tag, from its content. -/
def underTag (hooks : Hooks) (tag : UInt64) (content : Value) : Except WireError Value :=
  match hooks.onTag tag with
  | some hook => hook content
  | none => .ok (.tagged tag content)

/-- An item of a given kind, before `finish` has seen it. -/
def body (hooks : Hooks) (inner : Option (Reader Item)) (major : Major) (info : Nat) :
    Reader Item := fun input ↦ do
  match major with
  | .unsigned =>
    let (n, rest) ← Head.readArgument info input
    .ok (.value (.integer n), rest)
  | .negative =>
    let (n, rest) ← Head.readArgument info input
    .ok (.value (.integer (-1 - n)), rest)
  | .octets =>
    let (octets, rest) ← string .octets info input
    .ok (.value (.octets octets), rest)
  | .text =>
    let (octets, rest) ← string .text info input
    match Text.ofOctets? octets with
    | some text => .ok (.value (.text text), rest)
    | none => .error .invalidText
  | .array =>
    let (values, rest) ← array (← descend inner) info input
    .ok (.value (.array values), rest)
  | .map =>
    let (pairs, rest) ← map (← descend inner) info input
    .ok (.value (.map pairs), rest)
  | .tag =>
    let (tag, rest) ← Head.readArgument info input
    let (content, rest) ← valueOnly (← descend inner) rest
    let value ← underTag hooks (UInt64.ofNat tag) content
    .ok (.value value, rest)
  | .simple => simple info input

/-- One item. -/
def node (hooks : Hooks) (inner : Option (Reader Item)) : Reader Item := fun input ↦ do
  let ((major, info), rest) ← Head.readInitial input
  match ← body hooks inner major info rest with
  | (.value v, rest) => .ok (.value (hooks.finish v), rest)
  | (.stop, rest) => .ok (.stop, rest)

/-- One item that may hold others to a given depth. -/
def item (hooks : Hooks) : (depth : Nat) → Reader Item
  | 0 => node hooks none
  | depth + 1 => node hooks (some (item hooks depth))

/-- One value from the front, with the octets after it. -/
def value (hooks : Hooks) : Reader Value :=
  valueOnly (item hooks maxDepth)

end Decode

/-- Reads one value from the front of the input and ignores what follows. -/
def decode (input : Octets) (hooks : Hooks := .plain) : Except WireError Value :=
  (Decode.value hooks input).map Prod.fst

/-- Reads one value that takes up the whole input. -/
def decodeAll (input : Octets) (hooks : Hooks := .plain) : Except WireError Value := do
  let (value, rest) ← Decode.value hooks input
  if rest.isEmpty then .ok value else .error (.trailing rest.length)

end Wireline
