import Wireline.Text.Utf8
import Wireline.Wire.Draft

/-!
# Writing values

Writing takes three steps. `Value.adapt` applies a substitution to the leaves of a value.
`Encode.pieces` lists what the adapted value is written as, from left to right: octets, holes, and
the first cause for which it cannot be written. `Encode.expand` fills the holes and joins the
pieces to a draft.

A gap that stands in a value is a plain hole: it takes the last fill given for it, and a complete
value must have one. A gap of a template is a templated hole: it takes the first fill given for it,
else its fallback. What goes into a hole is adapted with the substitution in force there, and may
hold gaps of its own. A fill cannot be used again within its own value, since its value would then
have no end; `Fills` keeps what is left of the fills for either kind of hole.

`encode` writes a complete value, `encodePartly` keeps open what has no fill, and `Template.build`
and `Template.buildPartly` go on from there.
-/

set_option autoImplicit false
set_option relaxedAutoImplicit false

namespace Wireline

/-! ### Substitution -/

namespace Substitution

/-- What a leaf is replaced by. -/
def onLeaf (substitution : Substitution) (value : Value) : Option Value :=
  (value.leaf?.bind substitution.replacement?).map Gapless.toValue

/-- What a leaf becomes under a substitution, itself if there is none for it. -/
def leaf (substitution : Option Substitution) (value : Value) : Value :=
  ((substitution.bind (·.onLeaf value))).getD value

end Substitution

mutual

/-- The value with its leaves substituted. The fallbacks of a template follow the template's own
substitution. -/
def Value.adapt (substitution : Option Substitution) : Value → Value
  | .array items => .array (Value.adaptItems substitution items)
  | .map entries => .map (Value.adaptEntries substitution entries)
  | .tagged tag content => .tagged tag (content.adapt substitution)
  | .template t => .template t.adapt
  | v => Substitution.leaf substitution v

def Value.adaptItems (substitution : Option Substitution) : List Value → List Value
  | [] => []
  | item :: items => item.adapt substitution :: Value.adaptItems substitution items

def Value.adaptEntries (substitution : Option Substitution) :
    List (Value × Value) → List (Value × Value)
  | [] => []
  | (key, value) :: entries =>
    (key.adapt substitution, value.adapt substitution) :: Value.adaptEntries substitution entries

/-- The template with its fallbacks substituted. -/
def Template.adapt : Template → Template
  | ⟨chunks, tail, substitution⟩ => ⟨Template.adaptChunks substitution chunks, tail, substitution⟩

def Template.adaptChunks (substitution : Option Substitution) :
    List (Octets × Gap) → List (Octets × Gap)
  | [] => []
  | (octets, ⟨id, fallback⟩) :: chunks =>
    (octets, ⟨id, Value.adaptFallback substitution fallback⟩) ::
      Template.adaptChunks substitution chunks

def Value.adaptFallback (substitution : Option Substitution) : Option Value → Option Value
  | none => none
  | some value => some (value.adapt substitution)

end

/-! ### Fills -/

/-- A value for a gap. -/
structure Fill where
  gap : Nat
  value : Value

/-- The fills that may still be used: for gaps in values and for gaps of templates. -/
structure Fills where
  plain : List Fill
  templated : List Fill

namespace Fills

def ofList (fills : List Fill) : Fills :=
  ⟨fills, fills⟩

/-- The number of fills left. It bounds how deep fills can nest. -/
def count (fills : Fills) : Nat :=
  fills.plain.length + fills.templated.length

/-- The fill for a gap in a value: the last one given. -/
def plain? (fills : Fills) (gap : Nat) : Option Value :=
  (fills.plain.reverse.find? (·.gap == gap)).map Fill.value

/-- The fill for a gap of a template: the first one given. -/
def templated? (fills : Fills) (gap : Nat) : Option Value :=
  (fills.templated.find? (·.gap == gap)).map Fill.value

/-- What is left inside the fill of a gap in a value. -/
def insidePlain (fills : Fills) (gap : Nat) : Fills :=
  { fills with plain := fills.plain.filter (·.gap != gap) }

/-- What is left inside the fill of a gap of a template. -/
def insideTemplated (fills : Fills) (gap : Nat) : Fills :=
  { fills with templated := fills.templated.filter (·.gap != gap) }

end Fills

namespace Encode

/-! ### Pieces -/

/-- A piece of what a value is written as. -/
inductive Piece
  | octets (octets : Octets)
  /-- A gap in a value, with the substitution for its fill. -/
  | plain (gap : Gap) (substitution : Option Substitution)
  /-- A gap of a template, with the substitution for its fill and the pieces of its fallback. -/
  | templated (gap : Gap) (substitution : Option Substitution) (fallback : Option (List Piece))
  /-- The value cannot be written from here on. -/
  | fail (error : WireError)

/-- How many arguments a head can hold. -/
def argumentLimit : Nat := 0x10000000000000000

/-- The head of an integer. -/
def integer : Int → Piece
  | .ofNat n =>
    if n < argumentLimit then .octets (Head.write .unsigned n) else .fail (.number .tooBig)
  | .negSucc n =>
    if n < argumentLimit then .octets (Head.write .negative n) else .fail (.number .tooSmall)

mutual

/-- The pieces of a value. The substitution is the one in force where the value stands. -/
def pieces (substitution : Option Substitution) : Value → List Piece
  | .undefined => [.octets [0xf7]]
  | .null => [.octets [0xf6]]
  | .bool flag => [.octets [if flag then 0xf5 else 0xf4]]
  | .integer n => [integer n]
  | .float x => [.octets (0xfb :: Octets.ofNat 8 x.bits.toNat)]
  | .octets o => [.octets (Head.write .octets o.length ++ o)]
  | .text t => [.octets (Head.write .text (Text.octets t).length ++ Text.octets t)]
  | .array items =>
    .octets (Head.write .array items.length) :: piecesOfItems substitution items
  | .map entries =>
    .octets (Head.write .map entries.length) :: piecesOfEntries substitution entries
  | .tagged tag content => .octets (Head.write .tag tag.toNat) :: pieces substitution content
  | .gap g => [.plain g substitution]
  | .template ⟨chunks, tail, inner⟩ => piecesOfChunks inner chunks ++ [.octets tail]
  | .encoded o => [.octets o]

def piecesOfItems (substitution : Option Substitution) : List Value → List Piece
  | [] => []
  | item :: items => pieces substitution item ++ piecesOfItems substitution items

def piecesOfEntries (substitution : Option Substitution) : List (Value × Value) → List Piece
  | [] => []
  | (key, value) :: entries =>
    pieces substitution key ++ pieces substitution value ++ piecesOfEntries substitution entries

/-- The pieces of the chunks of a template with its substitution. -/
def piecesOfChunks (substitution : Option Substitution) : List (Octets × Gap) → List Piece
  | [] => []
  | (octets, ⟨id, fallback⟩) :: chunks =>
    .octets octets ::
      .templated ⟨id, fallback⟩ substitution (piecesOfFallback substitution fallback) ::
      piecesOfChunks substitution chunks

def piecesOfFallback (substitution : Option Substitution) : Option Value → Option (List Piece)
  | none => none
  | some value => some (pieces substitution value)

end

/-- The pieces of a value under a substitution. -/
def plan (substitution : Option Substitution) (value : Value) : List Piece :=
  pieces substitution (value.adapt substitution)

/-! ### Expansion -/

/-- Whether a hole may stay open. -/
inductive Mode
  | complete
  | partly
  deriving DecidableEq

/-- What a hole without a fill becomes. -/
def leaveOpen (mode : Mode) (gap : Gap) (error : WireError) : Except WireError Draft :=
  match mode with
  | .complete => .error error
  | .partly => .ok (.ofGap gap)

mutual

/-- Writes one piece. `fill` writes the value that goes into a hole. -/
def expandPiece (mode : Mode) (fills : Fills)
    (fill : Fills → Option Substitution → Value → Except WireError Draft) :
    Piece → Except WireError Draft
  | .octets o => .ok (.ofOctets o)
  | .fail e => .error e
  | .plain gap substitution =>
    match fills.plain? gap.id with
    | some value => fill (fills.insidePlain gap.id) substitution value
    | none => leaveOpen mode gap .openGap
  | .templated gap substitution fallback =>
    match fills.templated? gap.id with
    | some value => fill (fills.insideTemplated gap.id) substitution value
    | none => expandFallback mode fills fill gap fallback

/-- Writes the fallback of a templated hole. -/
def expandFallback (mode : Mode) (fills : Fills)
    (fill : Fills → Option Substitution → Value → Except WireError Draft) (gap : Gap) :
    Option (List Piece) → Except WireError Draft
  | none => leaveOpen mode gap .missingFill
  | some fallback => expandAll mode fills fill fallback

/-- Writes pieces one after the other. -/
def expandAll (mode : Mode) (fills : Fills)
    (fill : Fills → Option Substitution → Value → Except WireError Draft) :
    List Piece → Except WireError Draft
  | [] => .ok .empty
  | piece :: pieces => do
    let first ← expandPiece mode fills fill piece
    let others ← expandAll mode fills fill pieces
    .ok (first ++ others)

end

/-- Writes a value, where at most `depth` fills can nest. -/
def expand (mode : Mode) : (depth : Nat) → Fills → Option Substitution → Value →
    Except WireError Draft
  | 0, fills, substitution, value =>
    expandAll mode fills (fun _ _ _ ↦ .ok .empty) (plan substitution value)
  | depth + 1, fills, substitution, value =>
    expandAll mode fills (expand mode depth) (plan substitution value)

/-- Writes a value with fills. -/
def write (mode : Mode) (substitution : Option Substitution) (fills : List Fill) (value : Value) :
    Except WireError Draft :=
  expand mode (Fills.ofList fills).count (.ofList fills) substitution value

end Encode

/-! ### Complete and partial encoding -/

/-- How a value is written. -/
structure EncodeOptions where
  substitution : Option Substitution := none
  fills : List Fill := []

/-- Writes a complete value. Every gap in it must have a fill. -/
def encode (value : Value) (options : EncodeOptions := {}) : Except WireError Octets := do
  (← Encode.write .complete options.substitution options.fills value).finish

/-- Writes a value and leaves the gaps without a fill open. -/
def encodePartly (value : Value) (options : EncodeOptions := {}) : Except WireError Template :=
  (Encode.write .partly options.substitution options.fills value).map
    (·.toTemplate options.substitution)

namespace Template

/-- Completes a template. A gap takes a fill before its fallback, and must have one of them. -/
def build (template : Template) (fills : List Fill) : Except WireError Octets :=
  encode (.template template) ⟨none, fills⟩

/-- Fills what can be filled and leaves every other gap open. -/
def buildPartly (template : Template) (fills : List Fill) : Except WireError Template :=
  (Encode.write .partly none fills (.template template)).map (·.toTemplate template.substitution)

end Template

/-- Turns every value of a map into a template of its own and keeps the keys. -/
def encodeEntriesPartly (entries : List (Value × Value)) (options : EncodeOptions := {}) :
    Except WireError Value := do
  let templates ← entries.mapM fun (key, value) ↦ do
    .ok (key, Value.template (← encodePartly value options))
  .ok (.map templates)

end Wireline
