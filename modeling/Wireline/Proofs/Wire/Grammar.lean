import Wireline.Proofs.Value
import Wireline.Wire.Decode

/-!
# The grammar of the wire

`Grammar.Derives` says which octets stand for which value, without regard to how they are read:
heads in any of the five widths, strings and containers of definite length or up to a break,
numbers, simple values. A `Phrase` is what octets can stand for, a value or a run of items or
entries.

Nesting is no part of the grammar. It is a measure on values (`Value.nesting`), since a derivation
nests exactly as deep as the value that it derives.
-/

set_option autoImplicit false
set_option relaxedAutoImplicit false

namespace Wireline

namespace Grammar

/-! ### Heads and strings -/

/-- The octets that follow the five bits `info` of an initial octet, and the argument that both
make up. -/
inductive Argument : (info : Nat) → Octets → Nat → Prop
  | short {n : Nat} (h : n < 24) : Argument n [] n
  | long {info : Nat} {octets : Octets}
      (h : (info, octets.length) ∈ [(24, 1), (25, 2), (26, 4), (27, 8)]) :
      Argument info octets octets.toNat

/-- A head of some kind with an argument. -/
inductive HasHead (major : Major) : Octets → Nat → Prop
  | mk {info n : Nat} {octets : Octets} (h : Argument info octets n) :
      HasHead major (Head.initial major info :: octets) n

/-- The initial octet of an item without a definite length. -/
def openEnded (major : Major) : UInt8 :=
  Head.initial major Head.indefinite

/-- The break. -/
def stop : UInt8 := 0xff

/-- Chunks of one kind, each of definite length, and what they hold together. -/
inductive Chunks (major : Major) : Octets → Octets → Prop
  | nil : Chunks major [] []
  | cons {head chunk wire content : Octets} (hhead : HasHead major head chunk.length)
      (hrest : Chunks major wire content) : Chunks major (head ++ chunk ++ wire) (chunk ++ content)

/-- A string of some kind and what it holds. -/
inductive IsString (major : Major) : Octets → Octets → Prop
  | definite {head content : Octets} (h : HasHead major head content.length) :
      IsString major (head ++ content) content
  | run {wire content : Octets} (h : Chunks major wire content) :
      IsString major (openEnded major :: (wire ++ [stop])) content

/-! ### Values -/

/-- What octets can stand for. -/
inductive Phrase
  | value (value : Value)
  | items (items : List Value)
  /-- Keys and values in turn. -/
  | entries (entries : List (Value × Value))

/-- Octets that stand for a phrase. -/
inductive Derives : Octets → Phrase → Prop
  | unsigned {head : Octets} {n : Nat} (h : HasHead .unsigned head n) :
      Derives head (.value (.integer n))
  | negative {head : Octets} {n : Nat} (h : HasHead .negative head n) :
      Derives head (.value (.integer (-1 - n)))
  | octets {wire content : Octets} (h : IsString .octets wire content) :
      Derives wire (.value (.octets content))
  | text {wire : Octets} {text : String} (h : IsString .text wire (Text.octets text)) :
      Derives wire (.value (.text text))
  | array {head wire : Octets} {items : List Value} (hhead : HasHead .array head items.length)
      (hitems : Derives wire (.items items)) : Derives (head ++ wire) (.value (.array items))
  | arrayRun {wire : Octets} {items : List Value} (hitems : Derives wire (.items items)) :
      Derives (openEnded .array :: (wire ++ [stop])) (.value (.array items))
  | map {head wire : Octets} {entries : List (Value × Value)}
      (hhead : HasHead .map head entries.length) (hentries : Derives wire (.entries entries)) :
      Derives (head ++ wire) (.value (.map entries))
  | mapRun {wire : Octets} {entries : List (Value × Value)}
      (hentries : Derives wire (.entries entries)) :
      Derives (openEnded .map :: (wire ++ [stop])) (.value (.map entries))
  | tagged {head wire : Octets} {tag : UInt64} {content : Value}
      (hhead : HasHead .tag head tag.toNat) (hcontent : Derives wire (.value content)) :
      Derives (head ++ wire) (.value (.tagged tag content))
  | no : Derives [Head.initial .simple 20] (.value (.bool false))
  | yes : Derives [Head.initial .simple 21] (.value (.bool true))
  | null : Derives [Head.initial .simple 22] (.value .null)
  | undefined : Derives [Head.initial .simple 23] (.value .undefined)
  | half {word : Octets} (h : word.length = 2) :
      Derives (Head.initial .simple 25 :: word) (.value (.float (.ofBinary16 word.toNat)))
  | single {word : Octets} (h : word.length = 4) :
      Derives (Head.initial .simple 26 :: word) (.value (.float (.ofBinary32 word.toNat)))
  | double {word : Octets} (h : word.length = 8) :
      Derives (Head.initial .simple 27 :: word) (.value (.float ⟨UInt64.ofNat word.toNat⟩))
  | noItems : Derives [] (.items [])
  | moreItems {wire rest : Octets} {item : Value} {items : List Value}
      (hitem : Derives wire (.value item)) (hitems : Derives rest (.items items)) :
      Derives (wire ++ rest) (.items (item :: items))
  | noEntries : Derives [] (.entries [])
  | moreEntries {wire second rest : Octets} {key value : Value} {entries : List (Value × Value)}
      (hkey : Derives wire (.value key)) (hvalue : Derives second (.value value))
      (hentries : Derives rest (.entries entries)) :
      Derives (wire ++ second ++ rest) (.entries ((key, value) :: entries))

/-! ### Lengths -/

/-- How many octets a phrase takes at least. -/
def Phrase.count : Phrase → Nat
  | .value _ => 1
  | .items values => values.length
  | .entries pairs => pairs.length

theorem HasHead.length_pos {major : Major} {head : Octets} {n : Nat} (h : HasHead major head n) :
    0 < head.length := by
  cases h
  simp

theorem IsString.length_pos {major : Major} {wire content : Octets}
    (h : IsString major wire content) :
    0 < wire.length := by
  cases h with
  | definite h =>
    have hhead := h.length_pos
    rw [List.length_append]
    omega
  | run h => simp

theorem Derives.count_le {wire : Octets} {phrase : Phrase} (h : Derives wire phrase) :
    phrase.count ≤ wire.length := by
  induction h with
  | unsigned h => exact h.length_pos
  | negative h => exact h.length_pos
  | octets h => exact h.length_pos
  | text h => exact h.length_pos
  | array hhead _ ih =>
    have hpos := hhead.length_pos
    simp only [Phrase.count, List.length_append] at ih ⊢
    omega
  | map hhead _ ih =>
    have hpos := hhead.length_pos
    simp only [Phrase.count, List.length_append] at ih ⊢
    omega
  | tagged hhead _ ih =>
    simp only [Phrase.count, List.length_append] at ih ⊢
    omega
  | moreItems _ _ ihitem ihitems =>
    simp only [Phrase.count, List.length_append, List.length_cons] at ihitem ihitems ⊢
    omega
  | moreEntries _ _ _ ihkey ihvalue ihentries =>
    simp only [Phrase.count, List.length_append, List.length_cons] at ihkey ihvalue ihentries ⊢
    omega
  | noItems => exact Nat.le_refl 0
  | noEntries => exact Nat.le_refl 0
  | _ => simp [Phrase.count]

end Grammar

end Wireline
