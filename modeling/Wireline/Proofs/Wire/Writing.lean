import Wireline.Proofs.Wire.Grammar

/-!
# What values are written as

A value of the data model (`Value.IsData`) whose integers have heads (`Value.InRange`) is written,
every head in its shortest form (`Value.wire`). Writing such a value under a substitution succeeds
with the octets of what the substitution makes of it (`encode_eq_wire`), and these are octets that
the grammar derives it from (`Grammar.derives_wire`).
-/

set_option autoImplicit false
set_option relaxedAutoImplicit false

namespace Wireline

namespace Value

/-! ### What can be written -/

/-- A node that travels by itself. What it holds is counted in a word of 64 bits. -/
def Travels : Value → Prop
  | .octets o => o.length < 0x10000000000000000
  | .text t => (Text.octets t).length < 0x10000000000000000
  | .array items => items.length < 0x10000000000000000
  | .map entries => entries.length < 0x10000000000000000
  | .gap _ | .template _ | .encoded _ => False
  | _ => True

/-- A node that is not an integer beyond what a head can hold. -/
def HasRange : Value → Prop
  | .integer n => -0x10000000000000000 ≤ n ∧ n < 0x10000000000000000
  | _ => True

/-- The value has nothing in it that is only ever written. -/
def IsData (v : Value) : Prop :=
  v.Every Travels

/-- All integers in the value are in the range of the wire. -/
def InRange (v : Value) : Prop :=
  v.Every HasRange

mutual

/-- The octets of a value of the data model, every head in its shortest form. -/
def wire : Value → Octets
  | .undefined => [0xf7]
  | .null => [0xf6]
  | .bool flag => [if flag then 0xf5 else 0xf4]
  | .integer (.ofNat n) => Head.write .unsigned n
  | .integer (.negSucc n) => Head.write .negative n
  | .float x => 0xfb :: Octets.ofNat 8 x.bits.toNat
  | .octets o => Head.write .octets o.length ++ o
  | .text t => Head.write .text (Text.octets t).length ++ Text.octets t
  | .array items => Head.write .array items.length ++ wireOfItems items
  | .map entries => Head.write .map entries.length ++ wireOfEntries entries
  | .tagged tag content => Head.write .tag tag.toNat ++ content.wire
  | .encoded o => o
  | .gap _ | .template _ => []

def wireOfItems : List Value → Octets
  | [] => []
  | item :: items => item.wire ++ wireOfItems items

def wireOfEntries : List (Value × Value) → Octets
  | [] => []
  | (key, value) :: entries => key.wire ++ value.wire ++ wireOfEntries entries

end

end Value

/-! ### Heads in their shortest form -/

namespace Grammar

theorem hasHead_write (major : Major) {n : Nat} (h : n < 0x10000000000000000) :
    HasHead major (Head.write major n) n := by
  have hlong {info width : Nat} (hwidth : (info, width) ∈ [(24, 1), (25, 2), (26, 4), (27, 8)])
      (hn : n < Octets.capacity width) :
      HasHead major (Head.initial major info :: Octets.ofNat width n) n := by
    have hargument : Argument info (Octets.ofNat width n) (Octets.ofNat width n).toNat :=
      .long (by rwa [Octets.length_ofNat])
    rw [Octets.toNat_ofNat hn] at hargument
    exact .mk hargument
  unfold Head.write
  split
  · next hshort => exact .mk (.short hshort)
  split
  · next hn => exact hlong (by simp) hn
  split
  · next hn => exact hlong (by simp) hn
  split
  · next hn => exact hlong (by simp) hn
  · exact hlong (by simp) h

theorem isString_write (major : Major) {content : Octets}
    (h : content.length < 0x10000000000000000) :
    IsString major (Head.write major content.length ++ content) content :=
  .definite (hasHead_write major h)

/-! ### Derivations -/

theorem derives_float (x : Binary64) :
    Derives (0xfb :: Octets.ofNat 8 x.bits.toNat) (.value (.float x)) := by
  have hword := Derives.double (Octets.length_ofNat 8 x.bits.toNat)
  rw [Octets.toNat_ofNat x.bits.toNat_lt, UInt64.ofNat_toNat] at hword
  exact hword

theorem derives_negSucc {n : Nat} (h : n < 0x10000000000000000) :
    Derives (Head.write .negative n) (.value (.integer (.negSucc n))) := by
  have hnumber : Int.negSucc n = -1 - n := by omega
  rw [hnumber]
  exact .negative (hasHead_write .negative h)

mutual

/-- What a value of the data model is written as stands for it. -/
theorem derives_wire : ∀ v : Value, v.IsData → v.InRange → Derives v.wire (.value v)
  | .undefined, _, _ => .undefined
  | .null, _, _ => .null
  | .bool true, _, _ => .yes
  | .bool false, _, _ => .no
  | .integer (.ofNat n), _, hrange => by
    have hn : (n : Int) < 0x10000000000000000 := hrange.2
    exact .unsigned (hasHead_write .unsigned (by omega))
  | .integer (.negSucc n), _, hrange => by
    have hn : -0x10000000000000000 ≤ Int.negSucc n := hrange.1
    exact derives_negSucc (by omega)
  | .float x, _, _ => derives_float x
  | .octets _, hdata, _ => .octets (isString_write .octets hdata)
  | .text _, hdata, _ => .text (isString_write .text hdata)
  | .array items, hdata, hrange =>
    .array (hasHead_write .array hdata.1) (derives_wireOfItems items hdata.2 hrange.2)
  | .map entries, hdata, hrange =>
    .map (hasHead_write .map hdata.1) (derives_wireOfEntries entries hdata.2 hrange.2)
  | .tagged tag content, hdata, hrange =>
    .tagged (hasHead_write .tag tag.toNat_lt) (derives_wire content hdata.2 hrange.2)
  | .gap _, hdata, _ | .template _, hdata, _ | .encoded _, hdata, _ => hdata.elim

theorem derives_wireOfItems : ∀ items : List Value, Value.EveryItem Value.Travels items →
    Value.EveryItem Value.HasRange items → Derives (Value.wireOfItems items) (.items items)
  | [], _, _ => .noItems
  | item :: items, hdata, hrange =>
    .moreItems (derives_wire item hdata.1 hrange.1)
      (derives_wireOfItems items hdata.2 hrange.2)

theorem derives_wireOfEntries : ∀ entries : List (Value × Value),
    Value.EveryEntry Value.Travels entries → Value.EveryEntry Value.HasRange entries →
      Derives (Value.wireOfEntries entries) (.entries entries)
  | [], _, _ => .noEntries
  | (key, value) :: entries, hdata, hrange =>
    .moreEntries (derives_wire key hdata.1 hrange.1) (derives_wire value hdata.2.1 hrange.2.1)
      (derives_wireOfEntries entries hdata.2.2 hrange.2.2)

end

end Grammar

namespace Encode

/-! ### Pieces -/

section Writes

variable {mode : Mode} {fills : Fills}
  {fill : Fills → Option Substitution → Value → Except WireError Draft}

/-- Pieces in two parts are written one part after the other. -/
theorem expandAll_append (first second : List Piece) :
    expandAll mode fills fill (first ++ second) = (do
      let before ← expandAll mode fills fill first
      let after ← expandAll mode fills fill second
      .ok (before ++ after)) := by
  induction first with
  | nil =>
    simp only [List.nil_append, expandAll, bind, Except.bind]
    cases expandAll mode fills fill second with
    | error e => rfl
    | ok draft => exact congrArg Except.ok (Draft.empty_append draft).symm
  | cons piece pieces ih =>
    simp only [List.cons_append, expandAll, ih, bind, Except.bind]
    cases expandPiece mode fills fill piece with
    | error e => rfl
    | ok a =>
      cases expandAll mode fills fill pieces with
      | error e => rfl
      | ok b =>
        cases expandAll mode fills fill second with
        | error e => rfl
        | ok c => simp only [Draft.append_assoc]

theorem expandAll_octets {octets : Octets} {pieces : List Piece} {others : Octets}
    (h : expandAll mode fills fill pieces = .ok (.ofOctets others)) :
    expandAll mode fills fill (.octets octets :: pieces) = .ok (.ofOctets (octets ++ others)) := by
  simp only [expandAll, expandPiece, h, bind, Except.bind]
  rfl

theorem expandAll_append_octets {first second : List Piece} {octets others : Octets}
    (hfirst : expandAll mode fills fill first = .ok (.ofOctets octets))
    (hsecond : expandAll mode fills fill second = .ok (.ofOctets others)) :
    expandAll mode fills fill (first ++ second) = .ok (.ofOctets (octets ++ others)) := by
  rw [expandAll_append, hfirst, hsecond]
  rfl

theorem expandAll_single (octets : Octets) :
    expandAll mode fills fill [.octets octets] = .ok (.ofOctets octets) := by
  show Except.ok (Draft.ofOctets octets ++ Draft.empty) = _
  rw [Draft.append_empty]

/-- The piece of an integer in range is its head. -/
theorem integer_eq_wire {n : Int} (h : (Value.integer n).InRange) :
    integer n = .octets (Value.wire (.integer n)) := by
  cases n with
  | ofNat n =>
    have hn : (n : Int) < 0x10000000000000000 := h.2
    exact if_pos (show n < 0x10000000000000000 by omega)
  | negSucc n =>
    have hn : -0x10000000000000000 ≤ Int.negSucc n := h.1
    exact if_pos (show n < 0x10000000000000000 by omega)

mutual

/-- The pieces of a value of the data model have no holes, whatever substitution is in force. -/
theorem expandAll_pieces (substitution : Option Substitution) : ∀ v : Value, v.IsData → v.InRange →
    expandAll mode fills fill (pieces substitution v) = .ok (.ofOctets v.wire)
  | .integer n, _, hrange => by
    rw [pieces, integer_eq_wire hrange]
    exact expandAll_single _
  | .array items, hdata, hrange =>
    expandAll_octets (expandAll_piecesOfItems substitution items hdata.2 hrange.2)
  | .map entries, hdata, hrange =>
    expandAll_octets (expandAll_piecesOfEntries substitution entries hdata.2 hrange.2)
  | .tagged _ content, hdata, hrange =>
    expandAll_octets (expandAll_pieces substitution content hdata.2 hrange.2)
  | .undefined, _, _ | .null, _, _ | .bool _, _, _ | .float _, _, _ | .octets _, _, _
  | .text _, _, _ => expandAll_single _
  | .gap _, hdata, _ | .template _, hdata, _ | .encoded _, hdata, _ => hdata.elim

theorem expandAll_piecesOfItems (substitution : Option Substitution) : ∀ items : List Value,
    Value.EveryItem Value.Travels items → Value.EveryItem Value.HasRange items →
      expandAll mode fills fill (piecesOfItems substitution items) =
        .ok (.ofOctets (Value.wireOfItems items))
  | [], _, _ => rfl
  | item :: items, hdata, hrange =>
    expandAll_append_octets (expandAll_pieces substitution item hdata.1 hrange.1)
      (expandAll_piecesOfItems substitution items hdata.2 hrange.2)

theorem expandAll_piecesOfEntries (substitution : Option Substitution) :
    ∀ entries : List (Value × Value),
      Value.EveryEntry Value.Travels entries → Value.EveryEntry Value.HasRange entries →
        expandAll mode fills fill (piecesOfEntries substitution entries) =
          .ok (.ofOctets (Value.wireOfEntries entries))
  | [], _, _ => rfl
  | (key, value) :: entries, hdata, hrange =>
    expandAll_append_octets
      (expandAll_append_octets (expandAll_pieces substitution key hdata.1 hrange.1)
        (expandAll_pieces substitution value hdata.2.1 hrange.2.1))
      (expandAll_piecesOfEntries substitution entries hdata.2.2 hrange.2.2)

end

end Writes

end Encode

/-- A value is written as what its substitution makes of it, if that is of the data model. -/
theorem encode_eq_wire {v : Value} {substitution : Option Substitution}
    (hdata : (v.adapt substitution).IsData) (hrange : (v.adapt substitution).InRange) :
    encode v { substitution := substitution } = .ok (v.adapt substitution).wire := by
  have hwrite : Encode.write .complete substitution [] v =
      .ok (.ofOctets (v.adapt substitution).wire) :=
    Encode.expandAll_pieces substitution _ hdata hrange
  simp only [encode, hwrite, bind, Except.bind]
  rfl

end Wireline
