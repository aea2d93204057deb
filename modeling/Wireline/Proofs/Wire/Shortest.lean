import Wireline.Proofs.Wire.Reencoding

/-!
# The shortest way to write a value

`Head.read` reads a head of any width. It reads exactly what the grammar calls a head, whatever
follows, and leaves that (`Head.read_eq_ok_iff`). Of all heads of one kind with one argument none is
shorter than the one that `Head.write` makes (`Grammar.HasHead.length_write_le`).

To say that an input uses definite lengths only, it is walked from head to head with the number of
items that are still due (`Grammar.Definite`). An array makes as many items due as it declares, a
map twice as many and a tag one, and a string is passed over with its head. The walk knows nothing
of values. A derivation keeps step with it, so that each node of a value without floats takes at
least the octets that it is written in (`Grammar.Derives.length_wire_le`). With runs some values
could be written in less (`Grammar.length_arrayRun_lt_iff`).
-/

set_option autoImplicit false
set_option relaxedAutoImplicit false

namespace Wireline

/-! ### Heads -/

namespace Head

/-- Reads a head: the kind of item and the argument. -/
def read : Reader (Major × Nat) := fun input ↦ do
  let ((major, info), rest) ← readInitial input
  let (argument, rest) ← readArgument info rest
  .ok ((major, argument), rest)

theorem read_eq_ok_iff {input rest : Octets} {major : Major} {n : Nat} :
    read input = .ok ((major, n), rest) ↔
      ∃ head, input = head ++ rest ∧ Grammar.HasHead major head n := by
  constructor
  · intro h
    obtain ⟨⟨⟨_, info⟩, others⟩, hinitial, h⟩ := exists_of_bind_eq_ok h
    obtain ⟨⟨argument, last⟩, hread, h⟩ := exists_of_bind_eq_ok h
    cases h
    obtain ⟨-, rfl⟩ := initial_of_readInitial hinitial
    obtain ⟨octets, rfl, hargument⟩ := Grammar.argument_of_readArgument hread
    exact ⟨initial major info :: octets, rfl, .mk hargument⟩
  · rintro ⟨_, rfl, @⟨info, _, octets, hargument⟩⟩
    have hinfo := hargument.info_lt
    simp only [read, List.cons_append, readInitial_initial (show info < 32 by omega), bind,
      Except.bind, Grammar.readArgument_of_argument hargument]

theorem length_write (major : Major) (n : Nat) :
    (write major n).length =
      if n < 24 then 1 else if n < 0x100 then 2 else if n < 0x10000 then 3
      else if n < 0x100000000 then 5 else 9 := by
  simp only [write, apply_ite List.length, List.length_cons, List.length_nil, Octets.length_ofNat]

/-- An argument that fits some width is not written in a larger one. -/
theorem length_write_le (major : Major) {width n : Nat} (hwidth : width ∈ [1, 2, 4, 8])
    (hn : n < Octets.capacity width) : (write major n).length ≤ width + 1 := by
  have hone : Octets.capacity 1 = 0x100 := by decide
  have htwo : Octets.capacity 2 = 0x10000 := by decide
  have hfour : Octets.capacity 4 = 0x100000000 := by decide
  simp only [List.mem_cons, List.not_mem_nil, or_false] at hwidth
  rw [length_write]
  repeat' split
  all_goals rcases hwidth with rfl | rfl | rfl | rfl <;> omega

end Head

namespace Grammar

theorem HasHead.read {major : Major} {head : Octets} {n : Nat} (h : HasHead major head n)
    (rest : Octets) : Head.read (head ++ rest) = .ok ((major, n), rest) :=
  Head.read_eq_ok_iff.mpr ⟨head, rfl, h⟩

theorem HasHead.length_write_le {major : Major} {head : Octets} {n : Nat}
    (h : HasHead major head n) : (Head.write major n).length ≤ head.length := by
  obtain @⟨_, _, octets, hargument⟩ := h
  cases hargument with
  | short hn => simp [Head.length_write, hn]
  | long hwidth =>
    refine Head.length_write_le major ?_ (Octets.toNat_lt octets)
    simp only [List.mem_cons, Prod.mk.injEq, List.not_mem_nil, or_false] at hwidth ⊢
    omega

end Grammar

/-! ### Definite lengths -/

/-- How many octets of content follow a head. -/
def Major.contentLength : Major → Nat → Nat
  | .octets, n | .text, n => n
  | _, _ => 0

/-- How many items stand inside the one that a head begins. -/
def Major.inside : Major → Nat → Nat
  | .array, n => n
  | .map, n => 2 * n
  | .tag, _ => 1
  | _, _ => 0

namespace Grammar

/-- The first items of an input, as many as are due, have definite lengths, and so has all that is
in them. -/
inductive Definite : (due : Nat) → Octets → Prop
  | nil (rest : Octets) : Definite 0 rest
  | item {major : Major} {head content rest : Octets} {n due : Nat} (hhead : HasHead major head n)
      (hcontent : content.length = major.contentLength n)
      (hrest : Definite (due + major.inside n) rest) :
      Definite (due + 1) (head ++ (content ++ rest))

/-- The walk goes on as far as heads can be read, each time where the content of the head ends. -/
theorem definite_succ_iff {input : Octets} {due : Nat} :
    Definite (due + 1) input ↔ ∃ major n rest, Head.read input = .ok ((major, n), rest) ∧
      major.contentLength n ≤ rest.length ∧
      Definite (due + major.inside n) (rest.drop (major.contentLength n)) := by
  constructor
  · intro h
    cases h with
    | @item major _ content rest n _ hhead hcontent hrest =>
      refine ⟨major, n, content ++ rest, hhead.read _, ?_, ?_⟩
      · rw [List.length_append]
        omega
      · rwa [← hcontent, List.drop_left]
  · rintro ⟨major, n, rest, hread, hcontent, hrest⟩
    obtain ⟨head, rfl, hhead⟩ := Head.read_eq_ok_iff.mp hread
    rw [← List.take_append_drop (major.contentLength n) rest]
    exact .item hhead (List.length_take_of_le hcontent) hrest

/-- What is due after a head and its content, where an input is known to begin with them. -/
theorem Definite.after {major : Major} {head content rest : Octets} {n due : Nat}
    (h : Definite (due + 1) (head ++ (content ++ rest))) (hhead : HasHead major head n)
    (hcontent : content.length = major.contentLength n) :
    Definite (due + major.inside n) rest := by
  obtain ⟨_, _, _, hread, -, hrest⟩ := definite_succ_iff.mp h
  rw [hhead.read] at hread
  cases hread
  rwa [← hcontent, List.drop_left] at hrest

theorem Definite.head {major : Major} {head rest : Octets} {n due : Nat}
    (hhead : HasHead major head n) (hcontent : major.contentLength n = 0)
    (hrest : Definite (due + major.inside n) rest) : Definite (due + 1) (head ++ rest) :=
  @Definite.item major head [] rest n due hhead hcontent.symm hrest

theorem Definite.after_head {major : Major} {head rest : Octets} {n due : Nat}
    (h : Definite (due + 1) (head ++ rest)) (hhead : HasHead major head n)
    (hcontent : major.contentLength n = 0) : Definite (due + major.inside n) rest :=
  @Definite.after major head [] rest n due h hhead hcontent.symm

theorem not_definite_openEnded (major : Major) (due : Nat) (rest : Octets) :
    ¬ Definite (due + 1) (openEnded major :: rest) := by
  intro h
  obtain ⟨_, _, _, hread, -⟩ := definite_succ_iff.mp h
  rw [Head.read, openEnded, Head.readInitial_initial (by decide)] at hread
  cases hread

theorem hasHead_simple {info : Nat} (hinfo : info < 24) :
    HasHead .simple [Head.initial .simple info] info :=
  .mk (.short hinfo)

mutual

/-- What a value of the data model is written as has definite lengths. -/
theorem definite_wire : ∀ v : Value, v.IsData → v.InRange → ∀ {due : Nat} {rest : Octets},
    Definite due rest → Definite (due + 1) (v.wire ++ rest)
  | .undefined, _, _, _, _, h => .head (hasHead_simple (show 23 < 24 by decide)) rfl h
  | .null, _, _, _, _, h => .head (hasHead_simple (show 22 < 24 by decide)) rfl h
  | .bool true, _, _, _, _, h => .head (hasHead_simple (show 21 < 24 by decide)) rfl h
  | .bool false, _, _, _, _, h => .head (hasHead_simple (show 20 < 24 by decide)) rfl h
  | .integer (.ofNat n), _, hrange, _, _, h => by
    have hn : (n : Int) < 0x10000000000000000 := hrange.2
    exact .head (hasHead_write .unsigned (by omega)) rfl h
  | .integer (.negSucc n), _, hrange, _, _, h => by
    have hn : -0x10000000000000000 ≤ Int.negSucc n := hrange.1
    exact .head (hasHead_write .negative (by omega)) rfl h
  | .float x, _, _, _, _, h => by
    have hword : Argument 27 (Octets.ofNat 8 x.bits.toNat) _ :=
      .long (by simp [Octets.length_ofNat])
    exact .head (@HasHead.mk .simple _ _ _ hword) rfl h
  | .octets _, hdata, _, _, _, h => by
    rw [Value.wire, List.append_assoc]
    exact .item (hasHead_write .octets hdata) rfl h
  | .text _, hdata, _, _, _, h => by
    rw [Value.wire, List.append_assoc]
    exact .item (hasHead_write .text hdata) rfl h
  | .array items, hdata, hrange, _, _, h => by
    rw [Value.wire, List.append_assoc]
    exact .head (hasHead_write .array hdata.1) rfl
      (definite_wireOfItems items hdata.2 hrange.2 h)
  | .map entries, hdata, hrange, _, _, h => by
    rw [Value.wire, List.append_assoc]
    exact .head (hasHead_write .map hdata.1) rfl
      (definite_wireOfEntries entries hdata.2 hrange.2 h)
  | .tagged tag content, hdata, hrange, _, _, h => by
    rw [Value.wire, List.append_assoc]
    exact .head (hasHead_write .tag tag.toNat_lt) rfl
      (definite_wire content hdata.2 hrange.2 h)
  | .gap _, hdata, _, _, _, _ | .template _, hdata, _, _, _, _ | .encoded _, hdata, _, _, _, _ =>
    hdata.elim

theorem definite_wireOfItems : ∀ items : List Value, Value.EveryItem Value.Travels items →
    Value.EveryItem Value.HasRange items → ∀ {due : Nat} {rest : Octets},
      Definite due rest → Definite (due + items.length) (Value.wireOfItems items ++ rest)
  | [], _, _, _, _, h => h
  | item :: items, hdata, hrange, _, _, h => by
    rw [Value.wireOfItems, List.append_assoc]
    exact definite_wire item hdata.1 hrange.1 (definite_wireOfItems items hdata.2 hrange.2 h)

theorem definite_wireOfEntries : ∀ entries : List (Value × Value),
    Value.EveryEntry Value.Travels entries → Value.EveryEntry Value.HasRange entries →
      ∀ {due : Nat} {rest : Octets}, Definite due rest →
        Definite (due + 2 * entries.length) (Value.wireOfEntries entries ++ rest)
  | [], _, _, _, _, h => h
  | (key, value) :: entries, hdata, hrange, _, _, h => by
    rw [Value.wireOfEntries, List.append_assoc, List.append_assoc]
    exact definite_wire key hdata.1 hrange.1
      (definite_wire value hdata.2.1 hrange.2.1
        (definite_wireOfEntries entries hdata.2.2 hrange.2.2 h))

end

end Grammar

/-! ### Values without floats -/

/-- A node that is not a float. -/
def Value.NotFloat : Value → Prop
  | .float _ => False
  | _ => True

namespace Grammar

namespace Phrase

/-- The octets of a phrase, every head in its shortest form. -/
def wire : Phrase → Octets
  | .value v => v.wire
  | .items values => Value.wireOfItems values
  | .entries pairs => Value.wireOfEntries pairs

/-- How many items a phrase consists of. -/
def due : Phrase → Nat
  | .value _ => 1
  | .items values => values.length
  | .entries pairs => 2 * pairs.length

/-- There is no float in a phrase. -/
def FloatFree : Phrase → Prop
  | .value v => v.Every Value.NotFloat
  | .items values => Value.EveryItem Value.NotFloat values
  | .entries pairs => Value.EveryEntry Value.NotFloat pairs

end Phrase

/-- A string of definite length takes a head and its content. -/
theorem IsString.length_le_of_definite {major : Major} {wire content rest : Octets} {due : Nat}
    (h : IsString major wire content) (hlength : ∀ n, major.contentLength n = n)
    (hdefinite : Definite (due + 1) (wire ++ rest)) :
    (Head.write major content.length ++ content).length ≤ wire.length ∧
      Definite (due + major.inside content.length) rest := by
  cases h with
  | definite hhead =>
    rw [List.append_assoc] at hdefinite
    have hshortest := hhead.length_write_le
    refine ⟨?_, hdefinite.after hhead (hlength _).symm⟩
    simp only [List.length_append]
    omega
  | run hchunks => exact absurd hdefinite (not_definite_openEnded major due _)

/-- The walk over an input and the derivation of a phrase at its front keep step: what is due after
the phrase is due where the phrase ends. Each head on the way is as long as the shortest one at
least. -/
theorem Derives.length_wire_le {wire : Octets} {phrase : Phrase} (h : Derives wire phrase) :
    phrase.FloatFree → ∀ {due : Nat} {rest : Octets}, Definite (due + phrase.due) (wire ++ rest) →
      phrase.wire.length ≤ wire.length ∧ Definite due rest := by
  induction h with
  | unsigned hhead =>
    intro _ due rest hdefinite
    exact ⟨hhead.length_write_le, hdefinite.after_head hhead rfl⟩
  | @negative _ n hhead =>
    intro _ due rest hdefinite
    have hnumber : -1 - (n : Int) = Int.negSucc n := by omega
    rw [hnumber]
    exact ⟨hhead.length_write_le, hdefinite.after_head hhead rfl⟩
  | octets hstring | text hstring =>
    intro _ due rest hdefinite
    exact hstring.length_le_of_definite (fun _ ↦ rfl) hdefinite
  | array hhead _ ih | map hhead _ ih | tagged hhead _ ih =>
    intro hfree due rest hdefinite
    rw [List.append_assoc] at hdefinite
    obtain ⟨hinside, hafter⟩ := ih hfree.2 (hdefinite.after_head hhead rfl)
    have hshortest := hhead.length_write_le
    refine ⟨?_, hafter⟩
    simp only [Phrase.wire, Value.wire, List.length_append] at hinside ⊢
    omega
  | arrayRun _ _ | mapRun _ _ =>
    intro _ due rest hdefinite
    exact absurd hdefinite (not_definite_openEnded _ due _)
  | no | yes | null | undefined =>
    intro _ due rest hdefinite
    exact ⟨Nat.le_refl 1, hdefinite.after_head (hasHead_simple (by decide)) rfl⟩
  | half | single | double => exact fun hfree ↦ hfree.elim
  | noItems | noEntries => exact fun _ _ _ hdefinite ↦ ⟨Nat.le_refl 0, hdefinite⟩
  | moreItems _ _ ihitem ihitems =>
    intro hfree due rest hdefinite
    rw [List.append_assoc] at hdefinite
    obtain ⟨hitem, hafter⟩ := ihitem hfree.1 hdefinite
    obtain ⟨hitems, hafter⟩ := ihitems hfree.2 hafter
    refine ⟨?_, hafter⟩
    simp only [Phrase.wire, Value.wireOfItems, List.length_append] at hitem hitems ⊢
    omega
  | moreEntries _ _ _ ihkey ihvalue ihentries =>
    intro hfree due rest hdefinite
    rw [List.append_assoc, List.append_assoc] at hdefinite
    obtain ⟨hkey, hafter⟩ := ihkey hfree.1 hdefinite
    obtain ⟨hvalue, hafter⟩ := ihvalue hfree.2.1 hafter
    obtain ⟨hentries, hafter⟩ := ihentries hfree.2.2 hafter
    refine ⟨?_, hafter⟩
    simp only [Phrase.wire, Value.wireOfEntries, List.length_append] at hkey hvalue hentries ⊢
    omega

/-- The octets around a run are two, whatever it holds. So an array takes fewer octets as a run,
from which it is derived as well, exactly if it has 256 items or more. -/
theorem length_arrayRun_lt_iff {items : List Value} (hdata : (Value.array items).IsData)
    (hrange : (Value.array items).InRange) :
    Derives (openEnded .array :: (Value.wireOfItems items ++ [stop])) (.value (.array items)) ∧
      ((openEnded .array :: (Value.wireOfItems items ++ [stop])).length <
        (Value.array items).wire.length ↔ 256 ≤ items.length) := by
  refine ⟨.arrayRun (derives_wireOfItems items hdata.2 hrange.2), ?_⟩
  simp only [Value.wire, List.length_cons, List.length_append, List.length_nil, Head.length_write]
  repeat' split
  all_goals omega

/-- What is read as a value without floats, from an input of definite lengths, takes the octets that
the value is written in at least. -/
theorem length_wire_le_of_read {input : Octets} {v : Value} (hdefinite : Definite 1 input)
    (hfree : v.Every Value.NotFloat) (hread : decode input = .ok v ∨ decodeAll input = .ok v) :
    v.wire.length ≤ input.length := by
  have hfront : ∃ wire rest, input = wire ++ rest ∧ Derives wire (.value v) := by
    rcases hread with hread | hread
    · obtain ⟨wire, rest, hinput, hderives, -⟩ := decode_plain_eq_ok_iff.mp hread
      exact ⟨wire, rest, hinput, hderives⟩
    · exact ⟨input, [], (List.append_nil input).symm, (decodeAll_plain_eq_ok_iff.mp hread).1⟩
  obtain ⟨wire, rest, rfl, hderives⟩ := hfront
  obtain ⟨hlength, -⟩ := @Derives.length_wire_le wire _ hderives hfree 0 rest hdefinite
  exact Nat.le_trans hlength (List.prefix_append wire rest).length_le

end Grammar

/-- A head that was written is read back, whatever follows it, and just that is left. A head that is
read as the same kind and argument is as long at least, and the heads of all widths are read. So a
value of the data model without floats is written with definite lengths, and in no more octets than
any input of definite lengths that is read as it, be it with octets left over. -/
theorem shortest_form :
    (∀ (major : Major) (n : UInt64) (rest : Octets),
      Head.read (Head.write major n.toNat ++ rest) = .ok ((major, n.toNat), rest)) ∧
    (∀ (major : Major) (n : UInt64) (head rest : Octets),
      Head.read (head ++ rest) = .ok ((major, n.toNat), rest) →
        (Head.write major n.toNat).length ≤ head.length) ∧
    (∀ (major : Major) (n : UInt64) (head : Octets), Grammar.HasHead major head n.toNat →
      (∀ rest, Head.read (head ++ rest) = .ok ((major, n.toNat), rest)) ∧
        (Head.write major n.toNat).length ≤ head.length) ∧
    (∀ (v : Value) (octets : Octets), v.IsData → (∀ x, ¬ Value.Occurs (.float x) v) →
      encode v = .ok octets → Grammar.Definite 1 octets ∧
        ∀ input, Grammar.Definite 1 input → decode input = .ok v ∨ decodeAll input = .ok v →
          octets.length ≤ input.length) := by
  refine ⟨fun major n rest ↦ ?_, fun major n head rest hread ↦ ?_, fun major n head hhead ↦ ?_,
    fun v octets hdata hfree hwritten ↦ ?_⟩
  · exact (Grammar.hasHead_write major n.toNat_lt).read rest
  · obtain ⟨head', hinput, hhead⟩ := Head.read_eq_ok_iff.mp hread
    rw [List.append_cancel_right hinput]
    exact hhead.length_write_le
  · exact ⟨hhead.read, hhead.length_write_le⟩
  · obtain ⟨hrange, rfl⟩ := (encode_eq_ok_iff hdata).mp hwritten
    have hnotFloat : v.Every Value.NotFloat := by
      refine Value.every_iff.mpr fun node hnode ↦ ?_
      cases node with
      | float x => exact hfree x hnode
      | _ => trivial
    refine ⟨?_, fun input hdefinite hread ↦ ?_⟩
    · have hwalk := Grammar.definite_wire v hdata hrange (.nil [])
      rwa [List.append_nil] at hwalk
    · exact Grammar.length_wire_le_of_read hdefinite hnotFloat hread

/-- Every head that has an argument is a width or two too wide. -/
theorem shortest_form_wide : ∃ octets,
    encode (.map [(.octets [0x61], .array [.integer 5, .tagged 37 .undefined])]) = .ok octets ∧
    decodeAll [0xb8, 0x01, 0x59, 0x00, 0x01, 0x61, 0x98, 0x02, 0x18, 0x05, 0xd9, 0x00, 0x25,
      0xf7] = .ok (.map [(.octets [0x61], .array [.integer 5, .tagged 37 .undefined])]) ∧
    octets.length ≤ 14 := by
  have hdata : Value.IsData (.map [(.octets [0x61],
      .array [.integer 5, .tagged 37 .undefined])]) := by
    have hone : 1 < 0x10000000000000000 := by decide
    have htwo : 2 < 0x10000000000000000 := by decide
    exact ⟨hone, hone, ⟨htwo, trivial, ⟨trivial, trivial⟩, trivial⟩, trivial⟩
  have hfree : Value.Every Value.NotFloat (.map [(.octets [0x61],
      .array [.integer 5, .tagged 37 .undefined])]) :=
    ⟨trivial, trivial, ⟨trivial, trivial, ⟨trivial, trivial⟩, trivial⟩, trivial⟩
  have hwritten : encode (.map [(.octets [0x61], .array [.integer 5, .tagged 37 .undefined])]) =
      .ok [0xa1, 0x41, 0x61, 0x82, 0x05, 0xd8, 0x25, 0xf7] := rfl
  have hread : decodeAll [0xb8, 0x01, 0x59, 0x00, 0x01, 0x61, 0x98, 0x02, 0x18, 0x05, 0xd9, 0x00,
      0x25, 0xf7] = .ok (.map [(.octets [0x61], .array [.integer 5, .tagged 37 .undefined])]) := rfl
  have hdefinite : Grammar.Definite 1 [0xb8, 0x01, 0x59, 0x00, 0x01, 0x61, 0x98, 0x02, 0x18, 0x05,
      0xd9, 0x00, 0x25, 0xf7] := by
    iterate 6 refine Grammar.definite_succ_iff.mpr ⟨_, _, _, rfl, by decide, ?_⟩
    exact .nil []
  obtain ⟨-, -, -, hshortest⟩ := shortest_form
  obtain ⟨-, hleast⟩ := hshortest _ _ hdata (fun x hx ↦ hfree.of_occurs hx) hwritten
  exact ⟨_, hwritten, hread, hleast _ hdefinite (.inr hread)⟩

end Wireline
