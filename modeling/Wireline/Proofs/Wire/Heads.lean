import Wireline.Proofs.Wire.Grammar

/-!
# Reading heads and strings

Each of these readers is taken in both directions. What the grammar calls an argument or a string is
read in full, whatever follows it (`readArgument_of_argument`, `IsString.read`), and what was read
is an argument or a string in the sense of the grammar (`argument_of_readArgument`,
`isString_of_string`).
-/

set_option autoImplicit false
set_option relaxedAutoImplicit false

namespace Wireline

/-- A computation in two steps that succeeds has succeeded in both. -/
theorem exists_of_bind_eq_ok {ε α β : Type} {x : Except ε α} {f : α → Except ε β} {b : β}
    (h : x >>= f = .ok b) : ∃ a, x = .ok a ∧ f a = .ok b := by
  cases x with
  | error e => cases h
  | ok a => exact ⟨a, rfl, h⟩

namespace Reader

theorem take_append (octets rest : Octets) :
    take octets.length (octets ++ rest) = .ok (octets, rest) := by
  rw [take, if_pos (by simp), List.take_left, List.drop_left]

theorem eq_append_of_take {count : Nat} {input octets rest : Octets}
    (h : take count input = .ok (octets, rest)) :
    octets.length = count ∧ input = octets ++ rest := by
  unfold take at h
  split at h
  · next hcount =>
    cases h
    exact ⟨List.length_take_of_le hcount, (List.take_append_drop count input).symm⟩
  · cases h

theorem unsigned_append (octets rest : Octets) :
    unsigned octets.length (octets ++ rest) = .ok (octets.toNat, rest) := by
  rw [unsigned, take_append]

theorem eq_append_of_unsigned {width n : Nat} {input rest : Octets}
    (h : unsigned width input = .ok (n, rest)) :
    ∃ octets : Octets, octets.length = width ∧ octets.toNat = n ∧ input = octets ++ rest := by
  unfold unsigned at h
  split at h
  · next octets _ htake =>
    cases h
    obtain ⟨hlength, hinput⟩ := eq_append_of_take htake
    exact ⟨octets, hlength, rfl, hinput⟩
  · cases h

end Reader

/-! ### Heads -/

theorem Major.code_ofCode {n : Nat} (h : n < 8) : (ofCode n).code = n := by
  revert n
  decide

namespace Head

theorem toNat_initial {major : Major} {info : Nat} (h : info < 32) :
    (initial major info).toNat = major.code * 32 + info := by
  have hcode := major.code_lt
  rw [initial, UInt8.toNat_ofNat', Nat.mod_eq_of_lt (by omega)]

theorem readInitial_initial {major : Major} {info : Nat} (h : info < 32) (rest : Octets) :
    readInitial (initial major info :: rest) = .ok ((major, info), rest) := by
  have hdiv : (major.code * 32 + info) / 32 = major.code := by omega
  have hmod : (major.code * 32 + info) % 32 = info := by omega
  rw [readInitial, toNat_initial h, hdiv, hmod, Major.ofCode_code]

theorem initial_of_readInitial {input rest : Octets} {major : Major} {info : Nat}
    (h : readInitial input = .ok ((major, info), rest)) :
    info < 32 ∧ input = initial major info :: rest := by
  cases input with
  | nil => cases h
  | cons octet others =>
    cases h
    have hoctet := octet.toNat_lt
    refine ⟨by omega, ?_⟩
    rw [initial, Major.code_ofCode (by omega), Nat.div_add_mod', UInt8.ofNat_toNat]

end Head

namespace Grammar

theorem stop_eq : stop = openEnded .simple := rfl

theorem Argument.info_lt {info n : Nat} {octets : Octets} (h : Argument info octets n) :
    info < 28 := by
  cases h with
  | short h => omega
  | long h =>
    simp only [List.mem_cons, Prod.mk.injEq, List.not_mem_nil, or_false] at h
    omega

theorem Argument.ne_indefinite {info n : Nat} {octets : Octets} (h : Argument info octets n) :
    info ≠ Head.indefinite := by
  have hinfo := h.info_lt
  simp only [Head.indefinite]
  omega

theorem Argument.lt {info n : Nat} {octets : Octets} (h : Argument info octets n) :
    n < 0x10000000000000000 := by
  have hcapacity : Octets.capacity 8 = 0x10000000000000000 := by decide
  rw [← hcapacity]
  cases h with
  | short h =>
    rw [hcapacity]
    omega
  | long h =>
    have hlt := Octets.toNat_lt octets
    simp only [List.mem_cons, Prod.mk.injEq, List.not_mem_nil, or_false] at h
    have hlength : octets.length ≤ 8 := by omega
    exact Nat.lt_of_lt_of_le hlt (Nat.pow_le_pow_right (by decide) hlength)

theorem readArgument_of_argument {info n : Nat} {octets : Octets} (h : Argument info octets n)
    (rest : Octets) : Head.readArgument info (octets ++ rest) = .ok (n, rest) := by
  cases h with
  | short h => rw [Head.readArgument, if_pos h, List.nil_append]
  | long h =>
    have hread := Reader.unsigned_append octets rest
    simp only [List.mem_cons, Prod.mk.injEq, List.not_mem_nil, or_false] at h
    rcases h with ⟨rfl, hlength⟩ | ⟨rfl, hlength⟩ | ⟨rfl, hlength⟩ | ⟨rfl, hlength⟩
    all_goals
      rw [hlength] at hread
      exact hread

theorem argument_of_readArgument {info n : Nat} {input rest : Octets}
    (h : Head.readArgument info input = .ok (n, rest)) :
    ∃ octets, input = octets ++ rest ∧ Argument info octets n := by
  have hlong {width : Nat} (hwidth : (info, width) ∈ [(24, 1), (25, 2), (26, 4), (27, 8)])
      (hread : Reader.unsigned width input = .ok (n, rest)) :
      ∃ octets, input = octets ++ rest ∧ Argument info octets n := by
    obtain ⟨octets, hlength, hnumber, hinput⟩ := Reader.eq_append_of_unsigned hread
    exact ⟨octets, hinput, hnumber ▸ .long (by rwa [hlength])⟩
  unfold Head.readArgument at h
  split at h
  · next hshort =>
    cases h
    exact ⟨[], rfl, .short hshort⟩
  split at h
  · next hinfo => exact hlong (by simp [hinfo]) h
  split at h
  · next hinfo => exact hlong (by simp [hinfo]) h
  split at h
  · next hinfo => exact hlong (by simp [hinfo]) h
  split at h
  · next hinfo => exact hlong (by simp [hinfo]) h
  · cases h

/-! ### Strings -/

theorem definiteString_of_argument {info : Nat} {octets content : Octets}
    (h : Argument info octets content.length) (rest : Octets) :
    Decode.definiteString info (octets ++ (content ++ rest)) = .ok (content, rest) := by
  simp only [Decode.definiteString, readArgument_of_argument h, bind, Except.bind,
    Reader.take_append]

theorem argument_of_definiteString {info : Nat} {input content rest : Octets}
    (h : Decode.definiteString info input = .ok (content, rest)) :
    ∃ octets, input = octets ++ (content ++ rest) ∧ Argument info octets content.length := by
  obtain ⟨⟨length, others⟩, hread, htake⟩ := exists_of_bind_eq_ok h
  obtain ⟨octets, hinput, hargument⟩ := argument_of_readArgument hread
  obtain ⟨hlength, hothers⟩ := Reader.eq_append_of_take htake
  exact ⟨octets, by rw [hinput, hothers], hlength ▸ hargument⟩

/-- The count of octets bounds the chunks, since each of them has a head. -/
theorem chunks_of_chunks {major : Major} {wire content : Octets} (h : Chunks major wire content) :
    ∀ (left : Nat) (rest : Octets), wire.length < left →
      Decode.chunks major left (wire ++ stop :: rest) = .ok (content, rest) := by
  induction h with
  | nil =>
    intro left rest hleft
    obtain ⟨left, rfl⟩ := Nat.exists_eq_succ_of_ne_zero (Nat.ne_of_gt hleft)
    rw [stop_eq, openEnded, List.nil_append, Decode.chunks, Head.readInitial_initial (by decide)]
    rfl
  | @cons head chunk wire content hhead _ ih =>
    intro left rest hleft
    obtain ⟨left, rfl⟩ := Nat.exists_eq_succ_of_ne_zero (Nat.ne_of_gt (Nat.zero_lt_of_lt hleft))
    have hpos := hhead.length_pos
    simp only [List.length_append] at hleft
    cases hhead with
    | @mk info _ octets hargument =>
      have hinfo := hargument.info_lt
      have hindefinite := hargument.ne_indefinite
      simp only [List.cons_append, List.append_assoc, Decode.chunks,
        Head.readInitial_initial (show info < 32 by omega), bind, Except.bind, hindefinite,
        and_false, if_false, ne_eq, not_true, definiteString_of_argument hargument,
        ih left rest (by omega)]

theorem chunks_of_read {major : Major} (left : Nat) :
    ∀ {input content rest : Octets}, Decode.chunks major left input = .ok (content, rest) →
      ∃ wire, input = wire ++ stop :: rest ∧ Chunks major wire content := by
  induction left with
  | zero =>
    intro input content rest h
    cases h
  | succ left ih =>
    intro input content rest h
    obtain ⟨⟨⟨chunkMajor, info⟩, others⟩, hinitial, h⟩ := exists_of_bind_eq_ok h
    obtain ⟨-, hinput⟩ := Head.initial_of_readInitial hinitial
    simp only at h
    split at h
    · next hstop =>
      obtain ⟨rfl, rfl⟩ := hstop
      cases h
      exact ⟨[], hinput, .nil⟩
    split at h
    · cases h
    split at h
    · cases h
    next hmajor _ =>
    obtain ⟨⟨chunk, later⟩, hchunk, h⟩ := exists_of_bind_eq_ok h
    obtain ⟨⟨more, last⟩, hmore, h⟩ := exists_of_bind_eq_ok h
    cases h
    obtain ⟨octets, hothers, hargument⟩ := argument_of_definiteString hchunk
    obtain ⟨wire, hlater, hchunks⟩ := ih hmore
    have hlater : later = wire ++ stop :: last := hlater
    have hsame : chunkMajor = major := by simpa using hmajor
    subst hsame
    refine ⟨Head.initial chunkMajor info :: octets ++ chunk ++ wire, ?_,
      .cons (.mk hargument) hchunks⟩
    rw [hinput, hothers, hlater]
    simp

/-- A string of the grammar is read in full. -/
theorem IsString.read {major : Major} {wire content : Octets} (h : IsString major wire content) :
    ∃ info tail, info < 32 ∧ wire = Head.initial major info :: tail ∧
      ∀ rest, Decode.string major info (tail ++ rest) = .ok (content, rest) := by
  cases h with
  | definite hhead =>
    cases hhead with
    | @mk info _ octets hargument =>
      have hinfo := hargument.info_lt
      refine ⟨info, octets ++ content, by omega, rfl, fun rest ↦ ?_⟩
      have hindefinite := hargument.ne_indefinite
      rw [Decode.string, if_neg hindefinite, List.append_assoc]
      exact definiteString_of_argument hargument rest
  | @run wire _ hchunks =>
    refine ⟨Head.indefinite, wire ++ [stop], by decide, rfl, fun rest ↦ ?_⟩
    rw [Decode.string, if_pos rfl, List.append_assoc]
    refine chunks_of_chunks hchunks _ rest ?_
    simp only [List.length_append, List.length_cons]
    omega

theorem isString_of_string {major : Major} {info : Nat} {input content rest : Octets}
    (h : Decode.string major info input = .ok (content, rest)) :
    ∃ tail, input = tail ++ rest ∧ IsString major (Head.initial major info :: tail) content := by
  unfold Decode.string at h
  split at h
  · next hindefinite =>
    subst hindefinite
    obtain ⟨wire, hinput, hchunks⟩ := chunks_of_read _ h
    exact ⟨wire ++ [stop], by rw [hinput]; simp, .run hchunks⟩
  · obtain ⟨octets, hinput, hargument⟩ := argument_of_definiteString h
    exact ⟨octets ++ content, by rw [hinput, List.append_assoc], .definite (.mk hargument)⟩

end Grammar

end Wireline
