import Wireline.Domain.Record
import Wireline.Proofs.Domain.Ident
import Wireline.Proofs.Domain.Uuid
import Wireline.Proofs.Text.Digits

/-!
# Telling printed record ids apart

The text of a scalar key determines the key (`RecordKey.print_injective`), and so does the text of a
table. The text of the two with a colon in between does not: where both tables end in a backslash,
the bracket that closes the one may be read as a bracket inside the other, and the colon and the
first part of the key with it (`RecordId.Confusable`). No other two record ids have one text
(`RecordId.text_eq_iff`).
-/

set_option autoImplicit false
set_option relaxedAutoImplicit false

namespace Wireline

namespace RecordKey

/-- A key that is no list and no map. -/
def IsScalar : RecordKey → Prop
  | text _ | integer _ | uuid _ => True
  | array _ | object _ => False

theorem toList_print_uuid (key : Uuid) :
    (uuid key).print.toList = 'u' :: '"' :: (key.text.toList ++ ['"']) := by
  rw [print, String.toList_append, String.toList_append]
  rfl

/-! ### Keys of different kinds -/

/-- A bare text has a character that is no digit, and no sign. -/
theorem print_text_ne_integer (ident : String) (n : Int64) :
    (text ident).print ≠ (integer n).print := by
  intro h
  have hmem {c : Char} (hc : c ∈ (Ident.escape ident).toList) : c = '-' ∨ c.isDigit = true := by
    rw [show Ident.escape ident = toString n.toInt from h] at hc
    exact Text.mem_toString_int hc
  cases hbare : Ident.isBare ident.toList with
  | false =>
    rw [Ident.toList_escape_of_not_bare hbare] at hmem
    exact absurd (hmem List.mem_cons_self) (by decide)
  | true =>
    rw [Ident.toList_escape_of_bare hbare] at hmem
    have hdigits : ident.toList.all Char.isDigit = true := by
      refine List.all_eq_true.mpr fun c hc ↦ (hmem hc).resolve_left ?_
      rintro rfl
      exact absurd (Ident.isWordChar_of_isBare hbare hc) (by decide)
    rw [Ident.isBare, hdigits, Bool.not_true, Bool.and_false] at hbare
    cases hbare

/-- A bare text has no quotation marks. -/
theorem print_text_ne_uuid (ident : String) (key : Uuid) :
    (text ident).print ≠ (uuid key).print := by
  intro h
  have hlist : (Ident.escape ident).toList = 'u' :: '"' :: (key.text.toList ++ ['"']) :=
    (congrArg String.toList h).trans (toList_print_uuid key)
  cases hbare : Ident.isBare ident.toList with
  | false =>
    rw [Ident.toList_escape_of_not_bare hbare] at hlist
    exact absurd (List.cons.inj hlist).1 (by decide)
  | true =>
    rw [Ident.toList_escape_of_bare hbare] at hlist
    have hquote : '"' ∈ ident.toList := by simp [hlist]
    exact absurd (Ident.isWordChar_of_isBare hbare hquote) (by decide)

theorem print_integer_ne_uuid (n : Int64) (key : Uuid) :
    (integer n).print ≠ (uuid key).print := by
  intro h
  have hmark : 'u' ∈ (integer n).print.toList := by
    rw [h, toList_print_uuid]
    exact List.mem_cons_self
  exact absurd (Text.mem_toString_int hmark) (by decide)

/-- The text of a scalar key determines it. -/
theorem print_injective {first second : RecordKey} (hfirst : first.IsScalar)
    (hsecond : second.IsScalar) (h : first.print = second.print) : first = second := by
  cases first <;> cases second
  case text.text => rw [Ident.escape_injective h]
  case text.integer => exact absurd h (print_text_ne_integer _ _)
  case text.uuid => exact absurd h (print_text_ne_uuid _ _)
  case integer.text => exact absurd h.symm (print_text_ne_integer _ _)
  case integer.integer => rw [Int64.toInt_inj.mp (Text.toString_int_injective h)]
  case integer.uuid => exact absurd h (print_integer_ne_uuid _ _)
  case uuid.text => exact absurd h.symm (print_text_ne_uuid _ _)
  case uuid.integer => exact absurd h.symm (print_integer_ne_uuid _ _)
  case uuid.uuid first second =>
    have hlist := congrArg String.toList h
    simp only [toList_print_uuid, List.cons.injEq, true_and, List.append_cancel_right_eq] at hlist
    rw [Uuid.text_injective (String.toList_inj.mp hlist)]
  all_goals first | exact hfirst.elim | exact hsecond.elim

/-! ### Brackets in keys -/

/-- A scalar key with a closing bracket in its text is a text in brackets. -/
theorem exists_of_bracket_mem_print {key : RecordKey} (hkey : key.IsScalar)
    (h : '⟩' ∈ key.print.toList) : ∃ ident : String, key = text ident ∧
      Ident.isBare ident.toList = false ∧
      key.print.toList = '⟨' :: (Ident.interior ident.toList ++ ['⟩']) := by
  cases key with
  | text ident =>
    cases hbare : Ident.isBare ident.toList with
    | false => exact ⟨ident, rfl, hbare, Ident.toList_escape_of_not_bare hbare⟩
    | true =>
      rw [print, Ident.toList_escape_of_bare hbare] at h
      exact absurd (Ident.isWordChar_of_isBare hbare h) (by decide)
  | integer n => exact absurd (Text.mem_toString_int h) (by decide)
  | uuid key =>
    have hdigit : ∀ n < 16, '⟩' ≠ Nat.digitChar n := by decide
    rw [toList_print_uuid] at h
    simp only [List.mem_cons, List.mem_append, List.not_mem_nil, or_false] at h
    rcases h with h | h | h | h
    · exact absurd h (by decide)
    · exact absurd h (by decide)
    · rcases Uuid.mem_text h with h | ⟨n, hn, h⟩
      · exact absurd h (by decide)
      · exact absurd h (hdigit n hn)
    · exact absurd h (by decide)
  | array => exact hkey.elim
  | object => exact hkey.elim

/-- A colon and a scalar key that are read as the rest of an identifier, up to a bracket that closes
it: the identifier goes on with the colon and the bracket that opens the key, and with a part of the
key. -/
theorem exists_of_colon_print_eq {key : RecordKey} (hkey : key.IsScalar) {tail after : List Char}
    (h : ':' :: key.print.toList = Ident.interior tail ++ '⟩' :: after) :
    ∃ (ident : String) (inside : List Char), key = text ident ∧
      Ident.isBare ident.toList = false ∧ tail = ':' :: '⟨' :: inside ∧
      Ident.interior ident.toList ++ ['⟩'] = Ident.interior inside ++ '⟩' :: after := by
  obtain ⟨tail, rfl, hprint⟩ :=
    Ident.exists_of_cons_eq_interior_append (by decide) (by decide) h
  have hbracket : '⟩' ∈ key.print.toList := by simp [hprint]
  obtain ⟨ident, rfl, hbare, htext⟩ := exists_of_bracket_mem_print hkey hbracket
  rw [htext] at hprint
  obtain ⟨inside, rfl, hinside⟩ :=
    Ident.exists_of_cons_eq_interior_append (by decide) (by decide) hprint
  exact ⟨ident, inside, rfl, hbare, rfl, hinside⟩

end RecordKey

namespace RecordId

theorem toList_text (id : RecordId) :
    id.text.toList = (Ident.escape id.table).toList ++ ':' :: id.key.print.toList := by
  rw [text, String.toList_append, String.toList_append, List.append_assoc]
  rfl

/-- Two record ids that are printed alike. The backslash that ends the first table stands in front
of its closing bracket, where the second table has a bracket, a colon and an opening bracket of its
own; the second table ends in a backslash likewise, where the first key has these three. -/
def Confusable (first second : RecordId) : Prop :=
  ∃ front middle rest : String, Ident.isBare rest.toList = false ∧
    first = ⟨front ++ "\\", .text (middle ++ "⟩:⟨" ++ rest)⟩ ∧
    second = ⟨front ++ "⟩:⟨" ++ middle ++ "\\", .text rest⟩

theorem Confusable.text_eq {first second : RecordId} (h : Confusable first second) :
    first.text = second.text := by
  obtain ⟨front, middle, rest, hbare, rfl, rfl⟩ := h
  have hbrackets {ident : String} {c : Char} (hc : c ∈ ident.toList)
      (hword : Ident.isWordChar c = false) : (Ident.escape ident).toList =
        '⟨' :: (Ident.interior ident.toList ++ ['⟩']) :=
    Ident.toList_escape_of_not_bare (Ident.isBare_eq_false_of_mem hc hword)
  have hfirst : '\\' ∈ (front ++ "\\").toList := by simp
  have hsecond : '\\' ∈ (front ++ "⟩:⟨" ++ middle ++ "\\").toList := by simp
  have hkey : '⟩' ∈ (middle ++ "⟩:⟨" ++ rest).toList := by simp
  rw [← String.toList_inj, toList_text, toList_text]
  dsimp only [RecordKey.print]
  rw [hbrackets hfirst (by decide), hbrackets hsecond (by decide), hbrackets hkey (by decide),
    Ident.toList_escape_of_not_bare hbare]
  simp [Ident.interior_nil]

/-- A table and a scalar key are determined by their texts. -/
theorem eq_of_print_eq {first second : RecordId} (hfirst : first.key.IsScalar)
    (hsecond : second.key.IsScalar) (htable : first.table.toList = second.table.toList)
    (hkey : first.key.print.toList = second.key.print.toList) : first = second := by
  cases first
  cases second
  rw [mk.injEq]
  exact ⟨String.toList_inj.mp htable,
    RecordKey.print_injective hfirst hsecond (String.toList_inj.mp hkey)⟩

section Brackets

variable {first second : RecordId} (hfirst : first.key.IsScalar) (hsecond : second.key.IsScalar)

include hfirst hsecond

/-- The text of the second table runs on through the colon and the bracket that opens the first key.
The bracket that closes the second table is then one inside that key, by the same argument. -/
theorem confusable_of_runsOn (h : Ident.RunsOn first.table.toList (':' :: first.key.print.toList)
    second.table.toList (':' :: second.key.print.toList)) : Confusable first second := by
  obtain ⟨front, tail, hfront, htable, hkey⟩ := h
  obtain ⟨ident, inside, hident, -, rfl, hinside⟩ := RecordKey.exists_of_colon_print_eq hfirst hkey
  rcases Ident.bracketed_eq_iff.mp hinside with ⟨-, hnil⟩ | ⟨_, _, -, -, hnil⟩ | hruns
  · cases hnil
  · exact absurd hnil.symm (List.append_ne_nil_of_right_ne_nil _ (List.cons_ne_nil _ _))
  obtain ⟨middle, tail, rfl, hmiddle, hkey⟩ := hruns
  obtain ⟨rest, inside, hrest, hbare, rfl, hinside⟩ :=
    RecordKey.exists_of_colon_print_eq hsecond hkey
  obtain rfl := Ident.interior_injective (List.append_cancel_right hinside)
  have hfirst_table : first.table = String.ofList front ++ "\\" := by
    rw [← String.toList_inj, hfront, String.toList_append, String.toList_ofList]
    rfl
  have hfirst_key : ident = String.ofList middle ++ "⟩:⟨" ++ rest := by
    rw [← String.toList_inj, hmiddle]
    simp
  have hsecond_table : second.table =
      String.ofList front ++ "⟩:⟨" ++ String.ofList middle ++ "\\" := by
    rw [← String.toList_inj, htable]
    simp
  refine ⟨String.ofList front, String.ofList middle, rest, hbare, ?_, ?_⟩
  · rw [← hfirst_table, ← hfirst_key, ← hident]
  · rw [← hsecond_table, ← hrest]

/-- Record ids with scalar keys have one text if and only if they are equal or confusable. -/
theorem text_eq_iff : first.text = second.text ↔
    first = second ∨ Confusable first second ∨ Confusable second first := by
  constructor
  · intro h
    have hlist := congrArg String.toList h
    rw [toList_text, toList_text] at hlist
    cases hbare : Ident.isBare first.table.toList <;>
      cases hbare' : Ident.isBare second.table.toList
    case false.false =>
      rw [Ident.toList_escape_of_not_bare hbare, Ident.toList_escape_of_not_bare hbare'] at hlist
      simp only [List.cons_append, List.append_assoc, List.nil_append, List.cons.injEq,
        true_and] at hlist
      rcases Ident.bracketed_eq_iff.mp hlist with ⟨htable, hkey⟩ | hruns | hruns
      · exact .inl (eq_of_print_eq hfirst hsecond htable (List.cons.inj hkey).2)
      · exact .inr (.inl (confusable_of_runsOn hfirst hsecond hruns))
      · exact .inr (.inr (confusable_of_runsOn hsecond hfirst hruns))
    case false.true =>
      rw [Ident.toList_escape_of_not_bare hbare, Ident.toList_escape_of_bare hbare'] at hlist
      exact absurd hlist.symm (Ident.append_ne_bracket_cons_of_isBare hbare' _ _)
    case true.false =>
      rw [Ident.toList_escape_of_bare hbare, Ident.toList_escape_of_not_bare hbare'] at hlist
      exact absurd hlist (Ident.append_ne_bracket_cons_of_isBare hbare _ _)
    case true.true =>
      rw [Ident.toList_escape_of_bare hbare, Ident.toList_escape_of_bare hbare'] at hlist
      obtain ⟨htable, hkey⟩ := Ident.eq_of_append_colon_eq hbare hbare' hlist
      exact .inl (eq_of_print_eq hfirst hsecond htable hkey)
  · rintro (rfl | hconfusable | hconfusable)
    · rfl
    · exact hconfusable.text_eq
    · exact hconfusable.text_eq.symm

end Brackets

/-- The table of one backslash, and the table and key that its text is also read as. -/
theorem text_eq_iff_backslash :
    text ⟨"\\", .text "⟩:⟨"⟩ = text ⟨"⟩:⟨\\", .text ""⟩ ∧
      (⟨"\\", .text "⟩:⟨"⟩ : RecordId) ≠ ⟨"⟩:⟨\\", .text ""⟩ := by
  have hconfusable : Confusable ⟨"\\", .text "⟩:⟨"⟩ ⟨"⟩:⟨\\", .text ""⟩ :=
    ⟨"", "", "", by decide, rfl, rfl⟩
  refine ⟨(text_eq_iff ?_ ?_).mpr (.inr (.inl hconfusable)), fun h ↦ ?_⟩
  · exact trivial
  · exact trivial
  exact absurd (congrArg table h) (by decide)

end RecordId

end Wireline
