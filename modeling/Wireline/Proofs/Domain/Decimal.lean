import Mathlib.Computability.Language
import Mathlib.Data.List.TakeWhile
import Wireline.Proofs.Domain.Conversion

/-!
# The form of a decimal

The texts that have the form of a number are a language: an optional sign, a run of digits, an
optional fraction and an optional exponent (`numerals`). A text is tested by cutting it at the first
character of a kind, the exponent off first and the fraction then, and each cut is an optional part
of the language when nothing in front of it has such a character (`mem_mul_optional_iff`). So the
test is passed by the words of the language and by nothing else (`isNumeral_iff`), and the text of a
decimal is the one that it was read from.
-/

set_option autoImplicit false
set_option relaxedAutoImplicit false

namespace Wireline.Decimal

open Language

/-! ## The language -/

/-- The words of one character out of some. -/
def oneOf (chars : List Char) : Language Char :=
  {word | ∃ c ∈ chars, word = [c]}

/-- A part that may be left out. -/
def optional (part : Language Char) : Language Char :=
  1 + part

/-- One or more ASCII digits. -/
def digitRuns : Language Char :=
  {run | run ≠ [] ∧ ∀ c ∈ run, '0' ≤ c ∧ c ≤ '9'}

/-- An optional sign and digits. -/
def integers : Language Char :=
  optional (oneOf ['-', '+']) * digitRuns

/-- An optional sign, digits, an optional fraction and an optional exponent. -/
def numerals : Language Char :=
  optional (oneOf ['-', '+']) *
    (digitRuns * optional (oneOf ['.'] * digitRuns) * optional (oneOf ['e', 'E'] * integers))

theorem cons_mem_oneOf_mul {chars : List Char} {c : Char} (hc : c ∈ chars) {rest : Language Char}
    {text : List Char} (h : text ∈ rest) : c :: text ∈ oneOf chars * rest :=
  append_mem_mul (show [c] ∈ oneOf chars from ⟨c, hc, rfl⟩) h

/-- An optional part that comes after a mark is left out, or it has the mark in front. -/
theorem mem_optional_oneOf_mul {chars : List Char} {rest : Language Char} {text : List Char} :
    text ∈ optional (oneOf chars * rest) ↔
      text = [] ∨ ∃ c ∈ chars, ∃ after ∈ rest, text = c :: after := by
  constructor
  · rintro (hnil | hmarked)
    · exact .inl hnil
    · obtain ⟨_, ⟨c, hc, rfl⟩, after, hafter, rfl⟩ := mem_mul.mp hmarked
      exact .inr ⟨c, hc, after, hafter, rfl⟩
  · rintro (rfl | ⟨c, hc, after, hafter, rfl⟩)
    · exact .inl rfl
    · exact .inr (cons_mem_oneOf_mul hc hafter)

/-! ## Cutting a text -/

theorem isDigit_iff (c : Char) : c.isDigit = true ↔ '0' ≤ c ∧ c ≤ '9' := by
  simp only [Char.isDigit, Bool.and_eq_true, decide_eq_true_eq]
  exact Iff.rfl

theorem areDigits_iff (text : List Char) : areDigits text = true ↔ text ∈ digitRuns := by
  simp only [areDigits, Bool.and_eq_true, Bool.not_eq_true', List.isEmpty_eq_false_iff,
    List.all_eq_true, isDigit_iff]
  exact Iff.rfl

/-- What has no separating character is not cut. -/
theorem splitAt_of_forall {separates : Char → Bool} {text : List Char}
    (h : ∀ c ∈ text, separates c = false) : splitAt separates text = (text, none) := by
  have hkept : ∀ c ∈ text, (!separates c) = true := fun c hc ↦ by rw [h c hc]; rfl
  have hspan : text.span (!separates ·) = (text, []) := by
    rw [List.span_eq_takeWhile_dropWhile, List.takeWhile_eq_self_iff.mpr hkept,
      List.dropWhile_eq_nil_iff.mpr hkept]
  rw [splitAt, hspan]

/-- The cut is made at the first separating character. -/
theorem splitAt_append_cons {separates : Char → Bool} {before : List Char}
    (hbefore : ∀ c ∈ before, separates c = false) {mark : Char} (hmark : separates mark = true)
    (after : List Char) :
    splitAt separates (before ++ mark :: after) = (before, some after) := by
  have hkept : ∀ c ∈ before, (!separates c) = true := fun c hc ↦ by rw [hbefore c hc]; rfl
  have hspan : (before ++ mark :: after).span (!separates ·) = (before, mark :: after) := by
    rw [List.span_eq_takeWhile_dropWhile, List.takeWhile_append_of_pos hkept,
      List.dropWhile_append_of_pos hkept, List.takeWhile_cons_of_neg (by simp [hmark]),
      List.dropWhile_cons_of_neg (by simp [hmark]), List.append_nil]
  rw [splitAt, hspan]

/-- A text has no separating character, or it has a first one. -/
theorem forall_or_first (separates : Char → Bool) (text : List Char) :
    (∀ c ∈ text, separates c = false) ∨ ∃ before mark after, text = before ++ mark :: after ∧
      (∀ c ∈ before, separates c = false) ∧ separates mark = true := by
  cases hfind : text.find? separates with
  | none => exact .inl fun c hc ↦ Bool.eq_false_iff.mpr (List.find?_eq_none.mp hfind c hc)
  | some mark =>
    obtain ⟨hmark, before, after, htext, hbefore⟩ := List.find?_eq_some_iff_append.mp hfind
    exact .inr ⟨before, mark, after, htext, fun c hc ↦ by simpa using hbefore c hc, hmark⟩

/-- A cut takes an optional part off the end, when nothing in front of it has a character that
separates. -/
theorem mem_mul_optional_iff {separates : Char → Bool} {marks : List Char}
    (hmarks : ∀ c, separates c = true ↔ c ∈ marks) {front rest : Language Char}
    (hfront : ∀ word ∈ front, ∀ c ∈ word, separates c = false) (text : List Char) :
    text ∈ front * optional (oneOf marks * rest) ↔
      (splitAt separates text).1 ∈ front ∧ ∀ after ∈ (splitAt separates text).2, after ∈ rest := by
  constructor
  · intro htext
    obtain ⟨word, hword, tail, htail, rfl⟩ := mem_mul.mp htext
    rcases mem_optional_oneOf_mul.mp htail with rfl | ⟨c, hc, after, hafter, rfl⟩
    · rw [List.append_nil, splitAt_of_forall (hfront word hword)]
      exact ⟨hword, by simp⟩
    · rw [splitAt_append_cons (hfront word hword) ((hmarks c).mpr hc)]
      exact ⟨hword, by simpa using hafter⟩
  · rintro ⟨hbefore, hafter⟩
    rcases forall_or_first separates text with hnone | ⟨before, mark, after, rfl, hfree, hmark⟩
    · rw [splitAt_of_forall hnone] at hbefore
      exact mem_mul.mpr ⟨text, hbefore, [], mem_optional_oneOf_mul.mpr (.inl rfl), by simp⟩
    · rw [splitAt_append_cons hfree hmark] at hbefore hafter
      refine append_mem_mul hbefore (mem_optional_oneOf_mul.mpr (.inr ?_))
      exact ⟨mark, (hmarks mark).mp hmark, after, hafter after rfl, rfl⟩

/-- A sign is taken off the front, when what follows it does not begin with one. -/
theorem mem_optional_sign_mul_iff {rest : Language Char}
    (hrest : ∀ word ∈ rest, unsigned word = word) (text : List Char) :
    text ∈ optional (oneOf ['-', '+']) * rest ↔ unsigned text ∈ rest := by
  have hsign (c : Char) : c = '-' ∨ c = '+' ↔ c ∈ ['-', '+'] := by simp
  constructor
  · intro htext
    obtain ⟨sign, hoptional, word, hword, rfl⟩ := mem_mul.mp htext
    rcases hoptional with rfl | ⟨c, hc, rfl⟩
    · rwa [List.nil_append, hrest word hword]
    · rwa [List.singleton_append, unsigned, if_pos ((hsign c).mpr hc)]
  · intro htext
    cases text with
    | nil => exact mem_mul.mpr ⟨[], .inl rfl, [], htext, rfl⟩
    | cons c tail =>
      rw [unsigned] at htext
      split at htext
      · exact mem_mul.mpr ⟨[c], .inr ⟨c, (hsign c).mp ‹_›, rfl⟩, tail, htext, rfl⟩
      · exact mem_mul.mpr ⟨[], .inl rfl, c :: tail, htext, rfl⟩

/-! ## The test -/

/-- What begins with a digit has no sign. -/
theorem unsigned_append_of_mem_digitRuns {run : List Char} (hrun : run ∈ digitRuns)
    (tail : List Char) : unsigned (run ++ tail) = run ++ tail := by
  obtain ⟨hne, hdigits⟩ := hrun
  obtain ⟨digit, rest, rfl⟩ := List.exists_cons_of_ne_nil hne
  have hdigit := hdigits digit List.mem_cons_self
  have hunsigned : ¬(digit = '-' ∨ digit = '+') := by
    rintro (rfl | rfl) <;> revert hdigit <;> decide
  rw [List.cons_append, unsigned, if_neg hunsigned]

theorem mem_integers_iff (text : List Char) : text ∈ integers ↔ unsigned text ∈ digitRuns := by
  have hruns : ∀ run ∈ digitRuns, unsigned run = run := fun run hrun ↦ by
    simpa using unsigned_append_of_mem_digitRuns hrun []
  exact mem_optional_sign_mul_iff hruns text

/-- A number is tested by its parts: the exponent is cut off, then the fraction. -/
theorem isNumeral_iff_parts (text : List Char) :
    isNumeral text = true ↔
      let cut := splitAt (fun c ↦ c == 'e' || c == 'E') (unsigned text)
      let mantissa := splitAt (· == '.') cut.1
      (mantissa.1 ∈ digitRuns ∧ ∀ fraction ∈ mantissa.2, fraction ∈ digitRuns) ∧
        ∀ exponent ∈ cut.2, exponent ∈ integers := by
  simp only [isNumeral, Bool.and_eq_true, Option.all_eq_true, areDigits_iff, Function.comp_apply,
    mem_integers_iff]
  exact Iff.rfl

/-- A character below the digits or above them is in no run of digits. -/
theorem beq_eq_false_of_mem_digitRuns {run : List Char} (hrun : run ∈ digitRuns) {c : Char}
    (hc : c ∈ run) {mark : Char} (hmark : mark.isDigit = false) : (c == mark) = false := by
  refine beq_eq_false_iff_ne.mpr ?_
  rintro rfl
  exact Bool.false_ne_true (hmark.symm.trans ((isDigit_iff c).mpr (hrun.2 c hc)))

/-- No digits and no fraction begin an exponent. -/
theorem exponent_mark_not_mem {word : List Char}
    (hword : word ∈ digitRuns * optional (oneOf ['.'] * digitRuns)) {c : Char} (hc : c ∈ word) :
    (c == 'e' || c == 'E') = false := by
  have hrun {run : List Char} (hrun : run ∈ digitRuns) (hc : c ∈ run) :
      (c == 'e' || c == 'E') = false := by
    rw [beq_eq_false_of_mem_digitRuns hrun hc rfl, beq_eq_false_of_mem_digitRuns hrun hc rfl]
    rfl
  obtain ⟨whole, hwhole, tail, htail, rfl⟩ := mem_mul.mp hword
  rcases List.mem_append.mp hc with hc | hc
  · exact hrun hwhole hc
  rcases mem_optional_oneOf_mul.mp htail with rfl | ⟨dot, hdot, fraction, hfraction, rfl⟩
  · exact absurd hc List.not_mem_nil
  rcases List.mem_cons.mp hc with rfl | hc
  · rw [List.mem_singleton.mp hdot]
    rfl
  · exact hrun hfraction hc

/-- The test is passed by the words of the language, and by nothing else. -/
theorem isNumeral_iff (text : List Char) : isNumeral text = true ↔ text ∈ numerals := by
  have hunsigned : ∀ word ∈ digitRuns * optional (oneOf ['.'] * digitRuns) *
      optional (oneOf ['e', 'E'] * integers), unsigned word = word := by
    intro word hword
    obtain ⟨mantissa, hmantissa, exponent, -, rfl⟩ := mem_mul.mp hword
    obtain ⟨whole, hwhole, fraction, -, rfl⟩ := mem_mul.mp hmantissa
    rw [List.append_assoc, unsigned_append_of_mem_digitRuns hwhole]
  have hdot : ∀ run ∈ digitRuns, ∀ c ∈ run, (c == '.') = false :=
    fun run hrun c hc ↦ beq_eq_false_of_mem_digitRuns hrun hc rfl
  have hexponent : ∀ word ∈ digitRuns * optional (oneOf ['.'] * digitRuns), ∀ c ∈ word,
      (c == 'e' || c == 'E') = false := fun _ hword _ ↦ exponent_mark_not_mem hword
  rw [isNumeral_iff_parts, numerals, mem_optional_sign_mul_iff hunsigned,
    mem_mul_optional_iff (by simp) hexponent, mem_mul_optional_iff (by simp) hdot]

/-! ## What is read -/

/-- What is read is the text itself, or the text is named as the one that is no number. -/
theorem parse_cases (text : String) :
    (∃ decimal : Decimal, text.toList ∈ numerals ∧ decimal.text = text ∧
      parse text = .ok decimal) ∨
    (text.toList ∉ numerals ∧ parse text = .error (.malformed .decimal text)) := by
  by_cases htext : isNumeral text.toList = true
  · exact .inl ⟨⟨text, htext⟩, (isNumeral_iff _).mp htext, rfl, dif_pos htext⟩
  · exact .inr ⟨fun hmem ↦ htext ((isNumeral_iff _).mpr hmem), dif_neg htext⟩

/-- A text is read if and only if it is an optional sign, digits, an optional fraction and an
optional exponent, and nothing else. What is read from it shows the same text, also once it has been
sent as a value and read back, and a text that is not read is given back with the refusal. -/
theorem read_and_shown_exactly (text : String) :
    ((∃ decimal, parse text = .ok decimal) ↔ text.toList ∈ numerals) ∧
    (∀ decimal, parse text = .ok decimal →
      decimal.text = text ∧ decimal.toValue = .tagged Tag.decimal (.text text) ∧
      ∃ back, ofValue decimal.toValue = .ok back ∧ back.text = text) ∧
    (text.toList ∉ numerals → parse text = .error (.malformed .decimal text)) := by
  rcases parse_cases text with ⟨decimal, hmem, rfl, hread⟩ | ⟨hnot, hread⟩
  · refine ⟨⟨fun _ ↦ hmem, fun _ ↦ ⟨decimal, hread⟩⟩, ?_, fun hnot ↦ absurd hmem hnot⟩
    intro other hother
    obtain rfl : decimal = other := Except.ok.inj (hread.symm.trans hother)
    exact ⟨rfl, rfl, decimal, ofValue_toValue decimal, rfl⟩
  · refine ⟨⟨?_, fun hmem ↦ absurd hmem hnot⟩, ?_, fun _ ↦ hread⟩
    · rintro ⟨decimal, hok⟩
      exact nomatch hread.symm.trans hok
    · intro decimal hok
      exact nomatch hread.symm.trans hok

/-- All the parts are there, and a second fraction is none. -/
theorem read_and_shown_exactly_parts :
    "-1.50e+3".toList ∈ numerals ∧ "1.2.3".toList ∉ numerals ∧
    (∃ decimal, parse "-1.50e+3" = .ok decimal ∧ decimal.text = "-1.50e+3" ∧
      ∃ back, ofValue decimal.toValue = .ok back ∧ back.text = "-1.50e+3") ∧
    parse "1.2.3" = .error (.malformed .decimal "1.2.3") := by
  have hparts : "-1.50e+3".toList ∈ numerals := (isNumeral_iff _).mp (by decide)
  have hsecond : "1.2.3".toList ∉ numerals := fun h ↦ absurd ((isNumeral_iff _).mpr h) (by decide)
  obtain ⟨hread, hshown, -⟩ := read_and_shown_exactly "-1.50e+3"
  obtain ⟨decimal, hok⟩ := hread.mpr hparts
  obtain ⟨htext, -, hback⟩ := hshown decimal hok
  exact ⟨hparts, hsecond, ⟨decimal, hok, htext, hback⟩,
    (read_and_shown_exactly "1.2.3").2.2 hsecond⟩

end Wireline.Decimal
