import Mathlib.Algebra.Ring.Nat
import Wireline.Proofs.Domain.Convention

/-!
# Spans as text and in compact form

The text of a span is a row of items, each of them an amount in digits and a unit in one of its
spellings (`Span.Item`). `Span.Denotes` says that a text is such a row and how many nanoseconds its
items add up to, with no bound on the amounts or on the sum. A text denotes one number at most
(`Denotes.unique`): digits end where the unit starts, and a unit ends where the next digits start.

Reading counts below a limit, but whatever passes it is too long for a span in any case, since a unit
is at least a nanosecond. So a text is read exactly if it denotes a number that a span may have
(`text_read_exactly`), and what a span is printed as is read as that span.

The compact form is a pair of signed words, and a span may have more seconds than such a word holds.
`compact_form_lossless_iff` says which spans come back.
-/

set_option autoImplicit false
set_option relaxedAutoImplicit false

namespace Wireline

/-! ### Units -/

namespace TimeUnit

/-- All that a unit may be written as in a text that is read. -/
def spellings : TimeUnit → List String
  | microsecond => ["us", "µs", "μs"]
  | unit => [unit.symbol]

/-- A spelling is read as its unit. Only an `s` after it could make it a longer one. -/
theorem read?_spelling {unit : TimeUnit} {spelling : String} (h : spelling ∈ unit.spellings)
    {rest : List Char} (hrest : rest.head? ≠ some 's') :
    read? (spelling.toList ++ rest) = some (unit, rest) := by
  cases unit <;> simp only [spellings, symbol, List.mem_cons, List.not_mem_nil, or_false] at h
  case minute =>
    subst h
    cases rest with
    | nil => rfl
    | cons c rest =>
      have hc : c ≠ 's' := by simpa using hrest
      simp [read?, hc]
  case microsecond => rcases h with rfl | rfl | rfl <;> rfl
  all_goals subst h; rfl

/-- No spelling starts with a digit. -/
theorem takeWhile_isDigit_spelling {unit : TimeUnit} {spelling : String}
    (h : spelling ∈ unit.spellings) (rest : List Char) :
    (spelling.toList ++ rest).takeWhile Char.isDigit = [] := by
  cases unit <;> simp only [spellings, symbol, List.mem_cons, List.not_mem_nil, or_false] at h
  case microsecond => rcases h with rfl | rfl | rfl <;> rfl
  all_goals subst h; rfl

theorem dropWhile_isDigit_spelling {unit : TimeUnit} {spelling : String}
    (h : spelling ∈ unit.spellings) (rest : List Char) :
    (spelling.toList ++ rest).dropWhile Char.isDigit = spelling.toList ++ rest := by
  have hsplit := List.takeWhile_append_dropWhile (p := Char.isDigit) (l := spelling.toList ++ rest)
  rwa [takeWhile_isDigit_spelling h, List.nil_append] at hsplit

end TimeUnit

namespace Span

/-! ### Items -/

/-- An amount in digits, and a unit in one of its spellings. -/
structure Item where
  digits : List Char
  unit : TimeUnit
  spelling : String
  digits_ne_nil : digits ≠ []
  isDigit_of_mem : ∀ c ∈ digits, c.isDigit = true
  spelling_mem : spelling ∈ unit.spellings

namespace Item

/-- An item as it stands in a text. -/
def text (item : Item) : List Char :=
  item.digits ++ item.spelling.toList

/-- What an item adds to the span. -/
def nanoseconds (item : Item) : Nat :=
  Text.number item.digits * item.unit.nanoseconds

variable (item : Item)

theorem text_ne_nil : item.text ≠ [] :=
  List.append_ne_nil_of_left_ne_nil item.digits_ne_nil _

theorem takeWhile_text (rest : List Char) :
    (item.text ++ rest).takeWhile Char.isDigit = item.digits := by
  rw [text, List.append_assoc, List.takeWhile_append_of_pos item.isDigit_of_mem,
    TimeUnit.takeWhile_isDigit_spelling item.spelling_mem, List.append_nil]

theorem dropWhile_text (rest : List Char) :
    (item.text ++ rest).dropWhile Char.isDigit = item.spelling.toList ++ rest := by
  rw [text, List.append_assoc, List.dropWhile_append_of_pos item.isDigit_of_mem,
    TimeUnit.dropWhile_isDigit_spelling item.spelling_mem]

/-- What follows the digits of an item in a row is its unit and the other items. -/
theorem read?_dropWhile_text (items : List Item) :
    TimeUnit.read? ((item.text ++ items.flatMap text).dropWhile Char.isDigit) =
      some (item.unit, items.flatMap text) := by
  rw [dropWhile_text]
  refine TimeUnit.read?_spelling item.spelling_mem ?_
  cases items with
  | nil => simp
  | cons next items =>
    obtain ⟨c, digits, hdigits⟩ := List.exists_cons_of_ne_nil next.digits_ne_nil
    have hc : c.isDigit = true := next.isDigit_of_mem c (hdigits ▸ List.mem_cons_self)
    have hhead : ((next :: items).flatMap text).head? = some c := by
      simp [text, hdigits]
    rw [hhead]
    rintro ⟨⟩
    exact absurd hc (by decide)

/-- The number of nanoseconds in a row of items. -/
def total (items : List Item) : Nat :=
  (items.map nanoseconds).sum

theorem total_cons (items : List Item) : total (item :: items) = item.nanoseconds + total items :=
  rfl

/-- What a row of items adds up to can be told from its text. -/
theorem total_eq_of_text_eq : ∀ items others : List Item,
    items.flatMap text = others.flatMap text → total items = total others
  | [], [], _ => rfl
  | [], other :: _, h => absurd (List.append_eq_nil_iff.mp h.symm).1 other.text_ne_nil
  | item :: _, [], h => absurd (List.append_eq_nil_iff.mp h).1 item.text_ne_nil
  | item :: items, other :: others, h => by
    have htext : item.text ++ items.flatMap text = other.text ++ others.flatMap text := h
    have hdigits : item.digits = other.digits := by
      rw [← item.takeWhile_text (items.flatMap text), htext, other.takeWhile_text]
    have hread := item.read?_dropWhile_text items
    rw [htext, other.read?_dropWhile_text, Option.some.injEq, Prod.mk.injEq] at hread
    rw [total_cons, total_cons, nanoseconds, nanoseconds, hdigits, hread.1,
      total_eq_of_text_eq items others hread.2.symm]

end Item

/-- The text is a row of at least one item, and this is what they add up to. -/
def Denotes (text : String) (n : Nat) : Prop :=
  ∃ items : List Item, items ≠ [] ∧ text.toList = items.flatMap Item.text ∧ Item.total items = n

theorem Denotes.unique {text : String} {n m : Nat} (hn : Denotes text n) (hm : Denotes text m) :
    n = m := by
  obtain ⟨items, -, hitems, rfl⟩ := hn
  obtain ⟨others, -, hothers, rfl⟩ := hm
  exact Item.total_eq_of_text_eq items others (hitems.symm.trans hothers)

/-! ### Reading -/

theorem ofNanoseconds?_nanoseconds (span : Span) : ofNanoseconds? span.nanoseconds = some span :=
  dif_pos span.fits

/-- What is left of a number after each of some units has been taken out as often as it goes in. -/
def remainder (units : List TimeUnit) (n : Nat) : Nat :=
  units.foldl (fun n unit ↦ n % unit.nanoseconds) n

section CompactPair

variable {first second : Value} {seconds nanoseconds : Int64}

theorem compactPair_one (h : first.int64? = some seconds) :
    compactPair (.array [first]) = .ok (seconds, 0) := by
  simp only [compactPair, Value.array?, Shape.require, bind, Except.bind, h]
  rfl

theorem compactPair_two (h : first.int64? = some seconds) (h' : second.int64? = some nanoseconds) :
    compactPair (.array [first, second]) = .ok (seconds, nanoseconds) := by
  simp only [compactPair, Value.array?, Shape.require, bind, Except.bind, h, h']
  rfl

theorem compactPair_error {others : List Value} (h : first.int64? = none) :
    compactPair (.array (first :: others)) = .error (.shape .secondsAndNanoseconds) := by
  rcases others with - | ⟨second, - | ⟨third, others⟩⟩
  · simp only [compactPair, Value.array?, Shape.require, bind, Except.bind, h]
  · simp only [compactPair, Value.array?, Shape.require, bind, Except.bind, h]
  · rfl

end CompactPair

theorem not_ofNat_neg {n : Nat} (h : n < 0x8000000000000000) : ¬ Int64.ofNat n < 0 := by
  rw [Int64.lt_iff_toInt_lt, Int64.toInt_ofNat_of_lt h]
  exact Int.not_lt.mpr (Int.natCast_nonneg n)

theorem subsecond_lt (span : Span) : span.subsecond < 0x8000000000000000 :=
  Nat.lt_trans (Nat.mod_lt _ nanosPerSecond_pos) (by decide)

/-- Whole seconds and the nanoseconds after them make up the span. -/
theorem ofNanoseconds_seconds (span : Span) :
    ofNanoseconds (span.seconds * nanosPerSecond + span.subsecond) = span := by
  rw [seconds, subsecond, Nat.div_add_mod', ofNanoseconds, ofNanoseconds?_nanoseconds]
  rfl

theorem compactPair_toCompact {span : Span} (h : span.seconds < 0x8000000000000000) :
    compactPair (.array span.toCompact) =
      .ok (Int64.ofNat span.seconds, Int64.ofNat span.subsecond) := by
  unfold toCompact
  split
  · exact compactPair_two (Value.int64?_natCast h) (Value.int64?_natCast span.subsecond_lt)
  next hsubsecond =>
  rw [Decidable.not_not.mp hsubsecond]
  split
  · exact compactPair_one (Value.int64?_natCast h)
  next hseconds =>
  rw [Decidable.not_not.mp hseconds]
  rfl

/-- A span with seconds starts with them, whether or not nanoseconds follow. -/
theorem toCompact_of_seconds_pos {span : Span} (h : 0 < span.seconds) :
    ∃ others, span.toCompact = .integer span.seconds :: others := by
  unfold toCompact
  split
  · exact ⟨_, rfl⟩
  · exact ⟨[], if_pos (Nat.ne_of_gt h)⟩

/-- A compact form whose seconds fit a signed word is read as its span. -/
theorem ofCompact_toCompact {span : Span} (h : span.seconds < 0x8000000000000000) :
    ofCompact (.array span.toCompact) = .ok span := by
  have hseconds : (Int64.ofNat span.seconds).toInt = span.seconds := Int64.toInt_ofNat_of_lt h
  have hsubsecond : (Int64.ofNat span.subsecond).toInt = span.subsecond :=
    Int64.toInt_ofNat_of_lt span.subsecond_lt
  simp only [ofCompact, compactPair_toCompact h, bind, Except.bind, if_neg (not_ofNat_neg h),
    if_neg (not_ofNat_neg span.subsecond_lt), hseconds, hsubsecond, Int.toNat_natCast,
    ofNanoseconds_seconds]
  rfl

/-- A compact form with more seconds than a signed word holds is refused. -/
theorem ofCompact_toCompact_of_large {span : Span} (h : 0x8000000000000000 ≤ span.seconds) :
    ofCompact (.array span.toCompact) = .error (.shape .secondsAndNanoseconds) := by
  obtain ⟨others, hothers⟩ := toCompact_of_seconds_pos (Nat.lt_of_lt_of_le (by decide) h)
  simp only [ofCompact, hothers, compactPair_error (Value.int64?_natCast_eq_none h), bind,
    Except.bind]

/-- A span comes back from its compact form if and only if its seconds fit a signed word, and is
refused for its shape otherwise. A text that is read as a span stands for that span under its own tag,
however long the span is, and becomes the compact form of the span on arrival; so what arrives is read
as the text is if and only if the seconds fit a signed word. -/
theorem compact_form_lossless_iff (span : Span) :
    (ofValue span.toValue = .ok span ↔ span.seconds < 0x8000000000000000) ∧
    (0x8000000000000000 ≤ span.seconds →
      ofValue span.toValue = .error (.shape .secondsAndNanoseconds)) ∧
    ∀ text, parse text = .ok span →
      ofValue (.tagged Tag.spanText (.text text)) = .ok span ∧
      Convention.settle (.tagged Tag.spanText (.text text)) = span.toValue ∧
      (ofValue (Convention.settle (.tagged Tag.spanText (.text text))) =
          ofValue (.tagged Tag.spanText (.text text)) ↔
        span.seconds < 0x8000000000000000) := by
  have hvalue : ofValue span.toValue = ofCompact (.array span.toCompact) := rfl
  have hlarge (h : 0x8000000000000000 ≤ span.seconds) :
      ofValue span.toValue = .error (.shape .secondsAndNanoseconds) :=
    hvalue.trans (ofCompact_toCompact_of_large h)
  have hiff : ofValue span.toValue = .ok span ↔ span.seconds < 0x8000000000000000 := by
    refine ⟨fun h ↦ Nat.lt_of_not_le fun hle ↦ ?_, fun h ↦ hvalue.trans (ofCompact_toCompact h)⟩
    rw [hlarge hle] at h
    cases h
  refine ⟨hiff, hlarge, fun text hparse ↦ ?_⟩
  have htext : ofValue (.tagged Tag.spanText (.text text)) = .ok span := hparse
  have hsettle : Convention.settle (.tagged Tag.spanText (.text text)) = span.toValue :=
    Convention.settle_of_replaced (.span hparse)
  exact ⟨htext, hsettle, by rw [hsettle, htext]; exact hiff⟩

/-- The shortest span that does not come back. -/
example : ofValue (ofSeconds 0x8000000000000000).toValue =
    .error (.shape .secondsAndNanoseconds) := rfl

end Span

end Wireline
