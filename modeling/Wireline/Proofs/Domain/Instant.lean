import Wireline.Proofs.Domain.WordCalendar
import Wireline.Proofs.Text.Digits

/-!
# Instants as text

What is printed for an instant has a date, a time of day and a fraction of a second, and each is
read back by the reader of its part, whatever follows it. Only the date can go wrong: a year takes
four digits where it is read, but as many as it needs where it is printed, and a sign before year
zero. So the text of an instant is read as that instant, or refused if the year has not four digits
(`text_round_trip`).
-/

set_option autoImplicit false
set_option relaxedAutoImplicit false

namespace Wireline.Instant

/-! ### The parts of a text -/

/-- A date as it is printed. -/
def dateText (date : Date) : List Char :=
  Text.padded 4 date.year ++ '-' :: (Text.padded 2 date.month ++ '-' :: Text.padded 2 date.day)

/-- The seconds of a day as they are printed. -/
def timeText (time : Int) : List Char :=
  Text.padded 2 (time / 3600) ++
    ':' :: (Text.padded 2 (time % 3600 / 60) ++ ':' :: Text.padded 2 (time % 60))

/-- The digits that are printed for a fraction of a second. -/
def printedDigits (nanos : Nat) : List Char :=
  if nanos = 0 then [] else fractionDigits nanos

/-- A fraction of a second as it is printed. -/
def fractionText (nanos : Nat) : List Char :=
  if nanos = 0 then [] else '.' :: fractionDigits nanos

/-- The date of an instant in universal time. -/
def date (instant : Instant) : Date :=
  Date.ofDays (instant.seconds.toInt / secondsPerDay)

/-- The seconds since midnight in universal time. -/
def timeOfDay (instant : Instant) : Int :=
  instant.seconds.toInt % secondsPerDay

theorem toList_text (instant : Instant) :
    instant.text.toList = dateText instant.date ++
      'T' :: (timeText instant.timeOfDay ++ (fractionText instant.nanos ++ ['Z'])) := by
  unfold text dateText timeText fractionText date timeOfDay
  simp only [String.toList_ofList, List.append_assoc, List.cons_append]

/-! ### Reading the parts -/

section Date

variable {date : Date} (rest : List Char)

theorem readDate_dateText (h : date.isValid = true) (hleast : 0 ≤ date.year)
    (hmost : date.year ≤ 9999) : readDate (dateText date ++ rest) = some (date, rest) := by
  obtain ⟨hmonth, hmonth', hday, hday'⟩ := Date.isValid_iff.mp h
  have hlength := (Date.daysInMonth_bounds date.year date.month).2
  have hsame : (⟨date.year.natAbs, date.month.natAbs, date.day.natAbs⟩ : Date) = date := by
    obtain ⟨year, month, day⟩ := date
    dsimp only at *
    rw [Int.natAbs_of_nonneg hleast, Int.natAbs_of_nonneg (by omega),
      Int.natAbs_of_nonneg (by omega)]
  unfold readDate dateText
  simp (disch := omega) only [List.append_assoc, List.cons_append, Text.digits?_padded,
    Text.char?_self, Option.bind_eq_bind, Option.bind_some]
  rw [hsame, if_pos h]

theorem readDate_dateText_of_neg (h : date.year < 0) : readDate (dateText date ++ rest) = none := by
  unfold readDate dateText
  rw [List.append_assoc, Text.digits?_padded_of_neg h (by decide)]
  rfl

theorem readDate_dateText_of_large (h : 9999 < date.year) :
    readDate (dateText date ++ rest) = none := by
  unfold readDate dateText
  rw [List.append_assoc]
  obtain ⟨year, c, others, hdigit, hread⟩ := Text.digits?_padded_of_large
    (by omega : 0 ≤ date.year) (by decide : 0 < 4) (by omega)
    ('-' :: (Text.padded 2 date.month ++ '-' :: Text.padded 2 date.day) ++ rest)
  have hdash : (c == '-') = false := by
    rw [beq_eq_false_iff_ne]
    rintro rfl
    cases hdigit
  have hnone : Text.char? (· == '-') (c :: others) = none := Text.char?_cons_eq_none hdash others
  rw [hread]
  show (Text.char? (· == '-') (c :: others)).bind _ = none
  rw [hnone]
  rfl

end Date

theorem readTime_timeText {time : Int} (hleast : 0 ≤ time) (hmost : time < secondsPerDay)
    (rest : List Char) : readTime (timeText time ++ rest) = some (time.natAbs, rest) := by
  unfold secondsPerDay at hmost
  have hhour : (time / 3600).natAbs ≤ 23 := by omega
  have hminute : (time % 3600 / 60).natAbs ≤ 59 := by omega
  have hsecond : (time % 60).natAbs ≤ 60 := by omega
  unfold readTime timeText
  simp (disch := omega) only [List.append_assoc, List.cons_append, Text.digits?_padded,
    Text.char?_self, Option.bind_eq_bind, Option.bind_some]
  rw [if_pos ⟨hhour, hminute, hsecond⟩]
  congr 2
  omega

section Fraction

variable {nanos : Nat}

/-- What is left off at the end are zeros. -/
theorem exists_padded_eq_fractionDigits (nanos : Nat) :
    ∃ count, Text.padded 9 nanos = fractionDigits nanos ++ List.replicate count '0' := by
  let zeros := (Text.padded 9 nanos).reverse.takeWhile (· == '0')
  have hzeros : zeros = List.replicate zeros.length '0' := by
    refine List.eq_replicate_iff.mpr ⟨rfl, fun c hc ↦ ?_⟩
    exact eq_of_beq (List.all_eq_true.mp List.all_takeWhile c hc)
  refine ⟨zeros.length, ?_⟩
  calc Text.padded 9 nanos = (Text.padded 9 nanos).reverse.reverse := (List.reverse_reverse _).symm
    _ = (zeros ++ (Text.padded 9 nanos).reverse.dropWhile (· == '0')).reverse := by
        rw [List.takeWhile_append_dropWhile]
    _ = fractionDigits nanos ++ zeros.reverse := List.reverse_append
    _ = fractionDigits nanos ++ List.replicate zeros.length '0' := by
        rw [hzeros, List.reverse_replicate, List.length_replicate]

theorem isDigit_fractionDigits (nanos : Nat) :
    (fractionDigits nanos).all Char.isDigit = true := by
  obtain ⟨count, hpadded⟩ := exists_padded_eq_fractionDigits nanos
  have hdigits := Text.isDigit_padded 9 (Int.natCast_nonneg nanos)
  rw [hpadded, List.all_append, Bool.and_eq_true] at hdigits
  exact hdigits.1

theorem fractionDigits_ne_nil (h : nanos ≠ 0) : fractionDigits nanos ≠ [] := by
  intro hnil
  obtain ⟨count, hpadded⟩ := exists_padded_eq_fractionDigits nanos
  have hnumber := Text.number_padded 9 (Int.natCast_nonneg nanos)
  rw [hpadded, hnil, List.nil_append, ← List.append_nil (List.replicate _ _),
    Text.number_zeros_append, Int.natAbs_natCast] at hnumber
  exact h hnumber.symm

/-- The zeros that were left off are put back. -/
theorem fractionNanos_fractionDigits (h : nanos < nanosPerSecond) :
    fractionNanos (fractionDigits nanos) = nanos := by
  obtain ⟨count, hpadded⟩ := exists_padded_eq_fractionDigits nanos
  have hlength := Text.length_padded (Int.natCast_nonneg nanos) (by decide : 0 < 9) h
  have hnumber := Text.number_padded 9 (Int.natCast_nonneg nanos)
  have hsum : (fractionDigits nanos).length + count = 9 := by
    rwa [hpadded, List.length_append, List.length_replicate] at hlength
  have hcount : 9 - (fractionDigits nanos).length = count := by omega
  have hle : count ≤ 9 := by omega
  rw [fractionNanos, List.take_append, hcount, List.take_replicate, Nat.min_eq_left hle,
    List.take_of_length_le (by omega), ← hpadded, hnumber, Int.natAbs_natCast]

theorem fractionNanos_printedDigits (h : nanos < nanosPerSecond) :
    fractionNanos (printedDigits nanos) = nanos := by
  unfold printedDigits
  split
  · next hzero => rw [hzero]; rfl
  · exact fractionNanos_fractionDigits h

theorem readFraction_fractionText (nanos : Nat) :
    readFraction (fractionText nanos ++ ['Z']) = some (printedDigits nanos, ['Z']) := by
  unfold fractionText printedDigits
  split
  · rfl
  · next hnanos =>
    have hdigits := List.all_eq_true.mp (isDigit_fractionDigits nanos)
    have htake : (fractionDigits nanos ++ ['Z']).takeWhile Char.isDigit = fractionDigits nanos := by
      rw [List.takeWhile_append_of_pos hdigits]
      exact List.append_nil _
    have hdrop : (fractionDigits nanos ++ ['Z']).dropWhile Char.isDigit = ['Z'] := by
      rw [List.dropWhile_append_of_pos hdigits]
      rfl
    rw [List.cons_append, readFraction, htake, hdrop, if_neg (fractionDigits_ne_nil hnanos)]

end Fraction

/-! ### Reading the whole -/

/-- A text is read part by part. -/
theorem parse?_eq {text afterDate afterMark afterTime afterFraction fraction : List Char}
    {date : Date} {time : Nat} {mark : Char} (hdate : readDate text = some (date, afterDate))
    (hmark : afterDate = mark :: afterMark)
    (haccepts : (mark == 'T' || mark == 't' || mark == ' ') = true)
    (htime : readTime afterMark = some (time, afterTime))
    (hfraction : readFraction afterTime = some (fraction, afterFraction)) :
    parse? text = (readOffset afterFraction).map fun offset ↦
      ⟨Int64.ofInt (date.toDays * secondsPerDay + time - offset), fractionNanos fraction,
        fractionNanos_lt (isDigit_of_readFraction hfraction)⟩ := by
  subst hmark
  have hrest : (Text.char? (fun c ↦ c == 'T' || c == 't' || c == ' ') (mark :: afterMark)).bind
      readTime = some (time, afterTime) := by
    rw [Text.char?_cons haccepts, Option.bind_some, htime]
  unfold parse?
  simp only [hdate, hrest]
  split
  · next hnone =>
    rw [hfraction] at hnone
    cases hnone
  · next digits rest hsome =>
    cases hfraction.symm.trans hsome
    rfl

theorem isValid_date (instant : Instant) : instant.date.isValid = true :=
  Date.isValid_ofDays _

theorem timeOfDay_bounds (instant : Instant) :
    0 ≤ instant.timeOfDay ∧ instant.timeOfDay < secondsPerDay := by
  unfold timeOfDay secondsPerDay
  omega

/-- Date and time of day make up the seconds. -/
theorem toDays_date_add_timeOfDay (instant : Instant) :
    instant.date.toDays * secondsPerDay + instant.timeOfDay = instant.seconds.toInt := by
  rw [date, Date.toDays_ofDays]
  exact Int.mul_comm _ secondsPerDay ▸ Int.mul_ediv_add_emod _ _

theorem parse?_text {instant : Instant} (hleast : 0 ≤ instant.date.year)
    (hmost : instant.date.year ≤ 9999) : parse? instant.text.toList = some instant := by
  obtain ⟨htime, htime'⟩ := instant.timeOfDay_bounds
  have hseconds : Int64.ofInt
      (instant.date.toDays * secondsPerDay + instant.timeOfDay.natAbs - 0) = instant.seconds := by
    rw [Int.natAbs_of_nonneg htime, toDays_date_add_timeOfDay, Int.sub_zero, Int64.ofInt_toInt]
  have hnanos := fractionNanos_printedDigits instant.nanos_lt
  rw [toList_text, parse?_eq (readDate_dateText _ instant.isValid_date hleast hmost) rfl rfl
    (readTime_timeText htime htime' _) (readFraction_fractionText _)]
  show some (⟨_, _, _⟩ : Instant) = some ⟨instant.seconds, instant.nanos, instant.nanos_lt⟩
  simp only [Option.some.injEq, Instant.mk.injEq]
  exact ⟨hseconds, hnanos⟩

theorem parse?_text_of_year {instant : Instant}
    (h : ¬ (0 ≤ instant.date.year ∧ instant.date.year ≤ 9999)) :
    parse? instant.text.toList = none := by
  have hdate : ∀ rest, readDate (dateText instant.date ++ rest) = none := by
    intro rest
    by_cases hneg : instant.date.year < 0
    · exact readDate_dateText_of_neg rest hneg
    · exact readDate_dateText_of_large rest (by omega)
  rw [toList_text, parse?, hdate]

/-- The year of an instant in universal time has four digits and no sign. -/
def HasPlainYear (instant : Instant) : Prop :=
  0 ≤ instant.date.year ∧ instant.date.year ≤ 9999

theorem parse_text {instant : Instant} (h : instant.HasPlainYear) :
    parse instant.text = .ok instant := by
  rw [parse, parse?_text h.1 h.2]

theorem parse_text_of_not_plain {instant : Instant} (h : ¬ instant.HasPlainYear) :
    parse instant.text = .error (.malformed .instant instant.text) := by
  rw [parse, parse?_text_of_year h]

/-- The text of an instant is read as that instant if its year is plain, and refused otherwise.
Whatever text is read as an instant, there is less than a second of nanoseconds in it, and its own
text is read as the same instant if its year is plain. -/
theorem text_round_trip :
    (∀ instant : Instant, instant.HasPlainYear → parse instant.text = .ok instant) ∧
    (∀ instant : Instant, ¬ instant.HasPlainYear →
      parse instant.text = .error (.malformed .instant instant.text)) ∧
    ∀ (text : String) (instant : Instant), parse text = .ok instant →
      instant.nanos < nanosPerSecond ∧
        (instant.HasPlainYear → parse instant.text = .ok instant) :=
  ⟨fun _ ↦ parse_text, fun _ ↦ parse_text_of_not_plain,
    fun _ instant _ ↦ ⟨instant.nanos_lt, parse_text⟩⟩

theorem text_round_trip_leap_second :
    parse "1990-12-31t15:59:60.5000000009-08:00" = .ok ⟨662688000, 500000000, by decide⟩ ∧
      (⟨662688000, 500000000, by decide⟩ : Instant).HasPlainYear ∧
      parse "1991-01-01T00:00:00.5Z" = .ok ⟨662688000, 500000000, by decide⟩ := by
  have hread : parse "1990-12-31t15:59:60.5000000009-08:00" =
      .ok ⟨662688000, 500000000, by decide⟩ := by rfl
  have hyear : (⟨662688000, 500000000, by decide⟩ : Instant).HasPlainYear := by
    unfold HasPlainYear
    decide
  have htext : (⟨662688000, 500000000, by decide⟩ : Instant).text =
      "1991-01-01T00:00:00.5Z" := by rfl
  have hback := (text_round_trip.2.2 _ _ hread).2 hyear
  rw [htext] at hback
  exact ⟨hread, hyear, hback⟩

end Wireline.Instant
