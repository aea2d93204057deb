import Wireline.Domain.Instant
import Wireline.Proofs.Domain.Calendar
import Wireline.Word

/-!
# The calendar in words

The conversions between days and dates, computed operation by operation in signed words of 64 bits,
where division cuts the fraction off and an operation that overflows ends the computation without a
result (`Date.ofDays?`, `Date.toDays?`).

An instant has a word of seconds, so its day is far from the ends of what a word can hold. On such
days nothing overflows, and the words give what `ofDays` and `toDays` say (`ofDays?_eq`,
`toDays?_eq`). `proleptic_gregorian` puts this together with what holds of the calendar itself.
-/

set_option autoImplicit false
set_option relaxedAutoImplicit false

namespace Wireline

/-! ### Division -/

theorem some_bind {α β : Type} (a : α) (next : α → Option β) : (some a >>= next) = next a :=
  rfl

/-- Division rounded down, by way of a division that cuts the fraction off. -/
def floorWord? (n period : Int) : Option Int :=
  if 0 ≤ n then word? (n.tdiv period)
  else do
    let start ← word? (n - (period - 1))
    word? (start.tdiv period)

/-- The least number with the same quotient as a negative one is cut off to that quotient. -/
theorem tdiv_sub_eq_ediv {n period : Int} (hperiod : 0 < period) (hn : n < 0) :
    (n - (period - 1)).tdiv period = n / period := by
  let distance := period - 1 - n
  have hdistance : 0 ≤ distance := by
    unfold distance
    omega
  have hquotient : n / period = -(distance / period) := by
    have hleast := Int.emod_nonneg distance (Int.ne_of_gt hperiod)
    have hmost := Int.emod_lt_of_pos distance hperiod
    have hsplit := Int.emod_add_mul_ediv distance period
    refine ((Int.ediv_emod_unique (r := period - 1 - distance % period) hperiod).mpr ⟨?_, ?_, ?_⟩).1
    · rw [Int.mul_neg]
      omega
    · omega
    · omega
  calc (n - (period - 1)).tdiv period = (-distance).tdiv period := by rw [Int.neg_sub]
    _ = -(distance.tdiv period) := Int.neg_tdiv ..
    _ = n / period := by rw [Int.tdiv_eq_ediv_of_nonneg hdistance, hquotient]

theorem floorWord?_eq {n period : Int} (hperiod : 0 < period)
    (hleast : -0x8000000000000000 ≤ n - (period - 1)) (hmost : n < 0x8000000000000000) :
    floorWord? n period = some (n / period) := by
  unfold floorWord?
  by_cases hn : 0 ≤ n
  · have hnonneg := Int.ediv_nonneg hn (Int.le_of_lt hperiod)
    have hle := Int.ediv_le_self period hn
    rw [if_pos hn, Int.tdiv_eq_ediv_of_nonneg hn, word?_eq (by omega) (by omega)]
  · have hneg := Int.ediv_neg_of_neg_of_pos (Int.lt_of_not_ge hn) hperiod
    have hle : n ≤ n / period := by
      rw [Int.le_ediv_iff_mul_le hperiod]
      calc n * period ≤ n * 1 := Int.mul_le_mul_of_nonpos_left (by omega) (by omega)
        _ = n := Int.mul_one n
    rw [if_neg hn, word?_eq hleast (by omega)]
    show word? ((n - (period - 1)).tdiv period) = _
    rw [tdiv_sub_eq_ediv hperiod (by omega), word?_eq (by omega) (by omega)]

namespace Date

/-! ### Parts of a date -/

/-- The days of an era before one of its years. -/
def yearStart? (year : Int) : Option Int := do
  let days ← word? (365 * year)
  let days ← word? (days + year.tdiv 4)
  word? (days - year.tdiv 100)

def yearOfEra? (dayOfEra : Int) : Option Int := do
  let days ← word? (dayOfEra - dayOfEra.tdiv 1460)
  let days ← word? (days + dayOfEra.tdiv 36524)
  let days ← word? (days - dayOfEra.tdiv 146096)
  word? (days.tdiv 365)

def monthStart? (month : Int) : Option Int := do
  let days ← word? (153 * month)
  let days ← word? (days + 2)
  word? (days.tdiv 5)

def monthOfYear? (dayOfYear : Int) : Option Int := do
  let days ← word? (5 * dayOfYear)
  let days ← word? (days + 2)
  word? (days.tdiv 153)

def marchYear? (date : Date) : Option Int :=
  if date.month ≤ 2 then word? (date.year - 1) else some date.year

/-- The number of a month, from its number since March. -/
def civilMonth? (march : Int) : Option Int :=
  if march < 10 then word? (march + 3) else word? (march - 9)

/-- The year that a month stands in, from the year that started with March. -/
def civilYear? (year month : Int) : Option Int :=
  if month ≤ 2 then word? (year + 1) else some year

/-- A date, from year and month since March. -/
def civil? (year march day : Int) : Option Date := do
  let month ← civilMonth? march
  return ⟨← civilYear? year month, month, day⟩

theorem yearStart?_eq {year : Int} (hleast : 0 ≤ year) (hmost : year ≤ 399) :
    yearStart? year = some (daysBeforeYear year) := by
  have hcentury : year / 400 = 0 := by omega
  unfold yearStart? daysBeforeYear
  rw [Int.tdiv_eq_ediv_of_nonneg hleast, Int.tdiv_eq_ediv_of_nonneg hleast, hcentury, Int.add_zero]
  simp (disch := omega) only [word?_eq, Option.bind_eq_bind, Option.bind_some]

theorem yearOfEra?_eq {day : Int} (hleast : 0 ≤ day) (hmost : day < daysPerEra) :
    yearOfEra? day = some (yearOfEra day) := by
  unfold daysPerEra at hmost
  unfold yearOfEra? yearOfEra
  simp (disch := omega) only [Int.tdiv_eq_ediv_of_nonneg, word?_eq, Option.bind_eq_bind,
    Option.bind_some]

theorem monthStart?_eq {month : Int} (hleast : 0 ≤ month) (hmost : month ≤ 11) :
    monthStart? month = some (daysBeforeMonth month) := by
  unfold monthStart? daysBeforeMonth
  simp (disch := omega) only [Int.tdiv_eq_ediv_of_nonneg, word?_eq, Option.bind_eq_bind,
    Option.bind_some]

theorem monthOfYear?_eq {day : Int} (hleast : 0 ≤ day) (hmost : day ≤ 365) :
    monthOfYear? day = some (monthOfYear day) := by
  unfold monthOfYear? monthOfYear
  simp (disch := omega) only [Int.tdiv_eq_ediv_of_nonneg, word?_eq, Option.bind_eq_bind,
    Option.bind_some]

theorem marchYear?_eq {date : Date} (hleast : -0x8000000000000000 ≤ date.marchYear)
    (hmost : date.marchYear < 0x8000000000000000) : marchYear? date = some date.marchYear := by
  unfold marchYear? marchYear at *
  split
  · next hwinter =>
    rw [if_pos hwinter] at hleast hmost
    exact word?_eq hleast hmost
  · rfl

theorem civil?_eq {year month : Int} (day : Int) (hleast : 0 ≤ month) (hmost : month ≤ 11)
    (hyear : -0x8000000000000000 ≤ year) (hyear' : year < 0x7fffffffffffffff) :
    civil? year month day = some (ofMarch year month day) := by
  unfold civil? civilMonth? civilYear? ofMarch
  split
  · rw [word?_eq (by omega) (by omega)]
    show (if month + 3 ≤ 2 then word? (year + 1) else some year) >>= _ = _
    rw [if_neg (by omega)]
    rfl
  · rw [word?_eq (by omega) (by omega)]
    show (if month - 9 ≤ 2 then word? (year + 1) else some year) >>= _ = _
    rw [if_pos (by omega), word?_eq (by omega) (by omega)]
    rfl

/-! ### Conversions -/

/-- The number of a day, computed in words. -/
def toDays? (date : Date) : Option Int := do
  let year ← marchYear? date
  let era ← floorWord? year 400
  let yearOfEra ← word? (year - (← word? (era * 400)))
  let month ← word? (date.month + 9)
  let days ← word? ((← monthStart? (month.tmod 12)) + date.day)
  let dayOfYear ← word? (days - 1)
  let dayOfEra ← word? ((← yearStart? yearOfEra) + dayOfYear)
  let days ← word? ((← word? (era * daysPerEra)) + dayOfEra)
  word? (days - epochOffset)

/-- The date of a day of an era, computed in words. -/
def dateOfEra? (era dayOfEra : Int) : Option Date := do
  let yearOfEra ← yearOfEra? dayOfEra
  let dayOfYear ← word? (dayOfEra - (← yearStart? yearOfEra))
  let march ← monthOfYear? dayOfYear
  let day ← word? (dayOfYear - (← monthStart? march))
  let day ← word? (day + 1)
  let year ← word? (yearOfEra + (← word? (era * 400)))
  civil? year march day

/-- The date of a day, computed in words. -/
def ofDays? (days : Int) : Option Date := do
  let shifted ← word? (days + epochOffset)
  let era ← floorWord? shifted daysPerEra
  let dayOfEra ← word? (shifted - (← word? (era * daysPerEra)))
  dateOfEra? era dayOfEra

theorem dateOfEra?_eq {era day : Int} (hleast : 0 ≤ day) (hmost : day < daysPerEra)
    (hera : -0x40000000 ≤ era) (hera' : era ≤ 0x40000000) :
    dateOfEra? era day = some (ofMarch (yearOfEra day + era * 400) (monthOfYear (dayOfYear day))
      (dayOfYear day - daysBeforeMonth (monthOfYear (dayOfYear day)) + 1)) := by
  obtain ⟨hyear, hyear', hstart, hend⟩ := yearOfEra_bounds hleast hmost
  obtain ⟨hfirst, hlast⟩ := dayOfYear_bounds hleast hmost
  obtain ⟨hmonthStart, hmonthEnd⟩ := monthOfYear_spec (dayOfYear day)
  have hquotient := yearOfEra?_eq hleast hmost
  have hyearDay := dayOfYear_eq hleast hmost
  have hmonth : 0 ≤ monthOfYear (dayOfYear day) ∧ monthOfYear (dayOfYear day) ≤ 11 := by
    unfold monthOfYear
    omega
  have hnonneg : 0 ≤ daysBeforeMonth (monthOfYear (dayOfYear day)) :=
    daysBeforeMonth_nonneg hmonth.1
  have hyearBounds : -0x8000000000000000 ≤ yearOfEra day + era * 400 ∧
      yearOfEra day + era * 400 < 0x7fffffffffffffff := by omega
  unfold dateOfEra?
  simp (disch := omega) only [hquotient, yearStart?_eq, ← hyearDay, word?_eq, monthOfYear?_eq,
    monthStart?_eq, civil?_eq, Option.bind_eq_bind, Option.bind_some]

/-- The number is that of a day in which some word of seconds falls. -/
def IsDayNumber (days : Int) : Prop :=
  ∃ seconds : Int64, days = seconds.toInt / Instant.secondsPerDay

section DayNumber

variable {days : Int} (hdays : IsDayNumber days)

include hdays

theorem IsDayNumber.bounds : -106751991167301 ≤ days ∧ days ≤ 106751991167300 := by
  obtain ⟨seconds, rfl⟩ := hdays
  have hleast : -0x8000000000000000 ≤ seconds.toInt := seconds.le_toInt
  have hmost : seconds.toInt < 0x8000000000000000 := seconds.toInt_lt
  unfold Instant.secondsPerDay
  omega

theorem toDays?_eq {date : Date} (h : date.isValid = true) (hdate : date.toDays = days) :
    toDays? date = some days := by
  obtain ⟨hleast, hmost⟩ := hdays.bounds
  obtain ⟨hmonth, hmonth', hfirst, hlast⟩ := isValid_iff.mp h
  obtain ⟨hmarch, hmarch'⟩ := date.marchMonth_bounds
  have hlength := (daysInMonth_bounds date.year date.month).2
  obtain ⟨hbefore, hbefore'⟩ := date.daysBeforeMonth_marchMonth_bounds
  have hmonths : (date.month + 9).tmod 12 = date.marchMonth :=
    Int.tmod_eq_emod_of_nonneg (by omega)
  -- With the year split at its era, everything is linear in the era and the days before the year.
  obtain ⟨era, hera⟩ : ∃ era, date.marchYear / 400 = era := ⟨_, rfl⟩
  obtain ⟨year, hyear⟩ : ∃ year, date.marchYear = year + era * 400 :=
    ⟨date.marchYear - era * 400, by omega⟩
  have hleastYear : 0 ≤ year := by omega
  have hmostYear : year ≤ 399 := by omega
  obtain ⟨hstart, hstart'⟩ := daysBeforeYear_bounds hleastYear hmostYear
  rw [toDays_eq, hyear, daysBeforeYear_add_era, marchDay] at hdate
  obtain ⟨hleastEra, hmostEra⟩ : -0x40000000 ≤ era ∧ era ≤ 0x40000000 := by
    unfold epochOffset daysPerEra at *
    omega
  have hmarchYear : marchYear? date = some (year + era * 400) := by
    rw [← hyear]
    exact marchYear?_eq (by omega) (by omega)
  have hquotient : floorWord? (year + era * 400) 400 = some era := by
    rw [floorWord?_eq (by decide) (by omega) (by omega)]
    congr 1
    omega
  have hsplit : year + era * 400 - era * 400 = year := Int.add_sub_cancel ..
  clear hera hyear
  unfold toDays?
  unfold epochOffset daysPerEra at *
  simp (disch := omega) only [hmarchYear, hquotient, word?_eq, hsplit, hmonths, monthStart?_eq,
    yearStart?_eq, Option.bind_eq_bind, Option.bind_some]
  congr 1
  omega

theorem ofDays?_eq : ofDays? days = some (ofDays days) := by
  obtain ⟨hleast, hmost⟩ := hdays.bounds
  obtain ⟨hday, hday'⟩ := dayOfEra_bounds days
  have hera : (days + epochOffset) / daysPerEra = era days := rfl
  have heraDay : days + epochOffset - era days * daysPerEra = dayOfEra days := rfl
  have hbounds : -0x40000000 ≤ era days ∧ era days ≤ 0x40000000 := by
    unfold era epochOffset daysPerEra
    omega
  have hshifted : word? (days + epochOffset) = some (days + epochOffset) := by
    unfold epochOffset
    exact word?_eq (by omega) (by omega)
  have hquotient : floorWord? (days + epochOffset) daysPerEra = some (era days) := by
    unfold epochOffset at *
    exact floorWord?_eq (by decide) (by unfold daysPerEra; omega) (by omega)
  have hproduct : word? (era days * daysPerEra) = some (era days * daysPerEra) := by
    unfold daysPerEra
    exact word?_eq (by omega) (by omega)
  have hrest : word? (days + epochOffset - era days * daysPerEra) = some (dayOfEra days) := by
    unfold daysPerEra at hday'
    rw [heraDay]
    exact word?_eq (by omega) (by omega)
  rw [ofDays?, hshifted, some_bind, hquotient, some_bind, hproduct, some_bind, hrest, some_bind,
    dateOfEra?_eq hday hday' hbounds.1 hbounds.2, ofDays_eq]

end DayNumber

/-- The calendar is the Gregorian one, extended to all days that a word of seconds reaches. Each of
them has a valid date, which is converted back to it, and the next day has the next date, where
every fourth year is a leap year, but of the full centuries only every fourth. Each valid date of
such a day is converted there and back. In words no conversion overflows. -/
theorem proleptic_gregorian :
    (∀ days, IsDayNumber days →
      (ofDays days).isValid = true ∧ (ofDays days).toDays = days ∧
      ofDays (days + 1) = (ofDays days).next ∧
      (IsDayNumber (days + 1) → ofDays? (days + 1) = some (ofDays days).next) ∧
      ofDays? days = some (ofDays days) ∧ toDays? (ofDays days) = some days) ∧
    ofDays 0 = ⟨1970, 1, 1⟩ ∧
    (∀ date : Date, date.isValid = true → IsDayNumber date.toDays →
      ofDays date.toDays = date ∧
      toDays? date = some date.toDays ∧ ofDays? date.toDays = some date) ∧
    ∀ year, isLeapYear year = true ↔ 4 ∣ year ∧ (100 ∣ year → 400 ∣ year) := by
  refine ⟨fun days hdays ↦ ?_, rfl, fun date hvalid hdays ↦ ?_, fun year ↦ ?_⟩
  · have hvalid := isValid_ofDays days
    have hback := toDays_ofDays days
    have hnext (hsucc : IsDayNumber (days + 1)) :
        ofDays? (days + 1) = some (ofDays days).next := by
      rw [ofDays?_eq hsucc, ofDays_succ]
    exact ⟨hvalid, hback, ofDays_succ days, hnext, ofDays?_eq hdays,
      toDays?_eq hdays hvalid hback⟩
  · have hback := ofDays_toDays hvalid
    have hwords := ofDays?_eq hdays
    rw [hback] at hwords
    exact ⟨hback, toDays?_eq hdays hvalid rfl, hwords⟩
  · rw [isLeapYear_iff]
    omega

/-- The leap day of the year 2000, and the day after it. -/
theorem proleptic_gregorian_leap_day :
    IsDayNumber 11016 ∧ ofDays 11016 = ⟨2000, 2, 29⟩ ∧ ofDays (11016 + 1) = ⟨2000, 3, 1⟩ ∧
      ofDays? (11016 + 1) = some ⟨2000, 3, 1⟩ ∧
      (⟨2000, 2, 29⟩ : Date).isValid = true ∧ toDays? ⟨2000, 2, 29⟩ = some 11016 := by
  have hday : IsDayNumber 11016 := ⟨951782400, by decide⟩
  have hsucc : IsDayNumber (11016 + 1) := ⟨951868800, by decide⟩
  have hdate : (⟨2000, 2, 29⟩ : Date).isValid = true := by decide
  obtain ⟨hdays, -, hdates, -⟩ := proleptic_gregorian
  exact ⟨hday, (hdates ⟨2000, 2, 29⟩ hdate hday).1, (hdays 11016 hday).2.2.1,
    (hdays 11016 hday).2.2.2.1 hsucc, hdate,
    (hdates ⟨2000, 2, 29⟩ hdate hday).2.1⟩

end Date

end Wireline
