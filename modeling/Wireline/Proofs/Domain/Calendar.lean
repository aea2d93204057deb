import Wireline.Domain.Calendar

/-!
# Days and dates

A day is placed by the year that started last on a first of March, the month since then and the day
of the month (`Date.Locates`). Leap days end such a year, so all its months but the last are always
equally long, and the lengths of the years before it add up to `Date.daysBeforeYear`.

Each day has one such place (`exists_locates`, `eq_of_toDays_eq`), and from it follows that `ofDays`
gives valid dates, that `toDays` and `ofDays` undo each other, and that the date of the day after is
the calendar's next date (`ofDays_succ`).
-/

set_option autoImplicit false
set_option relaxedAutoImplicit false

namespace Wireline.Date

theorem isLeapYear_iff {year : Int} :
    isLeapYear year = true ↔ (4 ∣ year ∧ ¬ 100 ∣ year) ∨ 400 ∣ year := by
  simp only [isLeapYear, Bool.or_eq_true, Bool.and_eq_true, beq_iff_eq, bne_iff_ne,
    Int.dvd_iff_emod_eq_zero, ne_eq]

theorem isValid_iff {date : Date} : date.isValid = true ↔
    1 ≤ date.month ∧ date.month ≤ 12 ∧ 1 ≤ date.day ∧
      date.day ≤ daysInMonth date.year date.month := by
  simp only [isValid, Bool.and_eq_true, decide_eq_true_eq, and_assoc]

theorem daysInMonth_bounds (year month : Int) :
    1 ≤ daysInMonth year month ∧ daysInMonth year month ≤ 31 := by
  unfold daysInMonth
  split
  · split <;> decide
  · split <;> decide

theorem daysInMonth_february (year : Int) :
    daysInMonth year 2 = if isLeapYear year then 29 else 28 :=
  if_pos rfl

theorem daysInMonth_february_bounds (year : Int) :
    28 ≤ daysInMonth year 2 ∧ daysInMonth year 2 ≤ 29 := by
  rw [daysInMonth_february]
  split <;> decide

/-! ### Years and months from March on -/

/-- The days from the first of March of year zero to the first of March of a year. -/
def daysBeforeYear (year : Int) : Int :=
  365 * year + year / 4 - year / 100 + year / 400

/-- The year that started last on a first of March. -/
def marchYear (date : Date) : Int :=
  if date.month ≤ 2 then date.year - 1 else date.year

/-- The months since March. -/
def marchMonth (date : Date) : Int :=
  (date.month + 9) % 12

/-- The days since the first of March. -/
def marchDay (date : Date) : Int :=
  daysBeforeMonth date.marchMonth + date.day - 1

/-- The leap day ends the year that starts with March. -/
theorem daysBeforeYear_succ (year : Int) :
    daysBeforeYear (year + 1) = daysBeforeYear year + 337 + daysInMonth (year + 1) 2 := by
  rw [daysInMonth_february]
  unfold daysBeforeYear
  by_cases hleap : isLeapYear (year + 1) = true
  · rw [if_pos hleap]
    rw [isLeapYear_iff] at hleap
    omega
  · rw [if_neg hleap]
    rw [isLeapYear_iff] at hleap
    omega

theorem daysBeforeYear_mono {first second : Int} (h : first ≤ second) :
    daysBeforeYear first ≤ daysBeforeYear second := by
  unfold daysBeforeYear
  omega

theorem daysBeforeYear_add_era (year era : Int) :
    daysBeforeYear (year + era * 400) = daysBeforeYear year + era * daysPerEra := by
  unfold daysBeforeYear daysPerEra
  omega

theorem daysBeforeYear_bounds {year : Int} (hleast : 0 ≤ year) (hmost : year ≤ 399) :
    0 ≤ daysBeforeYear year ∧ daysBeforeYear year ≤ daysPerEra :=
  ⟨daysBeforeYear_mono hleast, daysBeforeYear_mono (Int.le_add_one hmost)⟩

theorem daysBeforeMonth_mono {first second : Int} (h : first ≤ second) :
    daysBeforeMonth first ≤ daysBeforeMonth second :=
  Int.ediv_le_ediv (by decide) (by omega)

theorem daysBeforeMonth_nonneg {month : Int} (h : 0 ≤ month) : 0 ≤ daysBeforeMonth month :=
  Int.ediv_nonneg (by omega) (by decide)

/-- Every month but February is as long as the days before the months since March say. -/
theorem daysBeforeMonth_succ {date : Date} (hleast : 1 ≤ date.month) (hmost : date.month ≤ 12)
    (hmonth : date.month ≠ 2) :
    daysBeforeMonth (date.marchMonth + 1) =
      daysBeforeMonth date.marchMonth + daysInMonth date.year date.month := by
  obtain ⟨year, month, day⟩ := date
  dsimp only at hleast hmost hmonth
  have hcases : month = 1 ∨ month = 3 ∨ month = 4 ∨ month = 5 ∨ month = 6 ∨ month = 7 ∨
      month = 8 ∨ month = 9 ∨ month = 10 ∨ month = 11 ∨ month = 12 := by omega
  rcases hcases with rfl | rfl | rfl | rfl | rfl | rfl | rfl | rfl | rfl | rfl | rfl <;> rfl

theorem marchMonth_february {date : Date} (h : date.month = 2) : date.marchMonth = 11 := by
  rw [marchMonth, h]
  rfl

theorem marchMonth_bounds (date : Date) : 0 ≤ date.marchMonth ∧ date.marchMonth ≤ 11 := by
  unfold marchMonth
  omega

theorem daysBeforeMonth_marchMonth_bounds (date : Date) :
    0 ≤ daysBeforeMonth date.marchMonth ∧ daysBeforeMonth date.marchMonth ≤ 337 :=
  ⟨daysBeforeMonth_nonneg date.marchMonth_bounds.1, daysBeforeMonth_mono date.marchMonth_bounds.2⟩

theorem toDays_eq (date : Date) :
    date.toDays = daysBeforeYear date.marchYear + date.marchDay - epochOffset := by
  unfold toDays marchDay marchMonth marchYear daysBeforeYear daysPerEra
  dsimp only
  omega

/-! ### One day for a valid date -/

/-- A valid date lies within its month and within its year. -/
theorem marchDay_bounds {date : Date} (h : date.isValid = true) :
    daysBeforeMonth date.marchMonth ≤ date.marchDay ∧
      date.marchDay < daysBeforeMonth (date.marchMonth + 1) ∧
      daysBeforeYear date.marchYear + date.marchDay < daysBeforeYear (date.marchYear + 1) := by
  obtain ⟨hleast, hmost, hfirst, hlast⟩ := isValid_iff.mp h
  have hlength := daysBeforeYear_succ date.marchYear
  have hfebruary := daysInMonth_february_bounds (date.marchYear + 1)
  unfold marchDay
  by_cases hmonth : date.month = 2
  · have hyear : date.marchYear + 1 = date.year := by
      rw [marchYear, if_pos (by omega), Int.sub_add_cancel]
    have hbefore : daysBeforeMonth 11 = 337 ∧ daysBeforeMonth (11 + 1) = 367 := by decide
    rw [hmonth, ← hyear] at hlast
    rw [marchMonth_february hmonth]
    omega
  · have hnext := daysBeforeMonth_succ hleast hmost hmonth
    have hmonths : date.marchMonth + 1 ≤ 11 := by
      unfold marchMonth
      omega
    have hspring : daysBeforeMonth (date.marchMonth + 1) ≤ 337 := daysBeforeMonth_mono hmonths
    omega

/-- A day falls in one year from March only. -/
theorem year_unique {days first second : Int} (hfirst : daysBeforeYear first ≤ days)
    (hfirst' : days < daysBeforeYear (first + 1)) (hsecond : daysBeforeYear second ≤ days)
    (hsecond' : days < daysBeforeYear (second + 1)) : first = second := by
  rcases Int.lt_trichotomy first second with hlt | heq | hlt
  · have := daysBeforeYear_mono (Int.add_one_le_of_lt hlt)
    omega
  · exact heq
  · have := daysBeforeYear_mono (Int.add_one_le_of_lt hlt)
    omega

/-- A date is told by its place in the year from March. -/
theorem eq_of_march_eq {first second : Date} (hfirst : first.isValid = true)
    (hsecond : second.isValid = true) (hyear : first.marchYear = second.marchYear)
    (hmonth : first.marchMonth = second.marchMonth) (hday : first.marchDay = second.marchDay) :
    first = second := by
  obtain ⟨hleast, hmost, -, -⟩ := isValid_iff.mp hfirst
  obtain ⟨hleast', hmost', -, -⟩ := isValid_iff.mp hsecond
  obtain ⟨year, month, day⟩ := first
  obtain ⟨year', month', day'⟩ := second
  unfold marchDay at hday
  rw [hmonth] at hday
  unfold marchMonth at hmonth
  unfold marchYear at hyear
  dsimp only at *
  obtain rfl : month = month' := by omega
  obtain rfl : year = year' := by split at hyear <;> omega
  obtain rfl : day = day' := by omega
  rfl

/-- Valid dates are told apart by the number of their day. -/
theorem eq_of_toDays_eq {first second : Date} (hfirst : first.isValid = true)
    (hsecond : second.isValid = true) (h : first.toDays = second.toDays) : first = second := by
  rw [toDays_eq, toDays_eq] at h
  obtain ⟨hstart, hend, hlength⟩ := marchDay_bounds hfirst
  obtain ⟨hstart', hend', hlength'⟩ := marchDay_bounds hsecond
  have hnonneg := first.daysBeforeMonth_marchMonth_bounds.1
  have hnonneg' := second.daysBeforeMonth_marchMonth_bounds.1
  have hyear : first.marchYear = second.marchYear := by
    have hreached : daysBeforeYear first.marchYear ≤
        daysBeforeYear first.marchYear + first.marchDay := by omega
    exact year_unique hreached hlength (by omega) (by omega)
  have hday : first.marchDay = second.marchDay := by
    rw [hyear] at h
    omega
  have hmonth : first.marchMonth = second.marchMonth := by
    unfold daysBeforeMonth at hstart hend hstart' hend'
    omega
  exact eq_of_march_eq hfirst hsecond hyear hmonth hday

/-! ### From days to dates -/

/-- The date of a day that is given by year and month from March on. -/
def ofMarch (year month day : Int) : Date :=
  if month < 10 then ⟨year, month + 3, day⟩ else ⟨year + 1, month - 9, day⟩

/-- The era of a day. -/
def era (days : Int) : Int :=
  (days + epochOffset) / daysPerEra

def dayOfEra (days : Int) : Int :=
  days + epochOffset - era days * daysPerEra

/-- The year within the era, from a day of the era. -/
def yearOfEra (dayOfEra : Int) : Int :=
  (dayOfEra - dayOfEra / 1460 + dayOfEra / 36524 - dayOfEra / 146096) / 365

/-- The day within its year, from a day of the era. -/
def dayOfYear (dayOfEra : Int) : Int :=
  dayOfEra - (365 * yearOfEra dayOfEra + yearOfEra dayOfEra / 4 - yearOfEra dayOfEra / 100)

/-- The month since March, from a day of the year. -/
def monthOfYear (dayOfYear : Int) : Int :=
  (5 * dayOfYear + 2) / 153

theorem ofDays_eq (days : Int) :
    ofDays days =
      ofMarch (yearOfEra (dayOfEra days) + era days * 400)
        (monthOfYear (dayOfYear (dayOfEra days)))
        (dayOfYear (dayOfEra days) -
          daysBeforeMonth (monthOfYear (dayOfYear (dayOfEra days))) + 1) :=
  rfl

theorem dayOfEra_bounds (days : Int) : 0 ≤ dayOfEra days ∧ dayOfEra days < daysPerEra := by
  unfold dayOfEra era daysPerEra
  omega

section Era

variable {day : Int} (hleast : 0 ≤ day) (hmost : day < daysPerEra)

include hleast hmost

/-- A year is found from its days. A century has 36524 of them and four years have 1461, and the
corrections make up for the day that is missing or left over. -/
theorem yearOfEra_bounds : 0 ≤ yearOfEra day ∧ yearOfEra day ≤ 399 ∧
    daysBeforeYear (yearOfEra day) ≤ day ∧ day < daysBeforeYear (yearOfEra day + 1) := by
  unfold daysPerEra at hmost
  have hcentury : day / 36524 = 0 ∨ day / 36524 = 1 ∨ day / 36524 = 2 ∨ day / 36524 = 3 ∨
      day / 36524 = 4 := by omega
  have hcycle : yearOfEra day = 4 * (day / 1460) - 1 ∨ yearOfEra day = 4 * (day / 1460) ∨
      yearOfEra day = 4 * (day / 1460) + 1 ∨ yearOfEra day = 4 * (day / 1460) + 2 ∨
      yearOfEra day = 4 * (day / 1460) + 3 := by
    unfold yearOfEra
    omega
  have hyear : yearOfEra day = (day - day / 1460 + day / 36524 - day / 146096) / 365 := rfl
  unfold daysBeforeYear
  -- within a century and with the year known up to four, all divisions are by small numbers
  rcases hcentury with hcentury | hcentury | hcentury | hcentury | hcentury <;>
    rcases hcycle with hcycle | hcycle | hcycle | hcycle | hcycle <;> omega

theorem dayOfYear_eq : dayOfYear day = day - daysBeforeYear (yearOfEra day) := by
  have hbounds := yearOfEra_bounds hleast hmost
  unfold dayOfYear daysBeforeYear
  omega

theorem dayOfYear_bounds : 0 ≤ dayOfYear day ∧ dayOfYear day ≤ 365 := by
  obtain ⟨-, -, hstart, hend⟩ := yearOfEra_bounds hleast hmost
  have hlength := daysBeforeYear_succ (yearOfEra day)
  have hfebruary := daysInMonth_february_bounds (yearOfEra day + 1)
  rw [dayOfYear_eq hleast hmost]
  omega

end Era

theorem monthOfYear_spec (day : Int) :
    daysBeforeMonth (monthOfYear day) ≤ day ∧ day < daysBeforeMonth (monthOfYear day + 1) := by
  unfold daysBeforeMonth monthOfYear
  omega

/-- The day lies so many days after the start of a month, which is counted from March. -/
structure Locates (days year month day : Int) : Prop where
  sum : days + epochOffset = daysBeforeYear year + (daysBeforeMonth month + day)
  month_nonneg : 0 ≤ month
  day_nonneg : 0 ≤ day
  within_month : daysBeforeMonth month + day < daysBeforeMonth (month + 1)
  within_year : daysBeforeYear year + (daysBeforeMonth month + day) < daysBeforeYear (year + 1)

/-- Each day has a place, and its date is that of the place. -/
theorem exists_locates (days : Int) :
    ∃ year month day, Locates days year month day ∧ ofDays days = ofMarch year month (day + 1) := by
  obtain ⟨hleast, hmost⟩ := dayOfEra_bounds days
  obtain ⟨-, -, hstart, hend⟩ := yearOfEra_bounds hleast hmost
  have hday := dayOfYear_eq hleast hmost
  have hbounds := dayOfYear_bounds hleast hmost
  have hmonth := monthOfYear_spec (dayOfYear (dayOfEra days))
  have hsplit : days + epochOffset = dayOfEra days + era days * daysPerEra :=
    (Int.sub_add_cancel _ _).symm
  have hyear := daysBeforeYear_add_era (yearOfEra (dayOfEra days)) (era days)
  have hnext := daysBeforeYear_add_era (yearOfEra (dayOfEra days) + 1) (era days)
  rw [Int.add_right_comm] at hnext
  refine ⟨_, _, _, ?_, ofDays_eq days⟩
  constructor
  · rw [hyear]
    omega
  · unfold monthOfYear
    omega
  · omega
  · omega
  · rw [hyear, hnext]
    omega

section Located

variable {days year month day : Int}

theorem day_ofMarch (year month day : Int) : (ofMarch year month day).day = day := by
  unfold ofMarch
  split <;> rfl

namespace Locates

variable (h : Locates days year month day)

include h

theorem month_le : month ≤ 11 := by
  have hday := h.day_nonneg
  have hyear := h.within_year
  have hfebruary := daysInMonth_february_bounds (year + 1)
  rw [daysBeforeYear_succ] at hyear
  unfold daysBeforeMonth at hyear
  omega

theorem marchYear_ofMarch : (ofMarch year month (day + 1)).marchYear = year := by
  have hmost := h.month_le
  have hleast := h.month_nonneg
  unfold ofMarch marchYear
  split
  · exact if_neg (by dsimp only; omega)
  · rw [if_pos (by dsimp only; omega), Int.add_sub_cancel]

theorem marchMonth_ofMarch : (ofMarch year month (day + 1)).marchMonth = month := by
  have hmost := h.month_le
  have hleast := h.month_nonneg
  unfold ofMarch marchMonth
  split <;> dsimp only <;> omega

theorem month_ofMarch :
    1 ≤ (ofMarch year month (day + 1)).month ∧ (ofMarch year month (day + 1)).month ≤ 12 := by
  have hmost := h.month_le
  have hleast := h.month_nonneg
  unfold ofMarch
  split <;> dsimp only <;> omega

theorem toDays_ofMarch : (ofMarch year month (day + 1)).toDays = days := by
  have hsum := h.sum
  rw [toDays_eq, h.marchYear_ofMarch, marchDay, h.marchMonth_ofMarch, day_ofMarch]
  omega

theorem isValid_ofMarch : (ofMarch year month (day + 1)).isValid = true := by
  have hday := h.day_nonneg
  have hyear := h.within_year
  have hwithin := h.within_month
  have hmarch := h.marchMonth_ofMarch
  obtain ⟨hleast, hmost⟩ := h.month_ofMarch
  rw [isValid_iff, day_ofMarch]
  refine ⟨hleast, hmost, by omega, ?_⟩
  by_cases hfebruary : (ofMarch year month (day + 1)).month = 2
  · -- February is as long as its year lets it be
    obtain rfl : month = 11 := by rw [← hmarch, marchMonth_february hfebruary]
    have hbefore : daysBeforeMonth 11 = 337 := rfl
    rw [daysBeforeYear_succ] at hyear
    rw [hfebruary]
    show day + 1 ≤ daysInMonth (year + 1) 2
    omega
  · have hnext := daysBeforeMonth_succ hleast hmost hfebruary
    rw [hmarch] at hnext
    omega

end Locates

end Located

theorem isValid_ofDays (days : Int) : (ofDays days).isValid = true := by
  obtain ⟨year, month, day, hplace, hdate⟩ := exists_locates days
  exact hdate ▸ hplace.isValid_ofMarch

theorem toDays_ofDays (days : Int) : (ofDays days).toDays = days := by
  obtain ⟨year, month, day, hplace, hdate⟩ := exists_locates days
  exact hdate ▸ hplace.toDays_ofMarch

theorem ofDays_toDays {date : Date} (h : date.isValid = true) : ofDays date.toDays = date :=
  eq_of_toDays_eq (isValid_ofDays _) h (toDays_ofDays _)

/-! ### The next day -/

/-- The day after a date: the next of the month, or the first of the next month, or the first of
January. -/
def next (date : Date) : Date :=
  if date.day < daysInMonth date.year date.month then { date with day := date.day + 1 }
  else if date.month < 12 then ⟨date.year, date.month + 1, 1⟩
  else ⟨date.year + 1, 1, 1⟩

theorem isValid_next {date : Date} (h : date.isValid = true) : date.next.isValid = true := by
  obtain ⟨hleast, hmost, hfirst, hlast⟩ := isValid_iff.mp h
  rw [isValid_iff]
  unfold next
  split
  · exact ⟨hleast, hmost, by dsimp only; omega, by dsimp only; omega⟩
  · split
    · exact ⟨by dsimp only; omega, by dsimp only; omega, Int.le_refl 1, (daysInMonth_bounds _ _).1⟩
    · exact ⟨Int.le_refl 1, by dsimp only; decide, Int.le_refl 1, (daysInMonth_bounds _ _).1⟩

theorem toDays_next_of_lt {date : Date} (h : date.day < daysInMonth date.year date.month) :
    date.next.toDays = date.toDays + 1 := by
  have hnext : date.next = { date with day := date.day + 1 } := if_pos h
  have hmarch : date.next.marchDay = date.marchDay + 1 := by
    rw [hnext]
    unfold marchDay marchMonth
    dsimp only
    omega
  have hyear : date.next.marchYear = date.marchYear := by
    rw [hnext]
    rfl
  rw [toDays_eq, toDays_eq, hyear, hmarch]
  omega

/-- The end of February is the end of the year from March. -/
theorem toDays_next_of_february {date : Date} (hmonth : date.month = 2)
    (h : date.day = daysInMonth date.year date.month) :
    date.next.toDays = date.toDays + 1 := by
  have hnext : date.next = ⟨date.year, 3, 1⟩ := by
    rw [next, if_neg (by omega), hmonth]
    rfl
  have hlength := daysBeforeYear_succ (date.year - 1)
  have hyear : date.marchYear = date.year - 1 := if_pos (by omega)
  have hmarch : date.marchDay = 337 + date.day - 1 := by
    rw [marchDay, marchMonth_february hmonth]
    rfl
  rw [Int.sub_add_cancel, ← hmonth, ← h] at hlength
  rw [toDays_eq, toDays_eq, hnext, hyear, hmarch]
  show daysBeforeYear date.year + 0 - epochOffset = _
  omega

theorem toDays_next {date : Date} (h : date.isValid = true) :
    date.next.toDays = date.toDays + 1 := by
  obtain ⟨hleast, hmost, hfirst, hlast⟩ := isValid_iff.mp h
  by_cases hday : date.day < daysInMonth date.year date.month
  · exact toDays_next_of_lt hday
  have hlength : date.day = daysInMonth date.year date.month := by omega
  by_cases hmonth : date.month = 2
  · exact toDays_next_of_february hmonth hlength
  have hsucc := daysBeforeMonth_succ hleast hmost hmonth
  have hyear : date.next.marchYear = date.marchYear := by
    unfold next marchYear
    rw [if_neg hday]
    split <;> dsimp only <;> omega
  have hmarch : date.next.marchMonth = date.marchMonth + 1 := by
    unfold next marchMonth
    rw [if_neg hday]
    split <;> dsimp only <;> omega
  have hone : date.next.day = 1 := by
    unfold next
    rw [if_neg hday]
    split <;> rfl
  rw [toDays_eq, toDays_eq, hyear, marchDay, marchDay, hmarch, hone]
  omega

theorem ofDays_succ (days : Int) : ofDays (days + 1) = (ofDays days).next := by
  have hvalid := isValid_ofDays days
  calc ofDays (days + 1) = ofDays (ofDays days).next.toDays := by
        rw [toDays_next hvalid, toDays_ofDays]
    _ = (ofDays days).next := ofDays_toDays (isValid_next hvalid)

end Wireline.Date
