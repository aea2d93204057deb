import Wireline.Proofs.Domain.WordCalendar

/-!
# Instants and the clock

An instant and a reading of the clock are both seconds and the nanoseconds after them, but the way
between them goes by the distance from the epoch, which is a span on one side of it. Going to the
clock, the whole seconds are counted from the epoch and the nanoseconds are added, and no reading is
out of reach (`toClock?_eq`). Coming back from a reading before the epoch, a fraction is borrowed
from the seconds (`ClockTime.sinceEpoch_cases`), and what comes out are the seconds and nanoseconds
of the reading again (`ofClock_eq`).

Computed operation by operation, with an operation that overflows ending the computation
(`clockWords?`), this has one exception. The earliest reading of all is a whole number of seconds
before the epoch that only a negative word can hold, and turning the sign of that word overflows.
-/

set_option autoImplicit false
set_option relaxedAutoImplicit false

namespace Wireline

theorem Span.nanoseconds_ofNanoseconds {n : Nat} (h : n < 0x10000000000000000 * nanosPerSecond) :
    (ofNanoseconds n).nanoseconds = n := by
  rw [ofNanoseconds, ofNanoseconds?, dif_pos h]
  rfl

/-- A span is cut into its whole seconds and the nanoseconds after them. -/
theorem Span.ofNanoseconds_parts {n q r : Nat} (h : n = q * nanosPerSecond + r)
    (hq : q < 0x10000000000000000) (hr : r < nanosPerSecond) :
    (ofNanoseconds n).seconds = q ∧ (ofNanoseconds n).subsecond = r := by
  have hfits : n < 0x10000000000000000 * nanosPerSecond := by
    unfold nanosPerSecond at *
    omega
  rw [seconds, subsecond, nanoseconds_ofNanoseconds hfits]
  unfold nanosPerSecond at *
  omega

namespace ClockTime

@[simp] theorem toNanoseconds_epoch : epoch.toNanoseconds = 0 := rfl

/-- A reading is found again from its nanoseconds. -/
theorem ofNanoseconds?_toNanoseconds (time : ClockTime) :
    ofNanoseconds? time.toNanoseconds = some time := by
  obtain ⟨seconds, nanos, hnanos⟩ := time
  unfold nanosPerSecond at hnanos
  have hleast := seconds.le_toInt
  have hmost := seconds.toInt_lt
  have hseconds : (seconds.toInt * nanosPerSecond + nanos) / nanosPerSecond = seconds.toInt := by
    unfold nanosPerSecond
    omega
  have hrest : ((seconds.toInt * nanosPerSecond + nanos) % nanosPerSecond).toNat = nanos := by
    unfold nanosPerSecond
    omega
  simp only [ofNanoseconds?, toNanoseconds, hseconds, hrest, Int64.ofInt_toInt]
  exact if_pos ⟨hleast, hmost⟩

/-- The three ways in which a reading is away from the epoch: after it, a whole number of seconds
before it, or before it with a fraction that is borrowed from the seconds. -/
theorem sinceEpoch_cases (time : ClockTime) :
    (0 ≤ time.seconds.toInt ∧ ∃ span, time.sinceEpoch = .after span ∧
      (span.seconds : Int) = time.seconds.toInt ∧ span.subsecond = time.nanos) ∨
    (time.seconds.toInt < 0 ∧ time.nanos = 0 ∧ ∃ span, time.sinceEpoch = .before span ∧
      (span.seconds : Int) = -time.seconds.toInt ∧ span.subsecond = 0) ∨
    (time.seconds.toInt < 0 ∧ time.nanos ≠ 0 ∧ ∃ span, time.sinceEpoch = .before span ∧
      (span.seconds : Int) = -time.seconds.toInt - 1 ∧
      span.subsecond = nanosPerSecond - time.nanos) := by
  have hleast := time.seconds.le_toInt
  have hmost := time.seconds.toInt_lt
  have hnanos : time.nanos < 1000000000 := time.nanos_lt
  have htotal : time.toNanoseconds = time.seconds.toInt * 1000000000 + time.nanos := rfl
  have hsecond : nanosPerSecond = 1000000000 := rfl
  by_cases hside : 0 ≤ time.toNanoseconds
  · have hparts := Span.ofNanoseconds_parts (n := time.toNanoseconds.toNat)
      (q := time.seconds.toInt.toNat) (r := time.nanos) (by rw [hsecond]; omega) (by omega)
      time.nanos_lt
    exact .inl ⟨by omega, _, if_pos hside, by omega, hparts.2⟩
  · by_cases hwhole : time.nanos = 0
    · have hparts := Span.ofNanoseconds_parts (n := (-time.toNanoseconds).toNat)
        (q := (-time.seconds.toInt).toNat) (r := 0) (by rw [hsecond]; omega) (by omega)
        nanosPerSecond_pos
      exact .inr (.inl ⟨by omega, hwhole, _, if_neg hside, by omega, hparts.2⟩)
    -- Counted from the epoch the last second is not full: it lacks the nanoseconds of the reading.
    · have hparts := Span.ofNanoseconds_parts (n := (-time.toNanoseconds).toNat)
        (q := (-time.seconds.toInt - 1).toNat) (r := nanosPerSecond - time.nanos)
        (by rw [hsecond]; omega) (by omega) (by omega)
      exact .inr (.inr ⟨by omega, hwhole, _, if_neg hside, by omega, hparts.2⟩)

/-- The one reading whose distance from the epoch is a whole number of seconds that is too large for
a signed word. -/
def IsEarliest (time : ClockTime) : Prop :=
  time.seconds = Int64.minValue ∧ time.nanos = 0

/-- The reading of a whole number of seconds. -/
def ofWhole (seconds : Int64) : ClockTime :=
  ⟨seconds, 0, nanosPerSecond_pos⟩

theorem nanoseconds_ofSeconds_natAbs (seconds : Int64) :
    ((Span.ofSeconds seconds.toInt.natAbs).nanoseconds : Int) =
      seconds.toInt.natAbs * nanosPerSecond := by
  have hleast := seconds.le_toInt
  have hmost := seconds.toInt_lt
  rw [Span.ofSeconds, Span.nanoseconds_ofNanoseconds (by unfold nanosPerSecond; omega)]
  exact Int.natCast_mul _ _

theorem add?_epoch {seconds : Int64} (h : 0 ≤ seconds.toInt) :
    epoch.add? (.ofSeconds seconds.toInt.natAbs) = some (ofWhole seconds) := by
  rw [add?, nanoseconds_ofSeconds_natAbs, Int.natAbs_of_nonneg h, toNanoseconds_epoch, Int.zero_add,
    ← ofNanoseconds?_toNanoseconds]
  exact congrArg _ (Int.add_zero _).symm

theorem sub?_epoch {seconds : Int64} (h : seconds.toInt ≤ 0) :
    epoch.sub? (.ofSeconds seconds.toInt.natAbs) = some (ofWhole seconds) := by
  rw [sub?, nanoseconds_ofSeconds_natAbs, Int.ofNat_natAbs_of_nonpos h, toNanoseconds_epoch,
    Int.zero_sub, Int.neg_mul, Int.neg_neg, ← ofNanoseconds?_toNanoseconds]
  exact congrArg _ (Int.add_zero _).symm

/-- A fraction of a second carries nothing. -/
theorem add?_fraction (seconds : Int64) {nanos : Nat} (h : nanos < nanosPerSecond) :
    (ofWhole seconds).add? (.ofNanoseconds nanos) = some ⟨seconds, nanos, h⟩ := by
  have hspan : (Span.ofNanoseconds nanos).nanoseconds = nanos :=
    Span.nanoseconds_ofNanoseconds (by unfold nanosPerSecond at *; omega)
  rw [add?, hspan, ← ofNanoseconds?_toNanoseconds ⟨seconds, nanos, h⟩]
  exact congrArg _ (congrArg (· + (nanos : Int)) (Int.add_zero _))

end ClockTime

namespace Instant

/-- The clock shows every instant, with the seconds and the nanoseconds that the instant has. -/
theorem toClock?_eq (instant : Instant) :
    instant.toClock? = some ⟨instant.seconds, instant.nanos, instant.nanos_lt⟩ := by
  have hside : 0 ≤ instant.seconds ↔ 0 ≤ instant.seconds.toInt := Int64.le_iff_toInt_le
  simp only [toClock?]
  split
  · next hafter =>
    rw [ClockTime.add?_epoch (hside.mp hafter)]
    exact ClockTime.add?_fraction ..
  · next hbefore =>
    rw [ClockTime.sub?_epoch (Int.le_of_lt (Int.lt_of_not_ge (hbefore ∘ hside.mpr)))]
    exact ClockTime.add?_fraction ..

theorem ofNat_eq {seconds : Nat} {word : Int64} (h : (seconds : Int) = word.toInt) :
    Int64.ofNat seconds = word := by
  rw [← Int64.ofInt_eq_ofNat, h, Int64.ofInt_toInt]

theorem neg_ofNat (seconds : Nat) : -Int64.ofNat seconds = Int64.ofInt (-seconds) := by
  rw [← Int64.ofInt_eq_ofNat, Int64.ofInt_neg]

/-- An instant has the seconds and the nanoseconds that the clock shows. -/
theorem ofClock_eq (time : ClockTime) :
    ofClock time = ⟨time.seconds, time.nanos, time.nanos_lt⟩ := by
  unfold ofClock
  rcases time.sinceEpoch_cases with ⟨-, span, hspan, hseconds, hsubsecond⟩ |
    ⟨-, hwhole, span, hspan, hseconds, hsubsecond⟩ |
    ⟨-, hfraction, span, hspan, hseconds, hsubsecond⟩
  · rw [hspan, ofEpochDistance]
    exact (mk.injEq ..).mpr ⟨ofNat_eq hseconds, hsubsecond⟩
  · rw [hspan, ofEpochDistance, dif_pos hsubsecond]
    refine (mk.injEq ..).mpr ⟨?_, hwhole.symm⟩
    rw [neg_ofNat, hseconds, Int.neg_neg, Int64.ofInt_toInt]
  · have hnanos := time.nanos_lt
    have hborrowed : span.subsecond ≠ 0 := by omega
    rw [hspan, ofEpochDistance, dif_neg hborrowed]
    refine (mk.injEq ..).mpr ⟨?_, by omega⟩
    calc -Int64.ofNat span.seconds - 1
      _ = Int64.ofInt (-span.seconds - 1) := by rw [neg_ofNat, Int64.ofInt_sub]; rfl
      _ = Int64.ofInt time.seconds.toInt := by rw [hseconds]; congr 1; omega
      _ = time.seconds := Int64.ofInt_toInt _

/-! ### Operation by operation -/

/-- The result of an operation on unsigned words of 32 bits. There is none if it overflows. -/
def shortWord? (n : Int) : Option Nat :=
  if 0 ≤ n ∧ n < 0x100000000 then some n.toNat else none

theorem shortWord?_natCast {n : Nat} (h : n < 0x100000000) : shortWord? n = some n :=
  if_pos ⟨Int.natCast_nonneg n, Int.ofNat_lt.mpr h⟩

/-- The seconds and nanoseconds of the instant at a distance from the epoch. The seconds of the
distance are taken for a signed word as they are. -/
def distanceWords? : EpochDistance → Option (Int × Nat)
  | .after span => some ((Int64.ofNat span.seconds).toInt, span.subsecond)
  | .before span => do
    let seconds ← word? (-(Int64.ofNat span.seconds).toInt)
    if span.subsecond = 0 then some (seconds, 0)
    else
      let seconds ← word? (seconds - 1)
      let nanos ← shortWord? (nanosPerSecond - span.subsecond)
      some (seconds, nanos)

/-- The seconds and nanoseconds of the instant of a reading of the clock. -/
def clockWords? (time : ClockTime) : Option (Int × Nat) :=
  distanceWords? time.sinceEpoch

/-- Nothing overflows after the epoch. -/
theorem distanceWords?_after {span : Span} {word : Int64} (h : (span.seconds : Int) = word.toInt) :
    distanceWords? (.after span) = some (word.toInt, span.subsecond) := by
  rw [distanceWords?, ofNat_eq h]

/-- Before the epoch nothing overflows as long as the seconds of the distance fit a signed word. -/
theorem distanceWords?_before {span : Span} (h : span.seconds < 0x8000000000000000) :
    distanceWords? (.before span) =
      if span.subsecond = 0 then some (-(span.seconds : Int), 0)
      else some (-(span.seconds : Int) - 1, nanosPerSecond - span.subsecond) := by
  have hnanos : span.subsecond < 1000000000 := Nat.mod_lt _ nanosPerSecond_pos
  have hborrowed : (nanosPerSecond : Int) - span.subsecond =
      (nanosPerSecond - span.subsecond : Nat) := by
    unfold nanosPerSecond
    omega
  rw [distanceWords?, Int64.toInt_ofNat_of_lt h, word?_eq (by omega) (by omega), some_bind]
  split
  · rfl
  · rw [word?_eq (by omega) (by omega), some_bind, hborrowed,
      shortWord?_natCast (by unfold nanosPerSecond; omega), some_bind]

/-- The seconds of the earliest reading are taken for a negative word, which has no opposite. -/
theorem distanceWords?_before_of_large {span : Span} (h : span.seconds = 0x8000000000000000) :
    distanceWords? (.before span) = none := by
  rw [distanceWords?, h]
  rfl

/-- Operation by operation the seconds and the nanoseconds of a reading come out, and an operation
overflows for the earliest reading only. -/
theorem clockWords?_eq (time : ClockTime) :
    clockWords? time = none ∧ time.IsEarliest ∨
      clockWords? time = some (time.seconds.toInt, time.nanos) ∧ ¬ time.IsEarliest := by
  have hleast := time.seconds.le_toInt
  have hearliest : time.IsEarliest ↔ time.seconds.toInt = -0x8000000000000000 ∧ time.nanos = 0 :=
    and_congr_left' Int64.toInt_inj.symm
  unfold clockWords?
  rcases time.sinceEpoch_cases with ⟨hside, span, hspan, hseconds, hsubsecond⟩ |
    ⟨hside, hwhole, span, hspan, hseconds, hsubsecond⟩ |
    ⟨hside, hfraction, span, hspan, hseconds, hsubsecond⟩
  · refine .inr ⟨?_, fun h ↦ by have := (hearliest.mp h).1; omega⟩
    rw [hspan, distanceWords?_after hseconds, hsubsecond]
  · by_cases hlarge : span.seconds = 0x8000000000000000
    · refine .inl ⟨?_, hearliest.mpr ⟨by omega, hwhole⟩⟩
      rw [hspan, distanceWords?_before_of_large hlarge]
    · refine .inr ⟨?_, fun h ↦ by have := (hearliest.mp h).1; omega⟩
      rw [hspan, distanceWords?_before (by omega), if_pos hsubsecond, hseconds, Int.neg_neg, hwhole]
  · have hnanos := time.nanos_lt
    refine .inr ⟨?_, fun h ↦ hfraction h.2⟩
    rw [hspan, distanceWords?_before (by omega), if_neg (by omega)]
    exact congrArg some (Prod.ext (by simp only; omega) (by simp only; omega))

/-! ### Both ways -/

/-- Every instant is shown by the clock, and the instant of that reading is the same one. Every
reading is the reading of its instant, which has the same seconds and the same nanoseconds, below
one second on both sides of the epoch. Operation by operation the same words come out unless the
reading is the earliest one, where an operation overflows. -/
theorem clock_round_trip (instant : Instant) (time : ClockTime) :
    (∃ reading, instant.toClock? = some reading ∧ ofClock reading = instant ∧
      (clockWords? reading = some (instant.seconds.toInt, instant.nanos) ↔
        ¬ (instant.seconds = Int64.minValue ∧ instant.nanos = 0))) ∧
    (ofClock time).toClock? = some time ∧
    ((ofClock time).seconds = time.seconds ∧ (ofClock time).nanos = time.nanos ∧
      (ofClock time).nanos < nanosPerSecond) ∧
    (clockWords? time = some ((ofClock time).seconds.toInt, (ofClock time).nanos) ↔
      ¬ time.IsEarliest) ∧
    (clockWords? time = none ↔ time.IsEarliest) := by
  have hwords (time : ClockTime) :
      (clockWords? time = some (time.seconds.toInt, time.nanos) ↔ ¬ time.IsEarliest) ∧
      (clockWords? time = none ↔ time.IsEarliest) := by
    rcases clockWords?_eq time with ⟨hnone, hearliest⟩ | ⟨hsome, hlater⟩
    · exact ⟨iff_of_false (by simp [hnone]) (not_not_intro hearliest), iff_of_true hnone hearliest⟩
    · exact ⟨iff_of_true hsome hlater, iff_of_false (by simp [hsome]) hlater⟩
  refine ⟨⟨_, instant.toClock?_eq, ofClock_eq _, (hwords _).1⟩, ?_⟩
  rw [ofClock_eq, toClock?_eq]
  exact ⟨rfl, ⟨rfl, rfl, time.nanos_lt⟩, hwords time⟩

/-- Half a second before the epoch, and the earliest reading, whose sign cannot be turned. -/
theorem clock_round_trip_earliest :
    let half : ClockTime := ⟨-1, 500000000, by decide⟩
    let earliest : ClockTime := ⟨Int64.minValue, 0, nanosPerSecond_pos⟩
    clockWords? half = some (-1, 500000000) ∧
    clockWords? earliest = none ∧ (ofClock earliest).toClock? = some earliest := by
  intro half earliest
  obtain ⟨-, -, ⟨hseconds, hnanos, -⟩, hwords, -⟩ := clock_round_trip (ofClock half) half
  obtain ⟨-, hback, -, -, hnone⟩ := clock_round_trip (ofClock earliest) earliest
  have hhalf : ¬ half.IsEarliest := fun h ↦ absurd h.2 (by decide)
  rw [hseconds, hnanos] at hwords
  exact ⟨hwords.mpr hhalf, hnone.mpr ⟨rfl, rfl⟩, hback⟩

end Instant

end Wireline
