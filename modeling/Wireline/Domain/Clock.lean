import Wireline.Domain.Span

/-!
# Clock readings

A `ClockTime` is what the clock of the machine shows: signed whole seconds from the epoch, and the
nanoseconds after them. Adding or subtracting a span may leave the range of the clock. The distance
from the epoch is a span on one side of it (`ClockTime.sinceEpoch`).
-/

set_option autoImplicit false
set_option relaxedAutoImplicit false

namespace Wireline

/-- A reading of the clock. -/
structure ClockTime where
  seconds : Int64
  nanos : Nat
  nanos_lt : nanos < nanosPerSecond

/-- How far a reading is from the epoch, and on which side. -/
inductive EpochDistance
  | after (span : Span)
  | before (span : Span)
  deriving DecidableEq

namespace ClockTime

def epoch : ClockTime :=
  ⟨0, 0, nanosPerSecond_pos⟩

/-- All of the reading in nanoseconds. -/
def toNanoseconds (time : ClockTime) : Int :=
  time.seconds.toInt * nanosPerSecond + time.nanos

/-- The reading that is a number of nanoseconds from the epoch, if the clock can show it. -/
def ofNanoseconds? (n : Int) : Option ClockTime :=
  let seconds := n / nanosPerSecond
  if -0x8000000000000000 ≤ seconds ∧ seconds < 0x8000000000000000 then
    some ⟨Int64.ofInt seconds, (n % nanosPerSecond).toNat, by unfold nanosPerSecond; omega⟩
  else none

/-- The reading a span later. -/
def add? (time : ClockTime) (span : Span) : Option ClockTime :=
  ofNanoseconds? (time.toNanoseconds + span.nanoseconds)

/-- The reading a span earlier. -/
def sub? (time : ClockTime) (span : Span) : Option ClockTime :=
  ofNanoseconds? (time.toNanoseconds - span.nanoseconds)

/-- The distance from the epoch. The epoch itself counts as after it. -/
def sinceEpoch (time : ClockTime) : EpochDistance :=
  if 0 ≤ time.toNanoseconds then .after (.ofNanoseconds time.toNanoseconds.toNat)
  else .before (.ofNanoseconds (-time.toNanoseconds).toNat)

end ClockTime

end Wireline
