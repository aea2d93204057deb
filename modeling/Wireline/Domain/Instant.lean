import Wireline.Domain.Calendar
import Wireline.Domain.Clock

/-!
# Instants

An `Instant` is a point in time: whole seconds from the epoch, and the nanoseconds after them, which
stay below one second also before the epoch. Its text is that of RFC 3339 (`Instant.parse`,
`Instant.text`): texts may be in any offset from universal time, with any number of fraction digits,
of which nine count, and are written in universal time with no more digits than needed.

On the wire an instant is the pair of its two numbers, and is accepted as text too. It has a reading
of the clock (`Instant.toClock?`), and each reading is an instant (`Instant.ofClock`).
-/

set_option autoImplicit false
set_option relaxedAutoImplicit false

namespace Wireline

/-- A point in time. -/
structure Instant where
  seconds : Int64
  nanos : Nat
  nanos_lt : nanos < nanosPerSecond
  deriving DecidableEq

namespace Instant

/-- The instant of seconds and nanoseconds, whole seconds carried out of the nanoseconds. There is
none if the seconds leave their range. -/
def new? (seconds : Int64) (nanos : Nat) : Option Instant :=
  let total := seconds.toInt + nanos / nanosPerSecond
  if total < 0x8000000000000000 then
    some ⟨Int64.ofInt total, nanos % nanosPerSecond, Nat.mod_lt _ nanosPerSecond_pos⟩
  else none

/-- The instant of seconds and nanoseconds, whole seconds carried out of the nanoseconds. Seconds
that leave their range stop at its end. -/
def new (seconds : Int64) (nanos : Nat) : Instant :=
  let total := min (seconds.toInt + nanos / nanosPerSecond) 0x7fffffffffffffff
  ⟨Int64.ofInt total, nanos % nanosPerSecond, Nat.mod_lt _ nanosPerSecond_pos⟩

/-! ### Text -/

def secondsPerDay : Int := 86400

/-- The nanoseconds that fraction digits stand for: the first nine count, and missing ones are
zero. -/
def fractionNanos (digits : List Char) : Nat :=
  Text.number ((digits ++ List.replicate 9 '0').take 9)

theorem fractionNanos_lt {digits : List Char} (h : digits.all Char.isDigit = true) :
    fractionNanos digits < nanosPerSecond := by
  have hall : ((digits ++ List.replicate 9 '0').take 9).all Char.isDigit = true := by
    rw [List.all_eq_true] at h ⊢
    intro c hc
    rcases List.mem_append.mp (List.mem_of_mem_take hc) with hc | hc
    · exact h c hc
    · rw [(List.mem_replicate.mp hc).2]; decide
  have hlength : ((digits ++ List.replicate 9 '0').take 9).length = 9 := by
    simp
  have hbound := Text.number_lt hall
  rw [hlength] at hbound
  exact hbound

/-- Reads a date in ten characters. -/
def readDate (text : List Char) : Option (Date × List Char) := do
  let (year, text) ← Text.digits? 4 text
  let text ← Text.char? (· == '-') text
  let (month, text) ← Text.digits? 2 text
  let text ← Text.char? (· == '-') text
  let (day, text) ← Text.digits? 2 text
  let date : Date := ⟨year, month, day⟩
  if date.isValid then some (date, text) else none

/-- Reads a time of day as a number of seconds. The last second of a minute may be the sixtieth. -/
def readTime (text : List Char) : Option (Nat × List Char) := do
  let (hour, text) ← Text.digits? 2 text
  let text ← Text.char? (· == ':') text
  let (minute, text) ← Text.digits? 2 text
  let text ← Text.char? (· == ':') text
  let (second, text) ← Text.digits? 2 text
  if hour ≤ 23 ∧ minute ≤ 59 ∧ second ≤ 60 then some (hour * 3600 + minute * 60 + second, text)
  else none

/-- Reads a fraction of a second, if a point announces one, as digits. -/
def readFraction (text : List Char) : Option (List Char × List Char) :=
  match text with
  | '.' :: rest =>
    if rest.takeWhile Char.isDigit = [] then none
    else some (rest.takeWhile Char.isDigit, rest.dropWhile Char.isDigit)
  | _ => some ([], text)

theorem isDigit_of_readFraction {text digits rest : List Char}
    (h : readFraction text = some (digits, rest)) : digits.all Char.isDigit = true := by
  unfold readFraction at h
  split at h
  · split at h
    · simp at h
    · simp only [Option.some.injEq, Prod.mk.injEq] at h
      rw [← h.1]
      simp
  · simp only [Option.some.injEq, Prod.mk.injEq] at h
    simp [← h.1]

/-- Reads the offset from universal time, which ends the text, as a number of seconds. -/
def readOffset (text : List Char) : Option Int :=
  match text with
  | ['Z'] | ['z'] => some 0
  | sign :: rest => do
    let (hours, rest) ← Text.digits? 2 rest
    let rest ← Text.char? (· == ':') rest
    let (minutes, rest) ← Text.digits? 2 rest
    let seconds : Int := (hours * 60 + minutes) * 60
    if rest ≠ [] then none
    else if sign = '+' then some seconds
    else if sign = '-' then some (-seconds)
    else none
  | [] => none

/-- Reads the text of an instant: date and time with a letter `T` or a blank between them, an
optional fraction, and the offset. -/
def parse? (text : List Char) : Option Instant :=
  match readDate text with
  | none => none
  | some (date, text) =>
    match (Text.char? (fun c ↦ c == 'T' || c == 't' || c == ' ') text).bind readTime with
    | none => none
    | some (time, text) =>
      match h : readFraction text with
      | none => none
      | some (fraction, text) =>
        (readOffset text).map fun offset ↦
          ⟨Int64.ofInt (date.toDays * secondsPerDay + time - offset), fractionNanos fraction,
            fractionNanos_lt (isDigit_of_readFraction h)⟩

/-- Reads the text of an instant. -/
def parse (text : String) : Except DomainError Instant :=
  match parse? text.toList with
  | some instant => .ok instant
  | none => .error (.malformed .instant text)

/-- The digits after the point for a number of nanoseconds, without zeros at the end. -/
def fractionDigits (nanos : Nat) : List Char :=
  ((Text.padded 9 nanos).reverse.dropWhile (· == '0')).reverse

/-- The text of an instant in universal time. -/
def text (instant : Instant) : String :=
  let date := Date.ofDays (instant.seconds.toInt / secondsPerDay)
  let time := instant.seconds.toInt % secondsPerDay
  let fraction := if instant.nanos = 0 then [] else '.' :: fractionDigits instant.nanos
  String.ofList <|
    Text.padded 4 date.year ++ '-' :: Text.padded 2 date.month ++ '-' :: Text.padded 2 date.day ++
    'T' :: Text.padded 2 (time / 3600) ++ ':' :: Text.padded 2 (time % 3600 / 60) ++
    ':' :: Text.padded 2 (time % 60) ++ fraction ++ ['Z']

/-! ### Values -/

def toValue (instant : Instant) : Value :=
  .tagged Tag.instant (.array [.integer instant.seconds.toInt, .integer instant.nanos])

/-- An instant from its pair of numbers or its text, each under its own tag. -/
def ofValue (value : Value) : Except DomainError Instant := do
  match value.tagged? with
  | some (tag, content) =>
    if tag = Tag.instant then
      let (seconds, nanos) ← Span.compactPair content
      if nanos < 0 ∨ 0x100000000 ≤ nanos.toInt then throw (.shape .instantNanoseconds)
      Shape.instantInRange.require (new? seconds nanos.toInt.toNat)
    else if tag = Tag.instantText then parse (← Shape.instantText.require content.text?)
    else .error (.unexpectedTag Tag.instant tag)
  | none => .error (.shape .taggedInstant)

/-! ### The clock -/

/-- The reading of the clock at an instant, if the clock can show it. -/
def toClock? (instant : Instant) : Option ClockTime := do
  let whole : Span := .ofSeconds instant.seconds.toInt.natAbs
  let base ←
    if 0 ≤ instant.seconds then ClockTime.epoch.add? whole else ClockTime.epoch.sub? whole
  base.add? (.ofNanoseconds instant.nanos)

/-- The instant of a distance from the epoch. Before the epoch a fraction is borrowed from the
seconds. -/
def ofEpochDistance : EpochDistance → Instant
  | .after span =>
    ⟨Int64.ofNat span.seconds, span.subsecond, Nat.mod_lt _ nanosPerSecond_pos⟩
  | .before span =>
    if h : span.subsecond = 0 then ⟨-Int64.ofNat span.seconds, 0, nanosPerSecond_pos⟩
    else
      ⟨-Int64.ofNat span.seconds - 1, nanosPerSecond - span.subsecond,
        Nat.sub_lt nanosPerSecond_pos (Nat.pos_of_ne_zero h)⟩

/-- The instant of a reading of the clock. -/
def ofClock (time : ClockTime) : Instant :=
  ofEpochDistance time.sinceEpoch

end Instant

end Wireline
