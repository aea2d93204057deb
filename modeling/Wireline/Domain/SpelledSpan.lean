import Wireline.Domain.Span
import Wireline.Text.Blank
import Wireline.Word

/-!
# Spans in words

Configurations write spans of time with the names of units, `1h 30 minutes` or `2.5s` for instance.
White space may stand anywhere but inside the name of a unit. An amount may have a fraction, which
must come out even: in nanoseconds for units up to the minute, and in seconds for longer ones. Every
number on the way must fit a word of 64 bits.
-/

set_option autoImplicit false
set_option relaxedAutoImplicit false

namespace Wireline.SpelledSpan

/-- What a unit counts. -/
inductive Measure
  | nanoseconds (each : Nat)
  | seconds (each : Nat)
  deriving DecidableEq

/-- What the name of a unit stands for. Fractions of minutes and smaller units are counted in
nanoseconds, as `fractions` says. -/
structure SpanUnit where
  names : List String
  whole : Measure
  /-- What a fraction of the unit counts, if there may be one. -/
  fractions : Option Measure

def units : List SpanUnit :=
  [⟨["nanos", "nsec", "ns"], .nanoseconds 1, none⟩,
    ⟨["usec", "us", "µs"], .nanoseconds 1000, some (.nanoseconds 1000)⟩,
    ⟨["millis", "msec", "ms"], .nanoseconds 1000000, some (.nanoseconds 1000000)⟩,
    ⟨["seconds", "second", "secs", "sec", "s"], .seconds 1, some (.nanoseconds 1000000000)⟩,
    ⟨["minutes", "minute", "mins", "min", "m"], .seconds 60, some (.nanoseconds 60000000000)⟩,
    ⟨["hours", "hour", "hrs", "hr", "h"], .seconds 3600, some (.seconds 3600)⟩,
    ⟨["days", "day", "d"], .seconds 86400, some (.seconds 86400)⟩,
    ⟨["weeks", "week", "wks", "wk", "w"], .seconds 604800, some (.seconds 604800)⟩,
    ⟨["months", "month", "M"], .seconds 2630016, some (.seconds 2630016)⟩,
    ⟨["years", "year", "yrs", "yr", "y"], .seconds 31557600, some (.seconds 31557600)⟩]

def unit? (name : List Char) : Option SpanUnit :=
  units.find? fun unit ↦ unit.names.any fun known ↦ known.toList == name

/-- The quotient of a division without a remainder. -/
def evenly? (n parts : Nat) : Option Nat :=
  if n % parts = 0 then some (n / parts) else none

/-- Adds `amount / parts` of what is measured to a number of nanoseconds. -/
def add? (total : Nat) (measure : Measure) (amount parts : Nat) : Option Nat :=
  match measure with
  | .nanoseconds each => do
    let nanoseconds ← evenly? (← unsignedWord? (amount * each)) parts
    let _ ← unsignedWord? (total % nanosPerSecond + nanoseconds)
    (Span.ofNanoseconds? (total + nanoseconds)).map Span.nanoseconds
  | .seconds each => do
    let seconds ← evenly? (← unsignedWord? (amount * each)) parts
    (Span.ofNanoseconds? (total + seconds * nanosPerSecond)).map Span.nanoseconds

/-- A fraction: the number after the point, and the power of ten it is divided by. -/
structure Fraction where
  amount : Nat
  parts : Nat

/-- An amount with its unit. -/
structure Item where
  whole : Nat
  fraction : Option Fraction
  unit : List Char

/-- Whether a character may stand in the name of a unit. -/
def isUnitChar (c : Char) : Bool :=
  c.isAlpha || c == 'µ'

def skipBlanks (text : List Char) : List Char :=
  text.dropWhile Text.isBlank

/-- Reads digits with white space among them. -/
def spacedDigits (text : List Char) : List Char × List Char :=
  let (run, rest) := text.span fun c ↦ c.isDigit || Text.isBlank c
  (run.filter Char.isDigit, rest)

/-- Reads a fraction after its point. -/
def readFraction (text : List Char) : Option (Fraction × List Char) :=
  let (digits, rest) := spacedDigits text
  let parts := Nat.pow 10 digits.length
  if digits = [] ∨ 0x10000000000000000 ≤ parts then none
  else some (⟨Text.number digits, parts⟩, rest)

/-- Reads an amount with its unit, which begins with a digit. -/
def readItem (text : List Char) : Option (Item × List Char) := do
  if !text.head?.any Char.isDigit then none
  let (digits, rest) := spacedDigits text
  let whole ← unsignedWord? (Text.number digits)
  let (fraction, rest) ←
    match rest with
    | '.' :: rest => (readFraction rest).map fun (fraction, rest) ↦ (some fraction, rest)
    | _ => some (none, rest)
  return (⟨whole, fraction, rest.takeWhile isUnitChar⟩, rest.dropWhile isUnitChar)

/-- Adds an item to a number of nanoseconds. -/
def addItem (total : Nat) (item : Item) : Option Nat := do
  let unit ← unit? item.unit
  let total ← add? total unit.whole item.whole 1
  match item.fraction with
  | none => some total
  | some fraction => add? total (← unit.fractions) fraction.amount fraction.parts

/-- Reads items up to the end of the text. `left` bounds their number. -/
def readItems : (left : Nat) → (total : Nat) → List Char → Option Nat
  | 0, _, _ => none
  | left + 1, total, text => do
    let (item, rest) ← readItem text
    let total ← addItem total item
    match skipBlanks rest with
    | [] => some total
    | rest => readItems left total rest

/-- The span that a text spells out. A bare zero needs no unit. -/
def parse? (text : String) : Option Span :=
  if text = "0" then some .zero
  else
    let text := skipBlanks text.toList
    (readItems (text.length + 1) 0 text).bind Span.ofNanoseconds?

end Wireline.SpelledSpan
