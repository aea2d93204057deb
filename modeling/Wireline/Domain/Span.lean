import Wireline.Domain.Error
import Wireline.Domain.Tag
import Wireline.Text.Digits

/-!
# Spans of time

A `Span` is a count of nanoseconds whose whole seconds fit a word of 64 bits. Its text lists amounts
with units, `1h30m` for instance. Every unit may occur in any place and more than once when a text
is read (`Span.parse`); writing goes from weeks down to nanoseconds and leaves out what is zero
(`Span.text`).

On the wire a span is the list of its seconds and remaining nanoseconds, trailing zeros left out
(`Span.toCompact`).
-/

set_option autoImplicit false
set_option relaxedAutoImplicit false

namespace Wireline

/-- The units of time that the text of a span may use. -/
inductive TimeUnit
  | week
  | day
  | hour
  | minute
  | second
  | millisecond
  | microsecond
  | nanosecond
  deriving DecidableEq

namespace TimeUnit

/-- All units, the largest first. -/
def all : List TimeUnit :=
  [week, day, hour, minute, second, millisecond, microsecond, nanosecond]

/-- The length of a unit in nanoseconds. -/
def nanoseconds : TimeUnit → Nat
  | week => 604800000000000
  | day => 86400000000000
  | hour => 3600000000000
  | minute => 60000000000
  | second => 1000000000
  | millisecond => 1000000
  | microsecond => 1000
  | nanosecond => 1

/-- How a unit is written. -/
def symbol : TimeUnit → String
  | week => "w"
  | day => "d"
  | hour => "h"
  | minute => "m"
  | second => "s"
  | millisecond => "ms"
  | microsecond => "us"
  | nanosecond => "ns"

/-- Reads the longest unit at the front. A microsecond may also be written with either of the two
micro signs. -/
def read? : List Char → Option (TimeUnit × List Char)
  | 'n' :: 's' :: rest => some (nanosecond, rest)
  | 'u' :: 's' :: rest => some (microsecond, rest)
  | 'µ' :: 's' :: rest => some (microsecond, rest)
  | 'μ' :: 's' :: rest => some (microsecond, rest)
  | 'm' :: 's' :: rest => some (millisecond, rest)
  | 's' :: rest => some (second, rest)
  | 'm' :: rest => some (minute, rest)
  | 'h' :: rest => some (hour, rest)
  | 'd' :: rest => some (day, rest)
  | 'w' :: rest => some (week, rest)
  | _ => none

theorem length_of_read? {text rest : List Char} {unit : TimeUnit}
    (h : read? text = some (unit, rest)) : rest.length < text.length := by
  unfold read? at h
  split at h <;> cases h <;> simp only [List.length_cons] <;> omega

end TimeUnit

/-- The nanoseconds of one second. -/
def nanosPerSecond : Nat := 1000000000

theorem nanosPerSecond_pos : 0 < nanosPerSecond := by decide

/-- A count of nanoseconds. -/
structure Span where
  nanoseconds : Nat
  fits : nanoseconds < 0x10000000000000000 * nanosPerSecond
  deriving DecidableEq

namespace Span

/-- The span of a number of nanoseconds, if it fits. -/
def ofNanoseconds? (n : Nat) : Option Span :=
  if h : n < 0x10000000000000000 * nanosPerSecond then some ⟨n, h⟩ else none

/-- The longest span. -/
def longest : Span :=
  ⟨0x10000000000000000 * nanosPerSecond - 1, by decide⟩

/-- The span of a number of nanoseconds, or the longest one. -/
def ofNanoseconds (n : Nat) : Span :=
  (ofNanoseconds? n).getD longest

def zero : Span :=
  ⟨0, by decide⟩

instance : Inhabited Span := ⟨zero⟩

def ofSeconds (seconds : Nat) : Span :=
  ofNanoseconds (seconds * nanosPerSecond)

def ofMilliseconds (milliseconds : Nat) : Span :=
  ofNanoseconds (milliseconds * 1000000)

/-- The least number of milliseconds that covers the span. -/
def ceilMilliseconds (span : Span) : Nat :=
  (span.nanoseconds + 999999) / 1000000

/-- The whole seconds. -/
def seconds (span : Span) : Nat :=
  span.nanoseconds / nanosPerSecond

/-- The nanoseconds after the last whole second. -/
def subsecond (span : Span) : Nat :=
  span.nanoseconds % nanosPerSecond

/-! ### Text -/

/-- What goes wrong while the text of a span is read. -/
inductive TextFault
  /-- No digits where an amount is due, or a number that cannot be counted. -/
  | malformed
  /-- The amount is not followed by a unit but by this text. -/
  | unknownUnit (rest : List Char)
  deriving DecidableEq

/-- Amounts and running totals have to stay below this. -/
def countLimit : Nat := 0x100000000000000000000000000000000

/-- Adds up the items of a text, each an amount with its unit. -/
def readItems (total : Nat) (text : List Char) : Except TextFault Nat :=
  if text = [] then .ok total
  else
    let digits := text.takeWhile Char.isDigit
    let amount := Text.number digits
    if digits = [] ∨ countLimit ≤ amount then .error .malformed
    else
      match _h : TimeUnit.read? (text.dropWhile Char.isDigit) with
      | none => .error (.unknownUnit (text.dropWhile Char.isDigit))
      | some (unit, rest) =>
        let total := total + amount * unit.nanoseconds
        if countLimit ≤ total then .error .malformed else readItems total rest
termination_by text.length
decreasing_by
  have := TimeUnit.length_of_read? _h
  have := (List.dropWhile_sublist Char.isDigit (l := text)).length_le
  omega

/-- Reads the text of a span: one or more amounts with their units. -/
def parse (text : String) : Except DomainError Span :=
  if text.isEmpty then .error (.malformed .span text)
  else
    match readItems 0 text.toList with
    | .ok total =>
      match ofNanoseconds? total with
      | some span => .ok span
      | none => .error (.malformed .span text)
    | .error .malformed => .error (.malformed .span text)
    | .error (.unknownUnit rest) => .error (.malformed .spanUnit (String.ofList rest))

/-- Writes a number of nanoseconds in units, each as often as it goes in. -/
def items : List TimeUnit → Nat → List String
  | [], _ => []
  | unit :: units, n =>
    let count := n / unit.nanoseconds
    let others := items units (n % unit.nanoseconds)
    if count = 0 then others else (toString count ++ unit.symbol) :: others

/-- The text of a span. -/
def text (span : Span) : String :=
  if span.nanoseconds = 0 then "0ns" else String.join (items TimeUnit.all span.nanoseconds)

/-! ### Values -/

/-- Seconds and remaining nanoseconds, trailing zeros left out. -/
def toCompact (span : Span) : List Value :=
  if span.subsecond ≠ 0 then [.integer span.seconds, .integer span.subsecond]
  else if span.seconds ≠ 0 then [.integer span.seconds]
  else []

/-- Reads a list of at most two signed words. Missing ones are zero. -/
def compactPair (content : Value) : Except DomainError (Int64 × Int64) := do
  let word (value : Value) := Shape.secondsAndNanoseconds.require value.int64?
  match ← Shape.secondsAndNanoseconds.require content.array? with
  | [] => return (0, 0)
  | [seconds] => return (← word seconds, 0)
  | [seconds, nanoseconds] => return (← word seconds, ← word nanoseconds)
  | _ => throw (.shape .secondsAndNanoseconds)

/-- Reads seconds and nanoseconds, neither of them negative. There may be more nanoseconds than make
a second. -/
def ofCompact (content : Value) : Except DomainError Span := do
  let (seconds, nanoseconds) ← compactPair content
  if seconds < 0 then throw (.shape .spanSeconds)
  if nanoseconds < 0 then throw (.shape .spanNanoseconds)
  return ofNanoseconds (seconds.toInt.toNat * nanosPerSecond + nanoseconds.toInt.toNat)

def toValue (span : Span) : Value :=
  .tagged Tag.span (.array span.toCompact)

/-- A span from its compact form or its text, each under its own tag. -/
def ofValue (value : Value) : Except DomainError Span := do
  match value.tagged? with
  | some (tag, content) =>
    if tag = Tag.span then ofCompact content
    else if tag = Tag.spanText then parse (← Shape.spanText.require content.text?)
    else .error (.unexpectedTag Tag.span tag)
  | none => .error (.shape .taggedSpan)

end Span

end Wireline
