import Wireline.Binary64.Arithmetic
import Wireline.Domain.Calendar
import Wireline.Octets
import Wireline.Text.Digits
import Wireline.Toml.Basic
import Wireline.Word

/-!
# TOML numbers, flags and moments

Integers are decimal, or hexadecimal, octal or binary after a prefix, and fit a signed word of 64
bits. Floats have a fraction or an exponent. Single underscores may stand between digits. Dates and
times are checked but not kept.
-/

set_option autoImplicit false
set_option relaxedAutoImplicit false

namespace Wireline.Toml.Grammar

/-! ### Digits -/

/-- Reads digits with single underscores between them, and gives the digits alone. -/
def digitGroups (isDigit : Char → Bool) (input : List Char) : Option (List Char × List Char) :=
  let run := input.takeWhile fun c ↦ isDigit c || c == '_'
  let digits := run.filter (· != '_')
  let aside := (run.zip run.tail).any fun (a, b) ↦ a == '_' && b == '_'
  if run.head? = some '_' ∨ run.getLast? = some '_' ∨ aside ∨ digits = [] then none
  else some (digits, input.drop run.length)

/-- Reads a sign, if there is one, and says whether it is a minus. -/
def sign : List Char → Bool × List Char
  | '+' :: rest => (false, rest)
  | '-' :: rest => (true, rest)
  | input => (false, input)

/-- Reads the digits of a decimal integer, which has no zero in front. -/
def wholeDigits (input : List Char) : Option (List Char × List Char) :=
  match input with
  | '0' :: rest => some (['0'], rest)
  | _ => digitGroups Char.isDigit input

/-- The number that digits of a base stand for. -/
def numberIn (base : Nat) (digits : List Char) : Nat :=
  digits.foldl (fun n digit ↦ n * base + (Octets.hexDigit? digit).getD 0) 0

/-- Reads an integer with a prefix for its base, after the prefix. -/
def prefixed (base : Nat) (input : List Char) : Option (Int × List Char) := do
  let isDigit (c : Char) : Bool := (Octets.hexDigit? c).any (· < base)
  let (digits, rest) ← digitGroups isDigit input
  return (← word? (numberIn base digits), rest)

def integer (input : List Char) : Option (Int × List Char) :=
  match input with
  | '0' :: 'x' :: rest => prefixed 16 rest
  | '0' :: 'o' :: rest => prefixed 8 rest
  | '0' :: 'b' :: rest => prefixed 2 rest
  | _ => do
    let (negative, input) := sign input
    let (digits, rest) ← wholeDigits input
    let n : Int := Text.number digits
    return (← word? (if negative then -n else n), rest)

/-! ### Floats -/

/-- Reads a fraction, if there is a point. -/
def fraction (input : List Char) : Option (Option (List Char) × List Char) :=
  match input with
  | '.' :: rest => do
    let (digits, rest) ← digitGroups Char.isDigit rest
    return (some digits, rest)
  | _ => some (none, input)

/-- Reads an exponent, if there is one. -/
def exponent (input : List Char) : Option (Option Int × List Char) :=
  match input with
  | c :: rest =>
    if c = 'e' ∨ c = 'E' then do
      let (negative, rest) := sign rest
      let (digits, rest) ← digitGroups Char.isDigit rest
      let n : Int := Text.number digits
      return (some (if negative then -n else n), rest)
    else some (none, input)
  | [] => some (none, input)

/-- Reads a number with a fraction, an exponent or both. It may not be too large for a float, unless
it is negative. -/
def finiteFloat (input : List Char) : Option (Binary64 × List Char) := do
  let (negative, input) := sign input
  let (whole, input) ← wholeDigits input
  let (decimals, input) ← fraction input
  let (power, input) ← exponent input
  if decimals = none ∧ power = none then none
  let decimals := decimals.getD []
  let x := Binary64.ofDecimal negative (Text.number (whole ++ decimals))
    (power.getD 0 - decimals.length)
  if x = .infinity false then none else some (x, input)

/-- Reads a float: a number, infinity, or the word for what is no number. -/
def float (input : List Char) : Option (Binary64 × List Char) :=
  let (negative, unsigned) := sign input
  match unsigned with
  | 'i' :: 'n' :: 'f' :: rest => some (.infinity negative, rest)
  | 'n' :: 'a' :: 'n' :: rest => some (.nan, rest)
  | _ => finiteFloat input

/-! ### Moments -/

/-- Reads a number of two digits that is not above a limit. -/
def pair (limit : Nat) (input : List Char) : Option (Nat × List Char) := do
  let (n, rest) ← Text.digits? 2 input
  if n ≤ limit then some (n, rest) else none

/-- Reads a date, and gives the text after it. -/
def date (input : List Char) : Option (List Char) := do
  let (year, input) ← Text.digits? 4 input
  let (month, input) ← pair 12 (← symbol '-' input)
  let (day, input) ← pair 31 (← symbol '-' input)
  if Date.isValid ⟨year, month, day⟩ then some input else none

/-- Reads a time of day, and gives the text after it. -/
def time (input : List Char) : Option (List Char) := do
  let (_, input) ← pair 23 input
  let (_, input) ← pair 59 (← symbol ':' input)
  let (_, input) ← pair 60 (← symbol ':' input)
  match input with
  | '.' :: rest =>
    let digits := rest.takeWhile Char.isDigit
    if digits = [] then some input else some (rest.drop digits.length)
  | _ => some input

/-- Reads an offset from universal time, and gives the text after it. -/
def offset (input : List Char) : Option (List Char) :=
  match input with
  | 'Z' :: rest | 'z' :: rest => some rest
  | c :: rest =>
    if c = '+' ∨ c = '-' then do
      let (_, rest) ← pair 23 rest
      let (_, rest) ← pair 59 (← symbol ':' rest)
      return rest
    else none
  | [] => none

/-- Reads a time of day after a date, if there is one. -/
def timeAfterDate (input : List Char) : List Char :=
  match input with
  | c :: rest =>
    if c = 'T' ∨ c = 't' ∨ c = ' ' then
      match time rest with
      | some rest => (offset rest).getD rest
      | none => input
    else input
  | [] => input

/-- Reads a date, a time of day, or both, and gives the text after it. -/
def moment (input : List Char) : Option (List Char) :=
  match date input with
  | some rest => some (timeAfterDate rest)
  | none => time input

/-! ### All scalars but strings -/

def flag : Reader Bool
  | 't' :: 'r' :: 'u' :: 'e' :: rest => some (true, rest)
  | 'f' :: 'a' :: 'l' :: 's' :: 'e' :: rest => some (false, rest)
  | _ => none

/-- Reads a scalar that is no string. -/
def scalar (input : List Char) : Option (Toml × List Char) :=
  match flag input with
  | some (b, rest) => some (.flag b, rest)
  | none =>
    match moment input with
    | some rest => some (.moment, rest)
    | none =>
      match float input with
      | some (x, rest) => some (.float x, rest)
      | none => (integer input).map fun (n, rest) ↦ (.integer n, rest)

end Wireline.Toml.Grammar
