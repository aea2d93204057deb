import Wireline.Domain.Error
import Wireline.Domain.Tag

/-!
# Decimals and futures

A decimal is kept as the text it came in, which has the form of a number: an optional sign, digits,
an optional fraction and an optional exponent (`Decimal.isNumeral`). A future is an expression that
the server evaluates when the record is read; its text is not looked into.
-/

set_option autoImplicit false
set_option relaxedAutoImplicit false

namespace Wireline

namespace Decimal

/-- The characters after an optional sign. -/
def unsigned : List Char → List Char
  | c :: rest => if c = '-' ∨ c = '+' then rest else c :: rest
  | [] => []

/-- One or more ASCII digits. -/
def areDigits (text : List Char) : Bool :=
  !text.isEmpty && text.all Char.isDigit

/-- Splits at the first character with a property, which is left out. -/
def splitAt (separates : Char → Bool) (text : List Char) : List Char × Option (List Char) :=
  match text.span (!separates ·) with
  | (before, _ :: after) => (before, some after)
  | (before, []) => (before, none)

/-- Whether a text is a decimal number with optional sign, fraction and exponent. -/
def isNumeral (text : List Char) : Bool :=
  let (mantissa, exponent) := splitAt (fun c ↦ c == 'e' || c == 'E') (unsigned text)
  let (whole, fraction) := splitAt (· == '.') mantissa
  areDigits whole && fraction.all areDigits && exponent.all (areDigits ∘ unsigned)

end Decimal

/-- A decimal number of any precision, in its own text. -/
structure Decimal where
  text : String
  isNumeral_text : Decimal.isNumeral text.toList = true
  deriving DecidableEq

namespace Decimal

/-- Accepts the text of a number. -/
def parse (text : String) : Except DomainError Decimal :=
  if h : isNumeral text.toList = true then .ok ⟨text, h⟩ else .error (.malformed .decimal text)

def toValue (decimal : Decimal) : Value :=
  .tagged Tag.decimal (.text decimal.text)

def ofValue (value : Value) : Except DomainError Decimal := do
  let content ← value.under Tag.decimal
  parse (← Shape.decimalText.require content.text?)

end Decimal

/-- An expression that is evaluated when it is read. -/
structure Future where
  expression : String
  deriving DecidableEq

namespace Future

/-- The expression in braces, marked as a future. -/
def text (future : Future) : String :=
  "<future> \x7b " ++ future.expression ++ " \x7d"

def toValue (future : Future) : Value :=
  .tagged Tag.future (.text future.expression)

def ofValue (value : Value) : Except DomainError Future := do
  let content ← value.under Tag.future
  return ⟨← Shape.futureText.require content.text?⟩

end Future

end Wireline
