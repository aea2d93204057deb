import Wireline.Domain.Error
import Wireline.Domain.Ident
import Wireline.Domain.Tag
import Wireline.Value.Describe

/-!
# Ranges

A range has two bounds, each of them a value that belongs to the range or not, or none at all. Two
dots stand between the bounds when a range is printed; a lower bound outside the range has an angle
after it, and an upper bound inside the range an equals sign before it.
-/

set_option autoImplicit false
set_option relaxedAutoImplicit false

namespace Wireline

/-- One end of a range. -/
inductive Bound
  | included (value : Value)
  | excluded (value : Value)
  | unbounded
  deriving Inhabited

namespace Bound

def value? : Bound → Option Value
  | included value | excluded value => some value
  | unbounded => none

def toValue : Bound → Value
  | included value => .tagged Tag.boundIncluded value
  | excluded value => .tagged Tag.boundExcluded value
  | unbounded => .null

def ofValue : Value → Except DomainError Bound
  | .null | .undefined => .ok unbounded
  | .tagged tag content =>
    if tag = Tag.boundIncluded then .ok (included content)
    else if tag = Tag.boundExcluded then .ok (excluded content)
    else .error (.unexpectedTag Tag.boundIncluded tag)
  | _ => .error (.shape .bound)

/-- The text of the value at a bound. -/
def valueText : Value → String
  | .integer n => toString n
  | .float x => x.text .plain
  | .text t => Ident.escape t
  | value => value.describe

/-- A bound at the lower end. -/
def lowerText : Bound → String
  | included value => valueText value
  | excluded value => valueText value ++ ">"
  | unbounded => ""

/-- A bound at the upper end. -/
def upperText : Bound → String
  | included value => "=" ++ valueText value
  | excluded value => valueText value
  | unbounded => ""

end Bound

/-- All that lies between two bounds. -/
structure Range where
  lower : Bound := .unbounded
  upper : Bound := .unbounded

namespace Range

def text (range : Range) : String :=
  range.lower.lowerText ++ ".." ++ range.upper.upperText

def toValue (range : Range) : Value :=
  .tagged Tag.range (.array [range.lower.toValue, range.upper.toValue])

def ofValue (value : Value) : Except DomainError Range := do
  match (← value.under Tag.range).array? with
  | some [lower, upper] => return ⟨← Bound.ofValue lower, ← Bound.ofValue upper⟩
  | _ => throw (.shape .rangePair)

end Range

end Wireline
