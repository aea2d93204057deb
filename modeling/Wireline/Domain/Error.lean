import Wireline.Value.Basic
import Wireline.Wire.Error

/-!
# Why a value is not of a domain type

A conversion from a value fails because the value is under the wrong tag, because its content has
the wrong shape, or because a text in it does not follow the grammar of the type.
`DomainError.message` is the wording.
-/

set_option autoImplicit false
set_option relaxedAutoImplicit false

namespace Wireline

/-- The shapes that conversions ask for. -/
inductive Shape
  | taggedValue
  | taggedUuid
  | uuidOctets
  | uuidText
  | decimalText
  | futureText
  | taggedInstant
  | instantText
  | instantNanoseconds
  | instantInRange
  | taggedSpan
  | spanText
  | secondsAndNanoseconds
  | spanSeconds
  | spanNanoseconds
  | tableText
  | recordKeyInteger
  | recordKey
  | recordTable
  | recordPair
  | singleRecordKey
  | bound
  | rangePair
  | taggedGeometry
  | geometryMembers
  | coordinate
  | coordinatePair
  deriving DecidableEq

/-- What was expected, in words. -/
def Shape.words : Shape → String
  | .taggedValue => "tagged value"
  | .taggedUuid => "tagged uuid"
  | .uuidOctets => "16 uuid bytes"
  | .uuidText => "uuid text"
  | .decimalText => "decimal text"
  | .futureText => "future expression text"
  | .taggedInstant => "tagged datetime"
  | .instantText => "datetime text"
  | .instantNanoseconds => "nanoseconds"
  | .instantInRange => "datetime in range"
  | .taggedSpan => "tagged duration"
  | .spanText => "duration text"
  | .secondsAndNanoseconds => "[seconds, nanoseconds]"
  | .spanSeconds => "non-negative seconds"
  | .spanNanoseconds => "non-negative nanoseconds"
  | .tableText => "table name text"
  | .recordKeyInteger => "record key within i64"
  | .recordKey => "record key"
  | .recordTable => "record table text"
  | .recordPair => "[table, key] pair"
  | .singleRecordKey => "single record key, found a range"
  | .bound => "range bound"
  | .rangePair => "[beg, end] pair"
  | .taggedGeometry => "tagged geometry"
  | .geometryMembers => "geometry member array"
  | .coordinate => "numeric coordinate"
  | .coordinatePair => "[x, y] coordinate pair"

/-- The texts that are read by a grammar. -/
inductive TextForm
  | uuid
  | decimal
  | instant
  | span
  | spanUnit
  deriving DecidableEq

def TextForm.words : TextForm → String
  | .uuid => "uuid"
  | .decimal => "decimal"
  | .instant => "datetime"
  | .span => "duration"
  | .spanUnit => "duration unit"

inductive DomainError
  /-- The value is under another tag. -/
  | unexpectedTag (expected found : UInt64)
  /-- The content is not of the expected shape. -/
  | shape (expected : Shape)
  /-- The text does not follow the grammar of the form. -/
  | malformed (form : TextForm) (text : String)
  | wire (error : WireError)
  deriving DecidableEq

def DomainError.message : DomainError → String
  | .unexpectedTag expected found =>
    "expected tag " ++ toString expected.toNat ++ ", found " ++ toString found.toNat
  | .shape expected => "invalid shape: expected " ++ expected.words
  | .malformed form text => "invalid " ++ form.words ++ ": " ++ text
  | .wire error => "codec error: " ++ error.message

/-- What an option holds, or the error that a shape is not met. -/
def Shape.require {α : Type} (expected : Shape) : Option α → Except DomainError α
  | some a => .ok a
  | none => .error (.shape expected)

/-- The content of a value under the expected tag. -/
def Value.under (value : Value) (expected : UInt64) : Except DomainError Value :=
  match value.tagged? with
  | some (found, content) =>
    if found = expected then .ok content else .error (.unexpectedTag expected found)
  | none => .error (.shape .taggedValue)

end Wireline
