import Wireline.Domain.Error
import Wireline.Domain.Tag
import Wireline.Text.Utf8

/-!
# UUIDs

A UUID is sixteen octets. Its text has 32 hexadecimal digits in groups of 8, 4, 4, 4 and 12 with
hyphens between them, and is also read without any hyphen (`Uuid.parse`). Which form a text has is
told from the number of its octets. On the wire a UUID travels as octets, and is accepted as text
too.
-/

set_option autoImplicit false
set_option relaxedAutoImplicit false

namespace Wireline

structure Uuid where
  octets : Octets
  length_octets : octets.length = 16
  deriving DecidableEq

namespace Uuid

/-- The UUID of sixteen octets. -/
def ofOctets? (octets : Octets) : Option Uuid :=
  if h : octets.length = 16 then some ⟨octets, h⟩ else none

/-- The octet of a hyphen. -/
def hyphen : UInt8 := 0x2d

/-- Where the hyphens stand among the octets of a text with groups. -/
def hyphenPlaces : List (Fin 36) := [8, 13, 18, 23]

/-- The digits of a text with groups, which are all its characters but the hyphens. There has to be
a hyphen at each place between two groups, and thirty-two octets have to be left. -/
def ungroup? (text : String) : Option (List Char) :=
  if h : (Text.octets text).length = 36 then
    -- No place is beyond the last octet.
    let placed := hyphenPlaces.all fun place ↦ (Text.octets text).get (place.cast h.symm) == hyphen
    let digits := text.toList.filter (· ≠ '-')
    if placed ∧ (Text.octets (String.ofList digits)).length = 32 then some digits else none
  else none

/-- The digits of a text in either form. -/
def digits? (text : String) : Option (List Char) :=
  if (Text.octets text).length = 32 then some text.toList else ungroup? text

def parse? (text : String) : Option Uuid := do
  ofOctets? (← Octets.ofHexDigits? (← digits? text))

/-- Reads the text of a UUID. -/
def parse (text : String) : Except DomainError Uuid :=
  match parse? text with
  | some uuid => .ok uuid
  | none => .error (.malformed .uuid text)

/-- The text of a UUID: lower-case digits in five groups. -/
def text (uuid : Uuid) : String :=
  let digits := uuid.octets.hexDigits
  String.ofList (digits.take 8 ++ '-' :: (digits.drop 8).take 4 ++ '-' :: (digits.drop 12).take 4 ++
    '-' :: (digits.drop 16).take 4 ++ '-' :: digits.drop 20)

def toValue (uuid : Uuid) : Value :=
  .tagged Tag.uuid (.octets uuid.octets)

/-- A UUID from its octets or its text, each under its own tag. -/
def ofValue (value : Value) : Except DomainError Uuid := do
  match value.tagged? with
  | some (tag, content) =>
    if tag = Tag.uuid then Shape.uuidOctets.require (content.octets?.bind ofOctets?)
    else if tag = Tag.uuidText then parse (← Shape.uuidText.require content.text?)
    else .error (.unexpectedTag Tag.uuid tag)
  | none => .error (.shape .taggedUuid)

end Uuid

end Wireline
