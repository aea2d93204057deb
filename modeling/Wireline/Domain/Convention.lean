import Wireline.Domain.Span
import Wireline.Domain.Uuid
import Wireline.Wire.Decode
import Wireline.Wire.Encode

/-!
# The convention between client and server

Both ends agree on how some values travel. An undefined value is sent as null under the tag of
absence, and anything under that tag is read as undefined. A UUID or a span of time that arrives as
text is turned into its compact form, and text that does not parse stays as it came.

`encodeValue` and `decodeValue` follow the convention.
-/

set_option autoImplicit false
set_option relaxedAutoImplicit false

namespace Wireline

namespace Convention

/-- What is replaced when a value is sent. -/
def substitution : Substitution :=
  .undefinedUnder Tag.absent

/-- The compact form of a value whose content is a text, if the text parses. -/
def compact? (tag : UInt64) (text : String) : Option Value :=
  if tag = Tag.uuidText then (Uuid.parse text).toOption.map Uuid.toValue
  else if tag = Tag.spanText then (Span.parse text).toOption.map Span.toValue
  else none

/-- What a value becomes when it has arrived. -/
def settle : Value → Value
  | .tagged tag content =>
    if tag = Tag.absent then .undefined
    else ((content.text?).bind (compact? tag)).getD (.tagged tag content)
  | value => value

def hooks : Hooks :=
  { finish := settle }

end Convention

/-- Writes a value by the convention. -/
def encodeValue (value : Value) : Except WireError Octets :=
  encode value { substitution := some Convention.substitution }

/-- Reads exactly one value by the convention. -/
def decodeValue (input : Octets) : Except WireError Value :=
  decodeAll input Convention.hooks

end Wireline
