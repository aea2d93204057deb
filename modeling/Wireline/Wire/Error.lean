/-!
# What can be wrong with a frame

`WireError` lists the causes for which reading or writing a value fails, and `WireError.message` is
their wording. Running out of octets is a cause of its own (`isRange`), since more input may mend
it. So are the two causes that lie with a template and not with the input (`isPartial`).
-/

set_option autoImplicit false
set_option relaxedAutoImplicit false

namespace Wireline

/-- The eight kinds of item that an initial octet announces. -/
inductive Major
  | unsigned
  | negative
  | octets
  | text
  | array
  | map
  | tag
  | simple
  deriving DecidableEq, Inhabited

/-- What a kind of item is called. -/
def Major.name : Major → String
  | .unsigned => "Unsigned"
  | .negative => "Negative"
  | .octets => "Bytes"
  | .text => "Text"
  | .array => "Array"
  | .map => "Map"
  | .tag => "Tag"
  | .simple => "Simple"

/-- The three bits that stand for a kind of item. -/
def Major.code : Major → Nat
  | .unsigned => 0
  | .negative => 1
  | .octets => 2
  | .text => 3
  | .array => 4
  | .map => 5
  | .tag => 6
  | .simple => 7

/-- The kind of item that three bits stand for. -/
def Major.ofCode : Nat → Major
  | 0 => .unsigned
  | 1 => .negative
  | 2 => .octets
  | 3 => .text
  | 4 => .array
  | 5 => .map
  | 6 => .tag
  | _ => .simple

@[simp] theorem Major.ofCode_code (major : Major) : ofCode major.code = major := by
  cases major <;> rfl

theorem Major.code_lt (major : Major) : major.code < 8 := by
  cases major <;> decide

/-- Why a number is refused. -/
inductive NumberFault
  | tooBig
  | tooSmall
  /-- A hook on a tag refused the content, with its own words. -/
  | refused (reason : String)
  deriving DecidableEq

/-- Why a value cannot be read or written. -/
inductive WireError
  /-- Fewer octets are left than a step needs. -/
  | outOfOctets (needed available : Nat)
  /-- An indefinite string holds an item of another kind. -/
  | foreignChunk (major : Major)
  /-- The additional information of an initial octet is one of the reserved values. -/
  | reservedLength (info : Nat)
  /-- An indefinite string holds another indefinite string. -/
  | nestedRun
  /-- A break stands where a value is due. -/
  | strayBreak
  | number (fault : NumberFault)
  | invalidText
  | unsupportedSimple (info : Nat)
  /-- Arrays, maps and tags nest deeper than the limit. -/
  | tooDeep (limit : Nat)
  /-- Octets are left after the value. -/
  | trailing (count : Nat)
  /-- A gap without a fill, in a value that has to be complete. -/
  | openGap
  /-- A gap of a template without a fill and without a fallback. -/
  | missingFill
  deriving DecidableEq

namespace NumberFault

def message : NumberFault → String
  | .tooBig => "integer too big to be encoded"
  | .tooSmall => "integer too small to be encoded"
  | .refused reason => reason

end NumberFault

namespace WireError

def message : WireError → String
  | .outOfOctets needed available =>
    "range error: needed " ++ toString needed ++ " bytes but only " ++ toString available ++
      " remain"
  | .foreignChunk major =>
    "invalid major type " ++ toString major.code ++ ": chunk of indefinite-length string"
  | .reservedLength info =>
    "invalid length encoding (additional info " ++ toString info ++ ")"
  | .nestedRun => "nested indefinite-length string"
  | .strayBreak => "came across a break which was not intercepted by the decoder"
  | .number fault => "number error: " ++ fault.message
  | .invalidText => "text string is not valid utf-8"
  | .unsupportedSimple info => "unsupported simple value " ++ toString info
  | .tooDeep limit => "nesting exceeds the maximum depth of " ++ toString limit
  | .trailing count => toString count ++ " trailing bytes after value"
  | .openGap => "encountered a gap without a fill while partial encoding is disabled"
  | .missingFill => "a gap has no fill and no default value"

/-- Whether the input ran out. -/
def isRange : WireError → Bool
  | .outOfOctets .. => true
  | _ => false

/-- Whether a gap was left open. -/
def isPartial : WireError → Bool
  | .openGap | .missingFill => true
  | _ => false

end WireError

end Wireline
