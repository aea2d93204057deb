/-!
# Tag numbers

The tags under which the server sends and expects domain values.
-/

set_option autoImplicit false
set_option relaxedAutoImplicit false

namespace Wireline.Tag

/-- An instant as RFC 3339 text. -/
def instantText : UInt64 := 0

/-- The absence of a value. -/
def absent : UInt64 := 6

def table : UInt64 := 7
def recordId : UInt64 := 8

/-- A UUID in its text form. -/
def uuidText : UInt64 := 9

def decimal : UInt64 := 10

/-- An instant as seconds and nanoseconds since the epoch. -/
def instant : UInt64 := 12

/-- A span of time as text with units. -/
def spanText : UInt64 := 13

/-- A span of time as seconds and nanoseconds, trailing zeros left out. -/
def span : UInt64 := 14

def future : UInt64 := 15

/-- A UUID as sixteen octets. -/
def uuid : UInt64 := 37

def range : UInt64 := 49
def boundIncluded : UInt64 := 50
def boundExcluded : UInt64 := 51

def point : UInt64 := 88
def line : UInt64 := 89
def polygon : UInt64 := 90
def multiPoint : UInt64 := 91
def multiLine : UInt64 := 92
def multiPolygon : UInt64 := 93
def collection : UInt64 := 94

end Wireline.Tag
