import Wireline.Domain.Range
import Wireline.Domain.Uuid

/-!
# Tables and records

A record is named by its table and a key (`RecordId`). A range of keys names many records of one
table (`RecordRange`). Both travel under one tag, as a pair of table and key or table and range, and
neither is accepted for the other. A record id may also be sent as text, which is left to the server
to read (`TextualRecordId`).
-/

set_option autoImplicit false
set_option relaxedAutoImplicit false

namespace Wireline

/-- The name of a table. -/
structure TableName where
  name : String
  deriving DecidableEq

namespace TableName

def text (table : TableName) : String :=
  Ident.escape table.name

def toValue (table : TableName) : Value :=
  .tagged Tag.table (.text table.name)

def ofValue (value : Value) : Except DomainError TableName := do
  return ⟨← Shape.tableText.require (← value.under Tag.table).text?⟩

end TableName

/-- The key of a record within its table. -/
inductive RecordKey
  | text (key : String)
  | integer (key : Int64)
  | uuid (key : Uuid)
  | array (items : List Value)
  | object (entries : List (Value × Value))

namespace RecordKey

/-- What a kind of key is called. -/
def kind : RecordKey → String
  | text _ => "text"
  | integer _ => "integer"
  | uuid _ => "uuid"
  | array _ => "array"
  | object _ => "object"

/-- The text of a key. A UUID is marked as one, and lists and maps are shown as terms. -/
def print : RecordKey → String
  | text key => Ident.escape key
  | integer key => toString key.toInt
  | uuid key => "u\"" ++ key.text ++ "\""
  | array items => Value.describeItems items
  | object entries => Value.describeEntries entries

def toValue : RecordKey → Value
  | text key => .text key
  | integer key => .integer key.toInt
  | uuid key => key.toValue
  | array items => .array items
  | object entries => .map entries

def ofValue (value : Value) : Except DomainError RecordKey :=
  match value with
  | .text key => .ok (text key)
  | .integer _ => (Shape.recordKeyInteger.require value.int64?).map integer
  | .array items => .ok (array items)
  | .map entries => .ok (object entries)
  | .tagged _ _ => (Uuid.ofValue value).map uuid
  | _ => .error (.shape .recordKey)

end RecordKey

/-- The table and the key in a value that names records. -/
def Value.recordParts (value : Value) : Except DomainError (String × Value) := do
  match (← value.under Tag.recordId).array? with
  | some [table, key] => return (← Shape.recordTable.require table.text?, key)
  | _ => throw (.shape .recordPair)

/-- The name of one record. -/
structure RecordId where
  table : String
  key : RecordKey

namespace RecordId

def text (id : RecordId) : String :=
  Ident.escape id.table ++ ":" ++ id.key.print

def toValue (id : RecordId) : Value :=
  .tagged Tag.recordId (.array [.text id.table, id.key.toValue])

def ofValue (value : Value) : Except DomainError RecordId := do
  let (table, key) ← value.recordParts
  if (key.tagged?.map Prod.fst) = some Tag.range then throw (.shape .singleRecordKey)
  return ⟨table, ← RecordKey.ofValue key⟩

end RecordId

/-- The name of one record as text. -/
structure TextualRecordId where
  text : String
  deriving DecidableEq

def TextualRecordId.toValue (id : TextualRecordId) : Value :=
  .tagged Tag.recordId (.text id.text)

/-- The name of all records of a table whose keys lie in a range. -/
structure RecordRange where
  table : String
  keys : Range

namespace RecordRange

def text (records : RecordRange) : String :=
  Ident.escape records.table ++ ":" ++ records.keys.text

def toValue (records : RecordRange) : Value :=
  .tagged Tag.recordId (.array [.text records.table, records.keys.toValue])

def ofValue (value : Value) : Except DomainError RecordRange := do
  let (table, key) ← value.recordParts
  return ⟨table, ← Range.ofValue key⟩

end RecordRange

end Wireline
