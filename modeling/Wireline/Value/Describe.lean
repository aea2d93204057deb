import Wireline.Binary64.Shortest
import Wireline.Text.Quoted
import Wireline.Value.Basic

/-!
# The diagnostic text of a value

Error messages and printed record ids show a value as a term: the kind of each node, with its
content in parentheses (`describe`). Lists and the entries of maps stand in brackets, text is
quoted, and a float always shows a fraction or an exponent.
-/

set_option autoImplicit false
set_option relaxedAutoImplicit false

namespace Wireline.Value

/-- Parts in brackets, separated by commas. -/
def bracketed (parts : List String) : String :=
  "[" ++ String.intercalate ", " parts ++ "]"

/-- The chunks of a template: its octets and the number of each gap. -/
def describeChunks (chunks : List (Octets × Gap)) : String :=
  bracketed <| chunks.map fun (run, g) ↦
    "(" ++ Text.quotedOctets run ++ ", " ++ toString g.id ++ ")"

mutual

/-- The term that shows a value. -/
def describe : Value → String
  | .undefined => "Undefined"
  | .null => "Null"
  | .bool flag => if flag then "Bool(true)" else "Bool(false)"
  | .integer n => "Integer(" ++ toString n ++ ")"
  | .float x => "Float(" ++ x.text .exact ++ ")"
  | .octets o => "Bytes(" ++ bracketed (o.map fun b ↦ toString b.toNat) ++ ")"
  | .text t => "Text(" ++ Text.quoted t ++ ")"
  | .array items => "Array(" ++ bracketed (describeEach items) ++ ")"
  | .map entries => "Map(" ++ bracketed (describePairs entries) ++ ")"
  | .tagged tag content => "Tagged(" ++ toString tag.toNat ++ ", " ++ describe content ++ ")"
  | .gap g => "Gap(" ++ toString g.id ++ ")"
  | .template t => "Partial(" ++ describeChunks t.chunks ++ ", " ++ Text.quotedOctets t.tail ++ ")"
  | .encoded o => "Encoded(" ++ Text.quotedOctets o ++ ")"

def describeEach : List Value → List String
  | [] => []
  | item :: items => describe item :: describeEach items

def describePairs : List (Value × Value) → List String
  | [] => []
  | (key, value) :: entries =>
    ("(" ++ describe key ++ ", " ++ describe value ++ ")") :: describePairs entries

end

/-- The term that shows a list of values. -/
def describeItems (items : List Value) : String :=
  bracketed (describeEach items)

/-- The term that shows the entries of a map. -/
def describeEntries (entries : List (Value × Value)) : String :=
  bracketed (describePairs entries)

end Wireline.Value
