import Wireline.Binary64.Arithmetic
import Wireline.Octets

/-!
# Values

A `Value` is what a frame carries: scalars, text, octets, lists, maps in the order of their entries,
and a value under a numbered tag. Three more forms are only ever written. A `Gap` is a hole that a
value is put into later, a `Template` is a value already written around such holes, and `encoded`
holds octets that are already in wire form.

Two values are the same (`Value.same`) if they agree node by node, floats numerically, gaps by
identity and templates by their octets and gaps.
-/

set_option autoImplicit false
set_option relaxedAutoImplicit false

namespace Wireline

/-- A value without parts. -/
inductive Leaf
  | undefined
  | null
  | bool (flag : Bool)
  | integer (n : Int)
  | float (x : Binary64)
  | octets (octets : Octets)
  | text (text : String)
  | encoded (octets : Octets)

/-- A value without gaps. -/
inductive Gapless
  | leaf (leaf : Leaf)
  | array (items : List Gapless)
  | map (entries : List (Gapless × Gapless))
  | tagged (tag : UInt64) (content : Gapless)

/-- A rule that replaces leaves while a value is written. -/
structure Substitution where
  /-- What a leaf is written as, if not as itself. Leaves within it are not replaced again, so where
  the rule is meant for them too, they are given as what they become. -/
  replacement? : Leaf → Option Gapless

/-- Writes an undefined value as null under a tag. -/
def Substitution.undefinedUnder (tag : UInt64) : Substitution where
  replacement?
    | .undefined => some (.tagged tag (.leaf .null))
    | _ => none

mutual

inductive Value
  | undefined
  | null
  | bool (flag : Bool)
  | integer (n : Int)
  | float (x : Binary64)
  | octets (octets : Octets)
  | text (text : String)
  | array (items : List Value)
  /-- Keys with their values, in order. A key may be any value and may occur again. -/
  | map (entries : List (Value × Value))
  | tagged (tag : UInt64) (content : Value)
  | gap (gap : Gap)
  | template (template : Template)
  | encoded (octets : Octets)

/-- A hole for a value. Gaps are told apart by their number alone. -/
structure Gap where
  id : Nat
  /-- The value that a template puts into the hole if it is given no other. -/
  fallback : Option Value

/-- A value written around holes: each run of octets is followed by a gap, and `tail` ends the
value. The substitution applies to what is put into the gaps. -/
structure Template where
  chunks : List (Octets × Gap)
  tail : Octets
  substitution : Option Substitution

end

/-! ### Values without gaps -/

def Leaf.toValue : Leaf → Value
  | .undefined => .undefined
  | .null => .null
  | .bool flag => .bool flag
  | .integer n => .integer n
  | .float x => .float x
  | .octets o => .octets o
  | .text t => .text t
  | .encoded o => .encoded o

mutual

def Gapless.toValue : Gapless → Value
  | .leaf l => l.toValue
  | .array items => .array (Gapless.toItems items)
  | .map entries => .map (Gapless.toEntries entries)
  | .tagged tag content => .tagged tag content.toValue

def Gapless.toItems : List Gapless → List Value
  | [] => []
  | item :: items => item.toValue :: Gapless.toItems items

def Gapless.toEntries : List (Gapless × Gapless) → List (Value × Value)
  | [] => []
  | (key, value) :: entries => (key.toValue, value.toValue) :: Gapless.toEntries entries

end

namespace Value

/-- The value as a leaf, if it is one. -/
def leaf? : Value → Option Leaf
  | .undefined => some .undefined
  | .null => some .null
  | .bool flag => some (.bool flag)
  | .integer n => some (.integer n)
  | .float x => some (.float x)
  | .octets o => some (.octets o)
  | .text t => some (.text t)
  | .encoded o => some (.encoded o)
  | .array _ | .map _ | .tagged _ _ | .gap _ | .template _ => none

instance : Inhabited Value := ⟨.null⟩

/-! ### Building and reading -/

/-- A map with text keys. -/
def ofFields (fields : List (String × Value)) : Value :=
  .map (fields.map fun (key, value) ↦ (.text key, value))

def ofOption {α : Type} (value : α → Value) : Option α → Value
  | none => .null
  | some a => value a

def text? : Value → Option String
  | .text t => some t
  | _ => none

def integer? : Value → Option Int
  | .integer n => some n
  | _ => none

/-- The integer, if it fits a signed word of 64 bits. -/
def int64? (value : Value) : Option Int64 :=
  value.integer?.bind fun n ↦
    if -0x8000000000000000 ≤ n ∧ n < 0x8000000000000000 then some (Int64.ofInt n) else none

theorem int64?_toInt (word : Int64) : int64? (.integer word.toInt) = some word := by
  have hleast := word.le_toInt
  have hmost := word.toInt_lt
  rw [int64?, integer?, Option.bind_some, if_pos ⟨hleast, hmost⟩, Int64.ofInt_toInt]

theorem int64?_natCast {n : Nat} (h : n < 0x8000000000000000) :
    int64? (.integer n) = some (Int64.ofNat n) := by
  rw [← Int64.toInt_ofNat_of_lt h]
  exact int64?_toInt _

theorem int64?_natCast_eq_none {n : Nat} (h : 0x8000000000000000 ≤ n) :
    int64? (.integer n) = none := by
  rw [int64?, integer?, Option.bind_some, if_neg (by omega)]

/-- The integer, if it fits an unsigned word of 64 bits. -/
def uint64? (value : Value) : Option UInt64 :=
  value.integer?.bind fun n ↦
    if 0 ≤ n ∧ n < 0x10000000000000000 then some (UInt64.ofNat n.toNat) else none

/-- A number as a double. Integers are rounded to the nearest one. -/
def float? : Value → Option Binary64
  | .float x => some x
  | .integer n => some (.ofInt n)
  | _ => none

def bool? : Value → Option Bool
  | .bool flag => some flag
  | _ => none

def array? : Value → Option (List Value)
  | .array items => some items
  | _ => none

def octets? : Value → Option Octets
  | .octets o => some o
  | _ => none

def tagged? : Value → Option (UInt64 × Value)
  | .tagged tag content => some (tag, content)
  | _ => none

/-- The value of the first entry of a map whose key is the given text. -/
def get? (value : Value) (key : String) : Option Value :=
  match value with
  | .map entries =>
    (entries.find? fun (k, _) ↦ k.text? == some key).map Prod.snd
  | _ => none

def isNull : Value → Bool
  | .null => true
  | _ => false

/-- Whether the value is null or undefined. -/
def isAbsent : Value → Bool
  | .null | .undefined => true
  | _ => false

/-! ### Sameness -/

/-- Chunks agree in their octets and in the identity of their gaps. -/
def sameChunks : List (Octets × Gap) → List (Octets × Gap) → Bool
  | [], [] => true
  | (a, g) :: as, (b, h) :: bs => a == b && g.id == h.id && sameChunks as bs
  | _, _ => false

mutual

/-- Node by node agreement. -/
def same : Value → Value → Bool
  | .undefined, .undefined => true
  | .null, .null => true
  | .bool a, .bool b => a == b
  | .integer a, .integer b => a == b
  | .float a, .float b => Binary64.same a b
  | .octets a, .octets b => a == b
  | .text a, .text b => a == b
  | .array a, .array b => sameItems a b
  | .map a, .map b => sameEntries a b
  | .tagged s a, .tagged t b => s == t && same a b
  | .gap a, .gap b => a.id == b.id
  | .template a, .template b => a.tail == b.tail && sameChunks a.chunks b.chunks
  | .encoded a, .encoded b => a == b
  | _, _ => false

def sameItems : List Value → List Value → Bool
  | [], [] => true
  | a :: as, b :: bs => same a b && sameItems as bs
  | _, _ => false

def sameEntries : List (Value × Value) → List (Value × Value) → Bool
  | [], [] => true
  | (k, a) :: as, (l, b) :: bs => same k l && same a b && sameEntries as bs
  | _, _ => false

end

instance : BEq Value := ⟨same⟩

end Value

/-- Whether two templates agree in their octets and gaps, whatever they substitute. -/
def Template.same (a b : Template) : Bool :=
  Value.same (.template a) (.template b)

/-- The gaps of a template in order. -/
def Template.gaps (template : Template) : List Gap :=
  template.chunks.map Prod.snd

end Wireline
