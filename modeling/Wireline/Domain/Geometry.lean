import Wireline.Domain.Error
import Wireline.Domain.Tag

/-!
# Geometries

Points, and what is made of them. Each kind has its own tag, and so has every member of a composite
geometry. Coordinates are doubles; integers are accepted and widened.
-/

set_option autoImplicit false
set_option relaxedAutoImplicit false

namespace Wireline

/-- A point of the plane. -/
structure Point where
  x : Binary64
  y : Binary64
  deriving DecidableEq

/-- A sequence of points joined by straight segments. -/
abbrev Line := List Point

/-- The outer ring, and after it the rings of the holes. -/
abbrev Polygon := List Line

inductive Geometry
  | point (point : Point)
  | line (line : Line)
  | polygon (polygon : Polygon)
  | multiPoint (points : List Point)
  | multiLine (lines : List Line)
  | multiPolygon (polygons : List Polygon)
  | collection (members : List Geometry)

/-- What a kind of geometry is called. -/
def Geometry.kind : Geometry → String
  | .point _ => "Point"
  | .line _ => "Line"
  | .polygon _ => "Polygon"
  | .multiPoint _ => "MultiPoint"
  | .multiLine _ => "MultiLine"
  | .multiPolygon _ => "MultiPolygon"
  | .collection _ => "Collection"

/-! ### To values -/

def Point.toValue (p : Point) : Value :=
  .tagged Tag.point (.array [.float p.x, .float p.y])

def Line.toValue (line : Line) : Value :=
  .tagged Tag.line (.array (line.map Point.toValue))

def Polygon.toValue (polygon : Polygon) : Value :=
  .tagged Tag.polygon (.array (polygon.map Line.toValue))

namespace Geometry

mutual

def toValue : Geometry → Value
  | point p => p.toValue
  | line l => Line.toValue l
  | polygon p => Polygon.toValue p
  | multiPoint points => .tagged Tag.multiPoint (.array (points.map Point.toValue))
  | multiLine lines => .tagged Tag.multiLine (.array (lines.map Line.toValue))
  | multiPolygon polygons => .tagged Tag.multiPolygon (.array (polygons.map Polygon.toValue))
  | collection members => .tagged Tag.collection (.array (toValues members))

def toValues : List Geometry → List Value
  | [] => []
  | member :: members => member.toValue :: toValues members

end

end Geometry

/-! ### From values -/

/-- The members of a value under the tag of its kind. -/
def Value.geometryMembers (value : Value) (tag : UInt64) : Except DomainError (List Value) :=
  match value.tagged? with
  | some (found, content) =>
    if found = tag then Shape.geometryMembers.require content.array?
    else .error (.unexpectedTag tag found)
  | none => .error (.shape .taggedGeometry)

def Point.ofValue (value : Value) : Except DomainError Point := do
  match ← value.geometryMembers Tag.point with
  | [x, y] => return ⟨← Shape.coordinate.require x.float?, ← Shape.coordinate.require y.float?⟩
  | _ => throw (.shape .coordinatePair)

def Line.ofValue (value : Value) : Except DomainError Line := do
  (← value.geometryMembers Tag.line).mapM Point.ofValue

def Polygon.ofValue (value : Value) : Except DomainError Polygon := do
  (← value.geometryMembers Tag.polygon).mapM Line.ofValue

namespace Geometry

/-- Reads a geometry that is not a collection. The tag of the value tells the kind. -/
def ofSimple (tag : UInt64) (value : Value) : Except DomainError Geometry :=
  if tag = Tag.point then (Point.ofValue value).map point
  else if tag = Tag.line then (Line.ofValue value).map line
  else if tag = Tag.polygon then (Polygon.ofValue value).map polygon
  else if tag = Tag.multiPoint then do
    return multiPoint (← (← value.geometryMembers tag).mapM Point.ofValue)
  else if tag = Tag.multiLine then do
    return multiLine (← (← value.geometryMembers tag).mapM Line.ofValue)
  else if tag = Tag.multiPolygon then do
    return multiPolygon (← (← value.geometryMembers tag).mapM Polygon.ofValue)
  else .error (.unexpectedTag Tag.point tag)

mutual

def ofValue : Value → Except DomainError Geometry
  | .tagged tag content =>
    if tag = Tag.collection then (ofCollection content).map collection
    else ofSimple tag (.tagged tag content)
  | _ => .error (.shape .taggedGeometry)

/-- The members of a collection. -/
def ofCollection : Value → Except DomainError (List Geometry)
  | .array items => ofValues items
  | _ => .error (.shape .geometryMembers)

def ofValues : List Value → Except DomainError (List Geometry)
  | [] => .ok []
  | item :: items => do
    let member ← ofValue item
    let members ← ofValues items
    return member :: members

end

end Geometry

end Wireline
