import Wireline.Domain.Geometry
import Wireline.Proofs.Wire.Heads

/-!
# Geometries as values

A reader is exact against a writer (`Exact`) if it accepts precisely the values that the writer
writes, up to one liberty: a coordinate may be an integer, which stands for the nearest double.
`Value.widen` takes that liberty back, and nothing else.

Exactness passes from the members of a list to the list under its tag (`Exact.members`), from points
to lines to polygons and to the composites of each of them, and by recursion through collections of
any depth. So conversion is exact for all geometries (`conversion_exact`).
-/

set_option autoImplicit false
set_option relaxedAutoImplicit false

namespace Wireline

/-! ### Integer coordinates -/

/-- An integer as the double that it stands for, and all else as it is. -/
def Value.widenNumber : Value → Value
  | .integer n => .float (.ofInt n)
  | value => value

mutual

/-- A value with each integer coordinate replaced by its double. Coordinates are the items of a
point, and points stand in the lists under the other tags. -/
def Value.widen : Value → Value
  | .tagged tag (.array items) =>
    .tagged tag (.array (if tag = Tag.point then items.map widenNumber else widenMembers items))
  | value => value

def Value.widenMembers : List Value → List Value
  | [] => []
  | item :: items => item.widen :: widenMembers items

end

theorem Value.widenNumber_eq_float_iff {value : Value} {x : Binary64} :
    value.widenNumber = .float x ↔ value.float? = some x := by
  cases value <;> simp [widenNumber, float?]

/-- A list under a tag comes from a list under that tag. -/
theorem Value.widen_eq_tagged_iff {value : Value} {tag : UInt64} {widened : List Value} :
    value.widen = .tagged tag (.array widened) ↔ ∃ items, value = .tagged tag (.array items) ∧
      (if tag = Tag.point then items.map widenNumber else widenMembers items) = widened := by
  constructor
  · intro h
    unfold widen at h
    split at h
    · cases h
      exact ⟨_, rfl, rfl⟩
    · next hother => exact absurd h (hother _ _)
  · rintro ⟨items, rfl, rfl⟩
    rw [widen]

theorem Value.geometryMembers_eq_ok_iff {value : Value} {tag : UInt64} {items : List Value} :
    value.geometryMembers tag = .ok items ↔ value = .tagged tag (.array items) := by
  constructor
  · intro h
    unfold geometryMembers at h
    split at h
    case h_2 => cases h
    next found content htagged =>
    split at h
    case isFalse => cases h
    next hfound =>
    cases value <;> cases htagged
    cases content <;> cases h
    rw [hfound]
  · rintro rfl
    simp [geometryMembers, tagged?, array?, Shape.require]

theorem eq_some_of_require {α : Type} {expected : Shape} {found : Option α} {a : α}
    (h : expected.require found = .ok a) : found = some a := by
  cases found <;> cases h
  rfl

/-! ### Exact readers -/

/-- The reader accepts precisely what the writer writes, up to integer coordinates. -/
def Exact {α : Type} (read : Value → Except DomainError α) (write : α → Value) : Prop :=
  ∀ value a, read value = .ok a ↔ value.widen = write a

section Members

variable {α : Type} {read : Value → Except DomainError α} {write : α → Value}
  (h : Exact read write)

include h

theorem Exact.mapM (items : List Value) : ∀ as : List α,
    items.mapM read = .ok as ↔ Value.widenMembers items = as.map write := by
  induction items with
  | nil =>
    intro as
    cases as <;> simp [Value.widenMembers, pure, Except.pure]
  | cons item items ih =>
    intro as
    rw [List.mapM_cons, Value.widenMembers]
    constructor
    · intro hread
      obtain ⟨a, hitem, hread⟩ := exists_of_bind_eq_ok hread
      obtain ⟨others, hitems, hread⟩ := exists_of_bind_eq_ok hread
      cases hread
      rw [(h item a).mp hitem, (ih others).mp hitems, List.map_cons]
    · intro hwidened
      cases as with
      | nil => cases hwidened
      | cons a others =>
        rw [List.map_cons, List.cons.injEq] at hwidened
        rw [(h item a).mpr hwidened.1, (ih others).mpr hwidened.2]
        rfl

/-- Reading the members of a list under a tag is exact if reading each of them is. -/
theorem Exact.members {tag : UInt64} (htag : tag ≠ Tag.point) :
    Exact (fun value ↦ do (← value.geometryMembers tag).mapM read)
      (fun as ↦ .tagged tag (.array (as.map write))) := by
  intro value as
  simp only [Value.widen_eq_tagged_iff, if_neg htag]
  constructor
  · intro hread
    obtain ⟨items, hitems, hread⟩ := exists_of_bind_eq_ok hread
    exact ⟨items, Value.geometryMembers_eq_ok_iff.mp hitems, (h.mapM items as).mp hread⟩
  · rintro ⟨items, hvalue, hwidened⟩
    show (value.geometryMembers tag >>= fun items ↦ items.mapM read) = .ok as
    rw [Value.geometryMembers_eq_ok_iff.mpr hvalue]
    exact (h.mapM items as).mpr hwidened

end Members

/-- A point is a pair of numbers under its tag. -/
theorem Point.exact : Exact Point.ofValue Point.toValue := by
  intro value p
  simp only [Point.toValue, Value.widen_eq_tagged_iff, if_true]
  constructor
  · intro hread
    obtain ⟨items, hitems, hread⟩ := exists_of_bind_eq_ok hread
    refine ⟨items, Value.geometryMembers_eq_ok_iff.mp hitems, ?_⟩
    split at hread
    case h_2 => cases hread
    next x y =>
    obtain ⟨a, hx, hread⟩ := exists_of_bind_eq_ok hread
    obtain ⟨b, hy, hread⟩ := exists_of_bind_eq_ok hread
    cases hread
    rw [List.map_cons, List.map_cons, Value.widenNumber_eq_float_iff.mpr (eq_some_of_require hx),
      Value.widenNumber_eq_float_iff.mpr (eq_some_of_require hy), List.map_nil]
  · rintro ⟨items, hvalue, hwidened⟩
    obtain ⟨x, others, rfl, hx, hothers⟩ := List.map_eq_cons_iff.mp hwidened
    obtain ⟨y, others, rfl, hy, hothers⟩ := List.map_eq_cons_iff.mp hothers
    obtain rfl := List.map_eq_nil_iff.mp hothers
    rw [Point.ofValue, Value.geometryMembers_eq_ok_iff.mpr hvalue]
    show (do
      let a ← Shape.coordinate.require x.float?
      let b ← Shape.coordinate.require y.float?
      return (⟨a, b⟩ : Point)) = _
    rw [Value.widenNumber_eq_float_iff.mp hx, Value.widenNumber_eq_float_iff.mp hy]
    rfl

theorem Line.exact : Exact Line.ofValue Line.toValue :=
  Point.exact.members (by decide)

theorem Polygon.exact : Exact Polygon.ofValue Polygon.toValue :=
  Line.exact.members (by decide)

/-- The tag that a value comes under is not a coordinate. -/
theorem Value.exists_widen_tagged (tag : UInt64) (content : Value) :
    ∃ widened, (Value.tagged tag content).widen = .tagged tag widened := by
  cases content <;> exact ⟨_, rfl⟩

namespace Geometry

/-- The tag of a kind of geometry. -/
def tag : Geometry → UInt64
  | point _ => Tag.point
  | line _ => Tag.line
  | polygon _ => Tag.polygon
  | multiPoint _ => Tag.multiPoint
  | multiLine _ => Tag.multiLine
  | multiPolygon _ => Tag.multiPolygon
  | collection _ => Tag.collection

theorem exists_toValue_eq (g : Geometry) : ∃ content, g.toValue = .tagged g.tag content := by
  cases g <;> exact ⟨_, rfl⟩

section Kinds

variable {tag : UInt64} {content : Value} {g : Geometry}

theorem tag_eq_of_widen (h : (Value.tagged tag content).widen = g.toValue) : g.tag = tag := by
  obtain ⟨widened, hwidened⟩ := Value.exists_widen_tagged tag content
  obtain ⟨written, hwritten⟩ := g.exists_toValue_eq
  rw [hwidened, hwritten] at h
  cases h
  rfl

/-- The members are read, and then the kind is made of them. -/
theorem return_mapM_eq_map {α : Type} (members : Except DomainError (List Value))
    (read : Value → Except DomainError α) (kind : List α → Geometry) :
    (do return kind (← (← members).mapM read)) = (do (← members).mapM read).map kind := by
  cases members with
  | error => rfl
  | ok items =>
    show (items.mapM read >>= fun as ↦ pure (kind as)) = (items.mapM read).map kind
    cases items.mapM read <;> rfl

theorem exists_of_map_eq_ok {α : Type} {result : Except DomainError α} {kind : α → Geometry}
    (h : result.map kind = .ok g) : ∃ a, result = .ok a ∧ kind a = g := by
  cases result with
  | error => cases h
  | ok a => exact ⟨a, rfl, Except.ok.inj h⟩

/-- What is read is written back as it was, one case for each branch of the reader. -/
theorem widen_of_ofSimple (h : ofSimple tag (.tagged tag content) = .ok g) :
    (Value.tagged tag content).widen = g.toValue := by
  unfold ofSimple at h
  simp only [return_mapM_eq_map] at h
  split at h
  case isTrue =>
    obtain ⟨p, hread, rfl⟩ := exists_of_map_eq_ok h
    exact (Point.exact _ p).mp hread
  split at h
  case isTrue =>
    obtain ⟨l, hread, rfl⟩ := exists_of_map_eq_ok h
    exact (Line.exact _ l).mp hread
  split at h
  case isTrue =>
    obtain ⟨p, hread, rfl⟩ := exists_of_map_eq_ok h
    exact (Polygon.exact _ p).mp hread
  split at h
  case isTrue htag =>
    subst htag
    obtain ⟨points, hread, rfl⟩ := exists_of_map_eq_ok h
    exact (Point.exact.members (by decide) _ points).mp hread
  split at h
  case isTrue htag =>
    subst htag
    obtain ⟨lines, hread, rfl⟩ := exists_of_map_eq_ok h
    exact (Line.exact.members (by decide) _ lines).mp hread
  split at h
  case isTrue htag =>
    subst htag
    obtain ⟨polygons, hread, rfl⟩ := exists_of_map_eq_ok h
    exact (Polygon.exact.members (by decide) _ polygons).mp hread
  case isFalse => cases h

/-- What is written is read, one case for each kind. -/
theorem ofSimple_of_widen (htag : tag ≠ Tag.collection)
    (h : (Value.tagged tag content).widen = g.toValue) :
    ofSimple tag (.tagged tag content) = .ok g := by
  obtain rfl := tag_eq_of_widen h
  unfold ofSimple
  simp only [return_mapM_eq_map]
  cases g with
  | point p =>
    have hread := (Point.exact _ p).mpr h
    exact congrArg (Except.map point) hread
  | line l =>
    have hread := (Line.exact _ l).mpr h
    exact congrArg (Except.map line) hread
  | polygon p =>
    have hread := (Polygon.exact _ p).mpr h
    exact congrArg (Except.map polygon) hread
  | multiPoint points =>
    have hread := (Point.exact.members (by decide) _ points).mpr h
    exact congrArg (Except.map multiPoint) hread
  | multiLine lines =>
    have hread := (Line.exact.members (by decide) _ lines).mpr h
    exact congrArg (Except.map multiLine) hread
  | multiPolygon polygons =>
    have hread := (Polygon.exact.members (by decide) _ polygons).mpr h
    exact congrArg (Except.map multiPolygon) hread
  | collection => exact absurd rfl htag

end Kinds

mutual

theorem ofValue_eq_ok_iff (value : Value) (g : Geometry) :
    ofValue value = .ok g ↔ value.widen = g.toValue := by
  obtain ⟨written, hwritten⟩ := g.exists_toValue_eq
  cases value with
  | tagged tag content =>
    by_cases htag : tag = Tag.collection
    case neg =>
      rw [ofValue, if_neg htag]
      exact ⟨widen_of_ofSimple, ofSimple_of_widen htag⟩
    subst htag
    rw [ofValue, if_pos rfl]
    constructor
    · intro hcollection
      obtain ⟨members, hread, rfl⟩ := exists_of_map_eq_ok hcollection
      cases content with
      | array items =>
        rw [Value.widen, toValue, if_neg (by decide), (ofValues_eq_ok_iff items members).mp hread]
      | _ => cases hread
    · intro hwidened
      have htag := tag_eq_of_widen hwidened
      cases g with
      | collection members =>
        obtain ⟨items, hitems, hmembers⟩ := Value.widen_eq_tagged_iff.mp hwidened
        cases hitems
        have hread := (ofValues_eq_ok_iff items members).mpr hmembers
        exact congrArg (Except.map collection) hread
      | _ =>
        rw [Geometry.tag] at htag
        exact absurd htag (by decide)
  | _ =>
    rw [hwritten]
    constructor <;> intro h <;> cases h

theorem ofValues_eq_ok_iff (items : List Value) (members : List Geometry) :
    ofValues items = .ok members ↔ Value.widenMembers items = toValues members := by
  cases items with
  | nil => cases members <;> simp [ofValues, Value.widenMembers, toValues]
  | cons item items =>
    rw [ofValues, Value.widenMembers]
    constructor
    · intro hread
      obtain ⟨member, hitem, hread⟩ := exists_of_bind_eq_ok hread
      obtain ⟨others, hitems, hread⟩ := exists_of_bind_eq_ok hread
      cases hread
      rw [(ofValue_eq_ok_iff item member).mp hitem, (ofValues_eq_ok_iff items others).mp hitems,
        toValues]
    · intro hwidened
      cases members with
      | nil => cases hwidened
      | cons member others =>
        rw [toValues, List.cons.injEq] at hwidened
        rw [(ofValue_eq_ok_iff item member).mpr hwidened.1,
          (ofValues_eq_ok_iff items others).mpr hwidened.2]
        rfl

end

/-! ### Writing and reading back -/

end Geometry

section Written

variable {α : Type} {write : α → Value} (h : ∀ a, (write a).widen = write a)

include h

theorem Value.widenMembers_map (as : List α) :
    Value.widenMembers (as.map write) = as.map write := by
  induction as with
  | nil => rfl
  | cons a as ih => rw [List.map_cons, widenMembers, h, ih]

theorem Value.widen_members {tag : UInt64} (htag : tag ≠ Tag.point) (as : List α) :
    (Value.tagged tag (.array (as.map write))).widen = .tagged tag (.array (as.map write)) := by
  rw [widen, if_neg htag, Value.widenMembers_map h]

end Written

theorem Point.widen_toValue (p : Point) : p.toValue.widen = p.toValue := by
  rw [toValue, Value.widen, if_pos rfl]
  rfl

theorem Line.widen_toValue : ∀ line : Line, (Line.toValue line).widen = Line.toValue line :=
  Value.widen_members Point.widen_toValue (by decide)

theorem Polygon.widen_toValue :
    ∀ polygon : Polygon, (Polygon.toValue polygon).widen = Polygon.toValue polygon :=
  Value.widen_members Line.widen_toValue (by decide)

namespace Geometry

mutual

/-- A geometry is written without integers. -/
theorem widen_toValue (g : Geometry) : g.toValue.widen = g.toValue := by
  cases g with
  | point p => exact p.widen_toValue
  | line l => exact Line.widen_toValue l
  | polygon p => exact Polygon.widen_toValue p
  | multiPoint points => exact Value.widen_members Point.widen_toValue (by decide) points
  | multiLine lines => exact Value.widen_members Line.widen_toValue (by decide) lines
  | multiPolygon polygons => exact Value.widen_members Polygon.widen_toValue (by decide) polygons
  | collection members =>
    rw [toValue, Value.widen, if_neg (by decide), widenMembers_toValues members]

theorem widenMembers_toValues (members : List Geometry) :
    Value.widenMembers (toValues members) = toValues members := by
  cases members with
  | nil => rfl
  | cons member members =>
    rw [toValues, Value.widenMembers, widen_toValue member, widenMembers_toValues members]

end

/-- Every geometry is read back from the value that it is written as. A value is read as a geometry
if and only if the geometry is written as that value with doubles for the integers among its
coordinates; where there is no such geometry, the value is refused. -/
theorem conversion_exact :
    (∀ g, ofValue g.toValue = .ok g) ∧
    (∀ value g, ofValue value = .ok g ↔ g.toValue = value.widen) ∧
    ∀ value, (∀ g : Geometry, g.toValue ≠ value.widen) → ∃ e, ofValue value = .error e := by
  have hexact (value g) : ofValue value = .ok g ↔ g.toValue = value.widen := by
    rw [ofValue_eq_ok_iff, eq_comm]
  refine ⟨fun g ↦ (hexact _ g).mpr g.widen_toValue.symm, hexact, fun value hother ↦ ?_⟩
  cases hread : ofValue value with
  | error e => exact ⟨e, rfl⟩
  | ok g => exact absurd ((hexact value g).mp hread) (hother g)

/-- Integers in a nested collection are read as doubles, and a point with a third coordinate is
refused. -/
theorem conversion_exact_nested :
    ofValue (.tagged Tag.collection (.array [.tagged Tag.collection (.array []),
        .tagged Tag.point (.array [.integer 2, .float ⟨0x3FE0000000000000⟩])])) =
      .ok (collection [collection [], point ⟨.ofInt 2, ⟨0x3FE0000000000000⟩⟩]) ∧
    ∃ e, ofValue (.tagged Tag.point (.array [.integer 2, .integer 0, .integer 1])) = .error e := by
  refine ⟨(conversion_exact.2.1 _ _).mpr rfl, conversion_exact.2.2 _ fun g hwritten ↦ ?_⟩
  have htag : g.tag = Tag.point := tag_eq_of_widen hwritten.symm
  cases g with
  | point p => simp [Geometry.toValue, Point.toValue, Value.widen] at hwritten
  | _ =>
    rw [Geometry.tag] at htag
    exact absurd htag (by decide)

end Geometry

end Wireline
