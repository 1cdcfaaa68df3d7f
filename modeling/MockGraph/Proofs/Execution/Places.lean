import Mathlib.Data.Nat.Find
import MockGraph.Execution.Run
set_option autoImplicit false

namespace MockGraph

namespace Json

/-- The part of a value that a path leads to. -/
def at? : Json → List PathSegment → Option Json
  | value, [] => some value
  | value, .field name :: rest => (value.member? name).bind fun inner => inner.at? rest
  | value, .index position :: rest =>
    (value.asArray?.bind fun items => items[position]?).bind fun inner => inner.at? rest

@[simp] theorem at?_nil (value : Json) : value.at? [] = some value := by
  unfold at?
  rfl

theorem eq_nil_of_null_at? {path : List PathSegment} {value : Json}
    (found : Json.null.at? path = some value) : path = [] := by
  cases path with
  | nil => rfl
  | cons segment rest => cases segment <;> simp [at?, member?, asObject?, asArray?] at found

theorem eq_nil_of_string_at? {text : String} {path : List PathSegment} {value : Json}
    (found : (Json.string text).at? path = some value) : path = [] := by
  cases path with
  | nil => rfl
  | cons segment rest => cases segment <;> simp [at?, member?, asObject?, asArray?] at found

end Json

/-- A place for values: their type, and what is selected on objects in them. -/
structure Place where
  type : TypeRef
  selection : List FieldSelection

namespace Place

/-- The place of a selected field of an object type, by its response key. -/
def ofMember? (schema : TypeSystem) (parent : String) (selection : List FieldSelection)
    (key : String) : Option Place :=
  (selection.find? (·.responseKey = key)).bind fun field =>
    if field.name = "__typename" then some ⟨.nonNull (.named "String"), []⟩
    else
      (schema.field parent field.name).toOption.map fun definition =>
        ⟨definition.type, field.selection⟩

/-- The place one step below the values of a type. -/
def belowType? (schema : TypeSystem) (selection : List FieldSelection) :
    TypeRef → PathSegment → Option Place
  | .nonNull inner, segment => belowType? schema selection inner segment
  | .list item, .index _ => some ⟨item, selection⟩
  | .named name, .field key => ofMember? schema name selection key
  | _, _ => none

def at? (schema : TypeSystem) : Place → List PathSegment → Option Place
  | place, [] => some place
  | place, segment :: rest =>
    (belowType? schema place.selection place.type segment).bind fun inner => inner.at? schema rest

/-- A path leads to a place that may be null. -/
def isNullableAt (schema : TypeSystem) (place : Place) (path : List PathSegment) : Bool :=
  (place.at? schema path).any fun target => !target.type.isNonNull

variable {schema : TypeSystem}

@[simp] theorem isNullableAt_nil (place : Place) :
    place.isNullableAt schema [] = !place.type.isNonNull := by
  unfold isNullableAt at?
  rfl

theorem isNullableAt_cons_of_some {place inner : Place} {segment : PathSegment}
    {rest : List PathSegment}
    (below : belowType? schema place.selection place.type segment = some inner) :
    place.isNullableAt schema (segment :: rest) = inner.isNullableAt schema rest := by
  simp only [isNullableAt, at?, below, Option.bind_some]

theorem isNullableAt_cons_of_none {place : Place} {segment : PathSegment} {rest : List PathSegment}
    (below : belowType? schema place.selection place.type segment = none) :
    place.isNullableAt schema (segment :: rest) = false := by
  simp only [isNullableAt, at?, below, Option.bind_none, Option.any_none]

theorem isNullableAt_nonNull (type : TypeRef) (selection : List FieldSelection)
    {path : List PathSegment} (inside : path ≠ []) :
    isNullableAt schema ⟨.nonNull type, selection⟩ path =
      isNullableAt schema ⟨type, selection⟩ path := by
  cases path with
  | nil => exact absurd rfl inside
  | cons segment rest => simp only [isNullableAt, at?, belowType?]

/-- The longest beginning of a path that leads to a place that may be null, or the empty path. -/
def nearestNullable (schema : TypeSystem) (place : Place) (path : List PathSegment) :
    List PathSegment :=
  path.take
    (Nat.findGreatest (fun count => place.isNullableAt schema (path.take count)) path.length)

/-- A beginning of a path leads to a place that may be null, and no longer one does. -/
structure IsNearest (schema : TypeSystem) (place : Place) (path nearest : List PathSegment) :
    Prop where
  inside : nearest <+: path
  nullable : place.isNullableAt schema nearest = true
  longest : ∀ other, other <+: path → place.isNullableAt schema other = true →
      other.length ≤ nearest.length

theorem IsNearest.eq {place : Place} {path nearest : List PathSegment}
    (is : IsNearest schema place path nearest) : nearestNullable schema place path = nearest := by
  have same : path.take nearest.length = nearest := (List.prefix_iff_eq_take.mp is.inside).symm
  have count :
      Nat.findGreatest (fun count => place.isNullableAt schema (path.take count))
        path.length = nearest.length := by
    rw [Nat.findGreatest_eq_iff]
    refine ⟨is.inside.length_le, fun _ => by rw [same]; exact is.nullable, ?_⟩
    intro longer more bound nullable
    have shorter := is.longest _ (List.take_prefix longer path) nullable
    rw [List.length_take] at shorter
    omega
  rw [nearestNullable, count, same]

/-- Whatever else may be null on a path lies at or above the nearest place that may. -/
theorem prefix_nearestNullable {place : Place} {path other : List PathSegment}
    (inside : other <+: path) (nullable : place.isNullableAt schema other = true) :
    other <+: nearestNullable schema place path := by
  have same : path.take other.length = other := (List.prefix_iff_eq_take.mp inside).symm
  have bound : other.length ≤
      Nat.findGreatest (fun count => place.isNullableAt schema (path.take count)) path.length :=
    Nat.le_findGreatest inside.length_le (by rw [same]; exact nullable)
  rw [nearestNullable]
  conv => lhs; rw [← same]
  exact List.take_prefix_take_left bound

theorem IsNearest.cons {place inner : Place} {segment : PathSegment}
    {path nearest : List PathSegment}
    (below : belowType? schema place.selection place.type segment = some inner)
    (is : IsNearest schema inner path nearest) :
    IsNearest schema place (segment :: path) (segment :: nearest) := by
  refine ⟨(List.prefix_cons_inj segment).mpr is.inside, ?_, ?_⟩
  · rw [isNullableAt_cons_of_some below]
    exact is.nullable
  · intro other inside nullable
    cases other with
    | nil => simp
    | cons first rest =>
      obtain ⟨rfl, further⟩ := List.cons_prefix_cons.mp inside
      rw [isNullableAt_cons_of_some below] at nullable
      exact Nat.succ_le_succ (is.longest rest further nullable)

end Place

end MockGraph
