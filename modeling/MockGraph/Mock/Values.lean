import MockGraph.Mock.Rules
set_option autoImplicit false

namespace MockGraph

/-- The rules of a server, and the size of lists that no rule speaks of. -/
structure Mocks where
  rules : MockRules
  listSize : ListSize
deriving Inhabited

namespace Mocks

/-- The value that a rule gives to the field at a position. -/
def fieldValue? (mocks : Mocks) (position : Position) : Option (Except ResolutionError Json) :=
  match position.target? with
  | none => none
  | some (parent, field) =>
    match mocks.rules.ruleForField? parent field with
    | some (.value produce) => some (produce position)
    | _ => none

/-- The value that a rule gives to all values of a type. -/
def typeValue? (mocks : Mocks) (position : Position) (type : String) :
    Option (Except ResolutionError Json) :=
  match mocks.rules.ruleForType? type with
  | some (.value produce) => some (produce position)
  | _ => none

/-- The size that a rule gives to the list of a field. -/
def fieldSize? (mocks : Mocks) (position : Position) : Option ListSize :=
  match position.target? with
  | none => none
  | some (parent, field) =>
    match mocks.rules.ruleForField? parent field with
    | some (.listSize range) => some range
    | _ => none

/-- The size that a rule gives to lists of a type. -/
def typeSize? (mocks : Mocks) (type : String) : Option ListSize :=
  match mocks.rules.ruleForType? type with
  | some (.listSize range) => some range
  | _ => none

/-- The size of lists of a type at a position: the field's rule counts first, then the type's. -/
def sizeOf (mocks : Mocks) (position : Position) (type : String) : ListSize :=
  ((mocks.fieldSize? position).orElse fun _ => mocks.typeSize? type).getD mocks.listSize

def drawLength (mocks : Mocks) (position : Position) (type : String) (random : Random) :
    Nat × Random :=
  let range := mocks.sizeOf position type
  random.between .w64 range.min range.max

/-- Draws a scalar or one of an enum's values, unless the type has a value of its own. -/
def drawLeaf (mocks : Mocks) (position : Position) (type : TypeDef) (random : Random) :
    Except ResolutionError Json × Random :=
  match mocks.typeValue? position type.name with
  | some value => (value, random)
  | none =>
    match type with
    | .scalar name _ =>
      match Ordered.get? mocks.rules.formatters name with
      | none => (.error (.noGenerator name), random)
      | some formatter =>
        let (value, random) := formatter random
        (.ok value, random)
    | .enum name _ [] => (.error (.internal (.emptyEnum name)), random)
    | .enum _ _ (first :: rest) =>
      let (index, random) := random.below .w32 (rest.length + 1)
      (.ok (.string ((first :: rest)[index]?.getD first)), random)
    | .object name _ _ => (.error (.internal (.notALeaf name)), random)
    | .input name _ _ => (.error (.internal (.inputType name)), random)

/-- The members that the value of a type gives to an object. -/
def objectSeed? (mocks : Mocks) (position : Position) (type : String) :
    Option (Except ResolutionError (Ordered String Json)) :=
  (mocks.typeValue? position type).map fun value =>
    match value with
    | .error error => .error error
    | .ok (.object members) => .ok members
    | .ok other => .error (.unexpected type other)

end Mocks

end MockGraph
