import MockGraph.Operation.Basic
import MockGraph.Schema.Basic
set_option autoImplicit false

namespace MockGraph.TypeSystem

/-- Arguments that the field does not have. -/
def unknownArguments (parent : String) (field : FieldSelection) (definition : FieldDef) :
    List ValidationError :=
  (Ordered.keys field.arguments).filterMap fun name =>
    if Ordered.contains definition.arguments name then none
    else some (.unknownArgument parent field.name name)

/-- Arguments that have to be given, and are absent or null. -/
def missingArguments (parent : String) (field : FieldSelection) (definition : FieldDef) :
    List ValidationError :=
  definition.arguments.filterMap fun (name, input) =>
    let given := match Ordered.get? field.arguments name with
      | some value => !value.isNull
      | none => false
    if input.isRequired && !given then some (.missingArgument parent field.name name) else none

mutual

/-- All that is wrong with a selected field of a type. -/
def fieldErrors (schema : TypeSystem) : String → FieldSelection → List ValidationError
  | parent, ⟨name, aliasName, arguments, selection⟩ =>
    let field : FieldSelection := ⟨name, aliasName, arguments, selection⟩
    if name = "__typename" then
      if selection.isEmpty then [] else [.leafSelection name "String!"]
    else
      match schema.field parent name with
      | .error _ => [.unknownField parent name]
      | .ok definition =>
        unknownArguments parent field definition ++ missingArguments parent field definition ++
          match schema.resolve definition.type.namedType with
          | .ok (.object object _ _) =>
            if selection.isEmpty then [.missingSelection name definition.type.text]
            else schema.selectionErrors object selection
          | .ok _ => if selection.isEmpty then [] else [.leafSelection name definition.type.text]
          | .error _ => []

/-- All that is wrong with a selection on a type, in the order of the selection. -/
def selectionErrors (schema : TypeSystem) : String → List FieldSelection → List ValidationError
  | _, [] => []
  | parent, field :: rest => schema.fieldErrors parent field ++ schema.selectionErrors parent rest

end

/-- A field with nothing wrong is one that the type has, or the name of the type. -/
theorem field_of_valid {schema : TypeSystem} {parent : String} {field : FieldSelection}
    (valid : schema.fieldErrors parent field = []) (named : field.name ≠ "__typename") :
    ∃ definition, schema.field parent field.name = .ok definition := by
  obtain ⟨name, aliasName, arguments, selection⟩ := field
  cases declared : schema.field parent name with
  | ok definition => exact ⟨definition, rfl⟩
  | error error => simp [fieldErrors, named, declared] at valid

/-- What is selected on an object below a field with nothing wrong has nothing wrong. -/
theorem selection_of_valid {schema : TypeSystem} {parent : String} {field : FieldSelection}
    {definition : FieldDef} (valid : schema.fieldErrors parent field = [])
    (named : field.name ≠ "__typename") (declared : schema.field parent field.name = .ok definition)
    {object : String} {description : Option String} {members : Ordered String FieldDef}
    (resolved : schema.resolve definition.type.namedType =
      .ok (.object object description members)) :
    schema.selectionErrors object field.selection = [] := by
  obtain ⟨name, aliasName, arguments, selection⟩ := field
  simp only [fieldErrors, if_neg named, declared, resolved, List.append_eq_nil_iff] at valid
  split at valid
  · cases valid.2
  · exact valid.2

/-- Each field of a selection with nothing wrong has nothing wrong. -/
theorem fieldErrors_of_mem {schema : TypeSystem} {parent : String} {selection : List FieldSelection}
    (valid : schema.selectionErrors parent selection = []) {field : FieldSelection}
    (member : field ∈ selection) : schema.fieldErrors parent field = [] := by
  induction selection with
  | nil => cases member
  | cons first rest ih =>
    obtain ⟨now, later⟩ := List.append_eq_nil_iff.mp valid
    rcases List.mem_cons.mp member with rfl | inside
    · exact now
    · exact ih later inside

end MockGraph.TypeSystem
