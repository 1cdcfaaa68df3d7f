import MockGraph.Operation.Basic
import MockGraph.Operation.Rules
import MockGraph.Syntax.Parser
import MockGraph.Syntax.Value
set_option autoImplicit false

namespace MockGraph

open Syntax

/-- Applies `change` to the first field with a key, or adds `field` at the end. -/
def placeField (key : String) (change : FieldSelection → FieldSelection) (field : FieldSelection) :
    List FieldSelection → List FieldSelection
  | [] => [field]
  | first :: rest =>
    if first.responseKey = key then change first :: rest
    else first :: placeField key change field rest

mutual

/-- Adds a field to a selection. Where its key is taken, only its sub-selection is added. -/
def mergeField : FieldSelection → List FieldSelection → List FieldSelection
  | ⟨name, aliasName, arguments, selection⟩, merged =>
    placeField (aliasName.getD name)
      (fun first => { first with selection := mergeFields selection first.selection })
      ⟨name, aliasName, arguments, selection⟩ merged

def mergeFields : List FieldSelection → List FieldSelection → List FieldSelection
  | [], merged => merged
  | field :: fields, merged => mergeFields fields (mergeField field merged)

end

/-- The value of the condition of a directive, if there is one and it is a boolean. -/
def conditionOf? (bindings : Ordered String Json) (directives : List Directive) (name : String) :
    Option Bool := do
  let directive ← directives.find? (·.name == name)
  let literal ← directive.arguments.lookup "if"
  let value ← literal.value? bindings
  value.asBool?

/-- `@skip` drops what it stands on if its condition is true, `@include` if its condition is
false. -/
def included (bindings : Ordered String Json) (directives : List Directive) : Bool :=
  conditionOf? bindings directives "skip" != some true &&
    conditionOf? bindings directives "include" != some false

/-- The given arguments in the order of the document, without those whose variable has no value. -/
def givenArguments (bindings : Ordered String Json) (arguments : List (String × Literal)) :
    Ordered String Json :=
  arguments.foldl (fun given argument =>
    match argument.2.value? bindings with
    | some value => Ordered.insert given argument.1 value
    | none => given) []

/-- Adds the defaults of arguments that are not given, in the order of the schema. -/
def withDefaults (definitions : Ordered String InputDef) (given : Ordered String Json) :
    Ordered String Json :=
  definitions.foldl (fun given definition =>
    if Ordered.contains given definition.1 then given
    else
      match definition.2.default with
      | some value => Ordered.insert given definition.1 value
      | none => given) given

/-- The fields of a selection on a type, with fragments in their places and before fields are
merged. A fragment is not looked for inside itself. -/
def lowerSelection (schema : TypeSystem) (bindings : Ordered String Json)
    (fragments : List FragmentDefinition) (parent : String) : List Selection → List FieldSelection
  | [] => []
  | .field responseName name arguments directives selection :: rest =>
    let others := lowerSelection schema bindings fragments parent rest
    if included bindings directives then
      let definition := schema.selectable? parent name
      let fieldType := (definition.map (·.type.namedType)).getD ""
      let inputs := (definition.map (·.arguments)).getD []
      ⟨name, responseName, withDefaults inputs (givenArguments bindings arguments),
        mergeFields (lowerSelection schema bindings fragments fieldType selection) []⟩ :: others
    else others
  | .inline condition directives selection :: rest =>
    let others := lowerSelection schema bindings fragments parent rest
    if included bindings directives then
      lowerSelection schema bindings fragments (condition.getD parent) selection ++ others
    else others
  | .spread name directives :: rest =>
    let others := lowerSelection schema bindings fragments parent rest
    if included bindings directives then
      (match _found : fragments.find? (·.name == name) with
        | none => []
        | some fragment =>
          lowerSelection schema bindings (withoutFragment fragments name) fragment.condition
            fragment.selection) ++
        others
    else others
termination_by selection => (fragments.length, sizeOf selection)
decreasing_by
  all_goals first
    | (apply Prod.Lex.right; simp only [List.cons.sizeOf_spec, Selection.field.sizeOf_spec,
        Selection.inline.sizeOf_spec, Selection.spread.sizeOf_spec]; omega)
    | exact Prod.Lex.left _ _ (length_withoutFragment_lt (by assumption))

/-- The values of variables: those provided, with defaults for absent ones at the end. A variable
that may not be null has to have a value other than `null`. -/
def coerceVariables : List VariableDefinition → Ordered String Json →
    Except ValidationError (Ordered String Json)
  | [], provided => .ok provided
  | declared :: rest, provided =>
    let missing : Except ValidationError (Ordered String Json) :=
      if declared.type.isNonNull then .error (.missingVariable declared.name)
      else coerceVariables rest provided
    match Ordered.get? provided declared.name with
    | some .null => missing
    | some _ => coerceVariables rest provided
    | none =>
      match declared.default with
      | some value => coerceVariables rest (Ordered.insert provided declared.name value.constant)
      | none => missing

namespace Syntax.Document

/-- The operation with a name, or the only one. -/
def operation? (document : Document) (name : Option String) :
    Except ValidationError OperationDefinition :=
  match name with
  | some name =>
    match document.operations.find? (·.name == some name) with
    | some operation => .ok operation
    | none => .error (.unknownOperation name)
  | none =>
    match document.operations with
    | [operation] => .ok operation
    | _ => .error .ambiguousOperation

end Syntax.Document

namespace TypeSystem

/-- An operation of a sound document, with the values that its variables got. -/
def lowerOperation (schema : TypeSystem) (document : Document) (definition : OperationDefinition)
    (bindings : Ordered String Json) : Operation where
  kind := definition.kind
  name := definition.name
  selection :=
    mergeFields (lowerSelection schema bindings document.fragments
      ((schema.root? definition.kind).getD "") definition.selection) []
  bindings := bindings

/-- Reads the operation of a text that is to run. -/
def parseOperation (schema : TypeSystem) (text : String) (name : Option String)
    (provided : Option (Ordered String Json)) : Except ValidationError Operation :=
  match Document.parse? text with
  | none => .error .invalidDocument
  | some document =>
    if schema.documentSound document then
      match document.operation? name with
      | .error error => .error error
      | .ok definition =>
        (coerceVariables definition.variableDefs (provided.getD [])).map fun bindings =>
          schema.lowerOperation document definition bindings
    else .error .invalidDocument

/-- The operation of a sound document that is asked for is lowered with the values that its
variables get. -/
theorem parseOperation_of_sound {schema : TypeSystem} {text : String} {name : Option String}
    {provided : Option (Ordered String Json)} {document : Document}
    {definition : OperationDefinition} {bindings : Ordered String Json}
    (read : Document.parse? text = some document) (sound : schema.documentSound document = true)
    (found : document.operation? name = .ok definition)
    (coerced : coerceVariables definition.variableDefs (provided.getD []) = .ok bindings) :
    schema.parseOperation text name provided =
      .ok (schema.lowerOperation document definition bindings) := by
  rw [parseOperation, read]
  dsimp only
  rw [if_pos sound, found]
  dsimp only
  rw [coerced]
  rfl

end TypeSystem

end MockGraph
