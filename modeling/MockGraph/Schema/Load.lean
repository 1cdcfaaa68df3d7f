import MockGraph.Schema.Rules
import MockGraph.Syntax.Parser
set_option autoImplicit false

namespace MockGraph

open Syntax

namespace Declarations

def inputDef (input : InputDefinition) : String × InputDef :=
  (input.name, ⟨input.name, input.description, input.type, input.default.map Literal.constant⟩)

def fieldDef (field : FieldDefinition) : String × FieldDef :=
  (field.name, ⟨field.name, field.description, field.type, field.arguments.map inputDef⟩)

/-- Interfaces and unions have no definition here. -/
def typeDef? (definition : TypeDefinition) : Option TypeDef :=
  match definition.body with
  | .scalar => some (.scalar definition.name definition.description)
  | .enum values => some (.enum definition.name definition.description (values.map (·.name)))
  | .object _ fields => some (.object definition.name definition.description (fields.map fieldDef))
  | .input fields => some (.input definition.name definition.description (fields.map inputDef))
  | .interface _ _ | .union _ => none

def directiveDef (definition : DirectiveDefinition) : DirectiveDef :=
  ⟨definition.name, definition.arguments.map inputDef, definition.repeatable, definition.locations⟩

/-- Own directives take the place of built-in ones with their name. -/
def directiveTable (declarations : Declarations) : Ordered String DirectiveDef :=
  declarations.directives.foldl
    (fun table definition => Ordered.insert table definition.name (directiveDef definition))
    Introspection.directives

def namesOfInputs (inputs : List InputDefinition) : List String := inputs.map (·.type.namedType)

def namesOfFields (fields : List FieldDefinition) : List String :=
  fields.flatMap fun field => field.type.namedType :: namesOfInputs field.arguments

/-- The types that fields, arguments and input fields refer to. -/
def referenced (declarations : Declarations) : List String :=
  (declarations.directives.flatMap fun directive => namesOfInputs directive.arguments) ++
    declarations.types.flatMap fun entry =>
      match entry.2.body with
      | .object _ fields | .interface _ fields => namesOfFields fields
      | .input fields => namesOfInputs fields
      | _ => []

/-- Texts and flags describe every schema; the other built-in scalars are there if something refers
to them. -/
def isPresent (references : List String) (name : String) : Bool :=
  !builtInScalars.contains name || name == "String" || name == "Boolean" || references.contains name

def rootOf? (declarations : Declarations) (kind : OperationKind) : Option String :=
  (declarations.roots.find? (·.1 == kind)).map (·.2)

/-- The type system that the declarations describe, apart from interfaces and unions. -/
def typeSystem (declarations : Declarations) : TypeSystem where
  query := (declarations.rootOf? .query).getD ""
  mutation := declarations.rootOf? .mutation
  subscription := declarations.rootOf? .subscription
  types :=
    let references := declarations.referenced
    declarations.types.filterMap fun entry =>
      if isPresent references entry.1 then (typeDef? entry.2).map fun type => (entry.1, type)
      else none
  directives := declarations.directiveTable

/-- The first type of a kind that operations cannot use. -/
def unsupported? (declarations : Declarations) : Option SchemaError :=
  declarations.types.findSome? fun entry =>
    match entry.2.body with
    | .interface _ _ => some (.unsupportedInterface entry.1)
    | .union _ => some (.unsupportedUnion entry.1)
    | _ => none

end Declarations

namespace TypeSystem

def namesIn (type : TypeDef) : List String :=
  match type with
  | .object _ _ fields =>
    fields.flatMap fun field =>
      field.2.type.namedType :: field.2.arguments.map fun argument => argument.2.type.namedType
  | .input _ _ fields => fields.map fun field => field.2.type.namedType
  | _ => []

/-- Every reference leads to a type of this schema, and every root to an object. -/
def checkReferences (schema : TypeSystem) : Except SchemaError Unit := do
  (schema.types.flatMap fun entry => namesIn entry.2).forM fun name =>
    (schema.resolve name).map fun _ => ()
  (schema.mutation.toList ++ schema.subscription.toList ++ [schema.query]).forM fun root =>
    (schema.fieldsOf root).map fun _ => ()

def parse (text : String) : Except SchemaError TypeSystem :=
  match parseSchema? text >>= Declarations.ofParts? with
  | none => .error .invalid
  | some declarations =>
    let schema := declarations.typeSystem
    if declarations.isSound &&
        declarations.applications.all fun (location, directives) =>
          schema.directivesAllowed location [] directives then
      match declarations.unsupported? with
      | some error => .error error
      | none => schema.checkReferences.map fun _ => schema
    else .error .invalid

end TypeSystem

end MockGraph
