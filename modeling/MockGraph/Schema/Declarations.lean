import MockGraph.Ordered
import MockGraph.Schema.Introspection
set_option autoImplicit false

namespace MockGraph

open Syntax

/-- All that a schema text declares, with the built-in scalars first. -/
structure Declarations where
  roots : List (OperationKind × String)
  /-- The directives on the schema itself. -/
  schemaDirectives : List Directive
  types : Ordered String TypeDefinition
  directives : List DirectiveDefinition
deriving Inhabited

namespace Declarations

/-- Adds the parts of an extension to a type of the same kind. -/
def extendBody? : TypeBody → TypeBody → Option TypeBody
  | .scalar, .scalar => some .scalar
  | .enum values, .enum more => some (.enum (values ++ more))
  | .object interfaces fields, .object moreInterfaces moreFields =>
    some (.object (interfaces ++ moreInterfaces) (fields ++ moreFields))
  | .interface interfaces fields, .interface moreInterfaces moreFields =>
    some (.interface (interfaces ++ moreInterfaces) (fields ++ moreFields))
  | .union members, .union more => some (.union (members ++ more))
  | .input fields, .input more => some (.input (fields ++ more))
  | _, _ => none

/-- An extension needs a declaration of its kind, before or after it. -/
def extend? (types : Ordered String TypeDefinition) (extension : TypeDefinition) :
    Option (Ordered String TypeDefinition) := do
  let declared ← Ordered.get? types extension.name
  let body ← extendBody? declared.body extension.body
  return Ordered.insert types extension.name
    { declared with directives := declared.directives ++ extension.directives, body }

/-- Declares a type under a name that is still free. -/
def declare? (types : Ordered String TypeDefinition) (definition : TypeDefinition) :
    Option (Ordered String TypeDefinition) :=
  if Ordered.contains types definition.name then none
  else some (Ordered.insert types definition.name definition)

def builtInTypes : Ordered String TypeDefinition :=
  builtInScalars.map fun name => (name, ⟨name, none, [], .scalar⟩)

/-- Without a schema block, object types with the usual names are the roots. -/
def usualRoots (types : Ordered String TypeDefinition) : List (OperationKind × String) :=
  [(OperationKind.query, "Query"), (.mutation, "Mutation"), (.subscription, "Subscription")].filter
    fun root =>
    match Ordered.get? types root.2 with
    | some definition => match definition.body with
      | .object _ _ => true
      | _ => false
    | none => false

/-- Puts the parts together, unless two of them declare the same or one extends what is not
there. -/
def ofParts? (parts : List SchemaPart) : Option Declarations := do
  let definitions := parts.filterMap fun part => match part with
    | .type definition => some definition
    | _ => none
  let extensions := parts.filterMap fun part => match part with
    | .typeExtension definition => some definition
    | _ => none
  let blocks := parts.filterMap fun part => match part with
    | .schema block => some block
    | _ => none
  let blockExtensions := parts.filterMap fun part => match part with
    | .schemaExtension block => some block
    | _ => none
  let directives := parts.filterMap fun part => match part with
    | .directive definition => some definition
    | _ => none
  let types ← definitions.foldlM declare? builtInTypes
  let types ← extensions.foldlM extend? types
  let (roots, schemaDirectives) ← match blocks with
    | [] =>
      let roots := usualRoots types
      if roots.isEmpty then none else some (roots, [])
    | [block] => some (block.roots, block.directives)
    | _ => none
  return ⟨roots ++ blockExtensions.flatMap (·.roots),
    schemaDirectives ++ blockExtensions.flatMap (·.directives), types, directives⟩

/-- The kinds of types that rules tell apart. -/
inductive TypeKind where
  | scalar | enum | object | interface | union | input
deriving DecidableEq, Repr

def kindOf : TypeBody → TypeKind
  | .scalar => .scalar
  | .enum _ => .enum
  | .object _ _ => .object
  | .interface _ _ => .interface
  | .union _ => .union
  | .input _ => .input

/-- The kind of a declared type or of one that describes schemas. -/
def kind? (declarations : Declarations) (name : String) : Option TypeKind :=
  match Ordered.get? declarations.types name with
  | some definition => some (kindOf definition.body)
  | none =>
    match Ordered.get? Introspection.types name with
    | some (.object _ _ _) => some .object
    | some (.enum _ _ _) => some .enum
    | _ => none

/-- The fields that a type or interface declares. -/
def fieldsOf (declarations : Declarations) (name : String) : List FieldDefinition :=
  match Ordered.get? declarations.types name with
  | some ⟨_, _, _, .object _ fields⟩ => fields
  | some ⟨_, _, _, .interface _ fields⟩ => fields
  | _ => []

/-- The interfaces that a type or interface says it implements. -/
def interfacesOf (declarations : Declarations) (name : String) : List String :=
  match Ordered.get? declarations.types name with
  | some ⟨_, _, _, .object interfaces _⟩ => interfaces
  | some ⟨_, _, _, .interface interfaces _⟩ => interfaces
  | _ => []

end Declarations

end MockGraph
