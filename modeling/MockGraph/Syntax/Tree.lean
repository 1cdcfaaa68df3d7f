import MockGraph.Schema.TypeRef
set_option autoImplicit false

namespace MockGraph

inductive OperationKind where
  | query
  | mutation
  | subscription
deriving DecidableEq, Inhabited, Repr

def OperationKind.text : OperationKind → String
  | query => "query"
  | mutation => "mutation"
  | subscription => "subscription"

namespace Syntax

/-- A value as it is written. Numbers keep their text. -/
inductive Literal where
  | null
  | bool (value : Bool)
  | int (text : String)
  | float (text : String)
  | string (value : String)
  | enum (name : String)
  | variable (name : String)
  | list (items : List Literal)
  | object (fields : List (String × Literal))
deriving Inhabited, Repr

structure Directive where
  name : String
  arguments : List (String × Literal)
deriving Inhabited, Repr

inductive Selection where
  | field (responseName : Option String) (name : String) (arguments : List (String × Literal))
      (directives : List Directive) (selection : List Selection)
  | spread (fragment : String) (directives : List Directive)
  | inline (condition : Option String) (directives : List Directive) (selection : List Selection)
deriving Inhabited, Repr

structure VariableDefinition where
  name : String
  type : TypeRef
  default : Option Literal
  directives : List Directive
deriving Inhabited, Repr

structure OperationDefinition where
  kind : OperationKind
  name : Option String
  variableDefs : List VariableDefinition
  directives : List Directive
  selection : List Selection
deriving Inhabited, Repr

structure FragmentDefinition where
  name : String
  condition : String
  directives : List Directive
  selection : List Selection
deriving Inhabited, Repr

/-- The operations and fragments of a text, in its order. -/
structure Document where
  operations : List OperationDefinition
  fragments : List FragmentDefinition
deriving Inhabited, Repr

/-- An argument of a field or directive, or a field of an input type. -/
structure InputDefinition where
  name : String
  description : Option String
  type : TypeRef
  default : Option Literal
  directives : List Directive
deriving Inhabited, Repr

structure FieldDefinition where
  name : String
  description : Option String
  arguments : List InputDefinition
  type : TypeRef
  directives : List Directive
deriving Inhabited, Repr

structure EnumValueDefinition where
  name : String
  directives : List Directive
deriving Inhabited, Repr

inductive TypeBody where
  | scalar
  | enum (values : List EnumValueDefinition)
  | object (interfaces : List String) (fields : List FieldDefinition)
  | interface (interfaces : List String) (fields : List FieldDefinition)
  | union (members : List String)
  | input (fields : List InputDefinition)
deriving Inhabited, Repr

structure TypeDefinition where
  name : String
  description : Option String
  directives : List Directive
  body : TypeBody
deriving Inhabited, Repr

/-- The places where a directive may stand. -/
inductive DirectiveLocation where
  | query | mutation | subscription | field | fragmentDefinition | fragmentSpread | inlineFragment
  | variableDefinition | schema | scalar | object | fieldDefinition | argumentDefinition | interface
  | union | enum | enumValue | inputObject | inputFieldDefinition
deriving DecidableEq, Inhabited, Repr

structure DirectiveDefinition where
  name : String
  arguments : List InputDefinition
  repeatable : Bool
  locations : List DirectiveLocation
deriving Inhabited, Repr

structure SchemaBlock where
  directives : List Directive
  roots : List (OperationKind × String)
deriving Inhabited, Repr

inductive SchemaPart where
  | schema (block : SchemaBlock)
  | schemaExtension (block : SchemaBlock)
  | type (definition : TypeDefinition)
  | typeExtension (definition : TypeDefinition)
  | directive (definition : DirectiveDefinition)
deriving Inhabited, Repr

end Syntax

end MockGraph
