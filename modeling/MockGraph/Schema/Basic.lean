import MockGraph.Json.Basic
import MockGraph.Syntax.Tree
set_option autoImplicit false

namespace MockGraph

/-- An argument of a field, or a field of an input type. -/
structure InputDef where
  name : String
  description : Option String
  type : TypeRef
  default : Option Json
deriving DecidableEq, Inhabited, Repr

/-- An argument has to be given if it may not be null and has no default. -/
def InputDef.isRequired (input : InputDef) : Bool := input.type.isNonNull && input.default.isNone

structure FieldDef where
  name : String
  description : Option String
  type : TypeRef
  arguments : Ordered String InputDef
deriving DecidableEq, Inhabited, Repr

inductive TypeDef where
  | scalar (name : String) (description : Option String)
  | enum (name : String) (description : Option String) (values : List String)
  | object (name : String) (description : Option String) (fields : Ordered String FieldDef)
  | input (name : String) (description : Option String) (fields : Ordered String InputDef)
deriving DecidableEq, Inhabited, Repr

namespace TypeDef

def name : TypeDef → String
  | scalar name _ | enum name _ _ | object name _ _ | input name _ _ => name

def description : TypeDef → Option String
  | scalar _ description | enum _ description _ | object _ description _ | input _ description _ =>
    description

/-- Scalars and enums have no fields to select. -/
def isLeaf : TypeDef → Bool
  | scalar _ _ | enum _ _ _ => true
  | object _ _ _ | input _ _ _ => false

def isInput : TypeDef → Bool
  | object _ _ _ => false
  | _ => true

end TypeDef

/-- The scalars that every schema can use. -/
def builtInScalars : List String := ["Int", "Float", "String", "Boolean", "ID"]

structure DirectiveDef where
  name : String
  arguments : Ordered String InputDef
  repeatable : Bool
  locations : List Syntax.DirectiveLocation
deriving DecidableEq, Inhabited, Repr

structure TypeSystem where
  query : String
  mutation : Option String
  subscription : Option String
  types : Ordered String TypeDef
  directives : Ordered String DirectiveDef
deriving DecidableEq, Inhabited, Repr

/-- Why a schema or its mock rules cannot be used. -/
inductive SchemaError where
  | invalid
  | unknownType (name : String)
  | notAnObject (name : String)
  | unknownField (parent field : String)
  | unsupportedInterface (name : String)
  | unsupportedUnion (name : String)
  | unresolvableScalar (name : String)
  | invalidMockRule (target message : String)
deriving DecidableEq, Inhabited, Repr

def SchemaError.message : SchemaError → String
  | invalid => "schema is invalid"
  | unknownType name => "unknown type: " ++ name
  | notAnObject name => "type " ++ name ++ " is not an object type"
  | unknownField parent field => "unknown field " ++ field ++ " on type " ++ parent
  | unsupportedInterface name => "interface type " ++ name ++ " is not supported"
  | unsupportedUnion name => "union type " ++ name ++ " is not supported"
  | unresolvableScalar name =>
    "custom scalar " ++ name ++ " has no mock rule and no registered formatter"
  | invalidMockRule target message => "invalid mock rule for " ++ target ++ ": " ++ message

namespace TypeSystem

def resolve (schema : TypeSystem) (name : String) : Except SchemaError TypeDef :=
  match Ordered.get? schema.types name with
  | some type => .ok type
  | none => .error (.unknownType name)

def fieldsOf (schema : TypeSystem) (name : String) : Except SchemaError (Ordered String FieldDef) :=
  match schema.resolve name with
  | .error error => .error error
  | .ok (.object _ _ fields) => .ok fields
  | .ok _ => .error (.notAnObject name)

def field (schema : TypeSystem) (parent name : String) : Except SchemaError FieldDef :=
  match schema.fieldsOf parent with
  | .error error => .error error
  | .ok fields =>
    match Ordered.get? fields name with
    | some field => .ok field
    | none => .error (.unknownField parent name)

/-- The type at the root of a kind of operation, if the schema has one. -/
def root? (schema : TypeSystem) : OperationKind → Option String
  | .query => some schema.query
  | .mutation => schema.mutation
  | .subscription => schema.subscription

end TypeSystem

end MockGraph
