import MockGraph.Json.Basic
import MockGraph.Response
import MockGraph.Syntax.Tree
set_option autoImplicit false

namespace MockGraph

/-- A selected field with its arguments and what is selected on its value. -/
structure FieldSelection where
  name : String
  aliasName : Option String
  arguments : List (String × Json)
  selection : List FieldSelection
deriving Inhabited

def FieldSelection.responseKey (field : FieldSelection) : String := field.aliasName.getD field.name

/-- An operation as it runs: a tree of selected fields, with all arguments known. -/
structure Operation where
  kind : OperationKind
  name : Option String
  selection : List FieldSelection
  bindings : Ordered String Json
deriving Inhabited

/-- The name of the first selected field. A subscription has exactly one. -/
def Operation.rootFieldName? (operation : Operation) : Option String :=
  operation.selection.head?.map (·.name)

/-- Why an operation is rejected before it runs. -/
inductive ValidationError where
  /-- The text does not parse, or breaks a rule for documents. -/
  | invalidDocument
  | ambiguousOperation
  | unknownOperation (name : String)
  | unsupportedOperation (kind : OperationKind)
  | unknownField (parent field : String)
  | unknownArgument (parent field argument : String)
  | missingArgument (parent field argument : String)
  | missingSelection (field type : String)
  | leafSelection (field type : String)
  | missingVariable (name : String)
  | subscriptionOverHttp
deriving DecidableEq, Inhabited, Repr

namespace ValidationError

def quoted (text : String) : String := "\"" ++ text ++ "\""

/-- The message for clients. What is wrong with an invalid document is not spelled out. -/
def message : ValidationError → String
  | invalidDocument => "<document>"
  | ambiguousOperation => "Must provide operation name if query contains multiple operations"
  | unknownOperation name => "Unknown operation named " ++ quoted name
  | unsupportedOperation kind => "Schema does not support " ++ kind.text ++ " operations"
  | unknownField parent field =>
    "Cannot query field " ++ quoted field ++ " on type " ++ quoted parent
  | unknownArgument parent field argument =>
    "Unknown argument " ++ quoted argument ++ " on field " ++ quoted (parent ++ "." ++ field)
  | missingArgument parent field argument =>
    "Field " ++ quoted (parent ++ "." ++ field) ++ " argument " ++ quoted argument ++ " is required"
  | missingSelection field type =>
    "Field " ++ quoted field ++ " of type " ++ quoted type ++ " must have a selection of subfields"
  | leafSelection field type =>
    "Field " ++ quoted field ++ " must not have a selection since type " ++ quoted type ++
      " has no subfields"
  | missingVariable name =>
    "Variable " ++ quoted ("$" ++ name) ++ " of required type was not provided"
  | subscriptionOverHttp => "Subscription operations require a streaming connection"

def code : String := "GRAPHQL_VALIDATION_FAILED"

def fieldError (error : ValidationError) : FieldError :=
  (FieldError.new error.message).withCode code

end ValidationError

end MockGraph
