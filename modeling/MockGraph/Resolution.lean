import MockGraph.Json.Printer
import MockGraph.Response
set_option autoImplicit false

namespace MockGraph

/-- The field whose value is produced, and the type that the field belongs to, as far as they are
known. -/
structure Position where
  parent : Option String
  field : Option String
deriving DecidableEq, Inhabited, Repr

namespace Position

/-- The position of an operation's root, which is no field's value. -/
def root : Position := ⟨none, none⟩

def ofField (parent field : String) : Position := ⟨some parent, some field⟩

/-- The type and field of a position that names both. -/
def target? (position : Position) : Option (String × String) :=
  match position.parent, position.field with
  | some parent, some field => some (parent, field)
  | _, _ => none

def text (position : Position) : String :=
  match position.target? with
  | some (parent, field) => parent ++ "." ++ field
  | none => "<root>"

end Position

/-- What should never happen when values are produced for a checked schema. -/
inductive InternalError where
  | emptyEnum (name : String)
  | notALeaf (name : String)
  | inputType (name : String)
  | unknownField (parent field : String)
  | unknownType (name : String)
  /-- A value became null without an error that says why. -/
  | lostNull
deriving DecidableEq, Inhabited, Repr

def InternalError.message : InternalError → String
  | emptyEnum name => "enum " ++ name ++ " is empty"
  | notALeaf name => name ++ " is not a leaf type"
  | inputType name => name ++ " is an input type"
  | unknownField parent field => "unknown field " ++ parent ++ "." ++ field
  | unknownType name => "unknown type: " ++ name
  | lostNull => "null propagated without an error"

/-- Why the value of a field cannot be produced. -/
inductive ResolutionError where
  | missingArgument (name : String)
  | argumentParse (name reason : String)
  | invalidValue (expected found : String)
  | noGenerator (scalar : String)
  | nullForNonNull (place : String)
  | custom (message : String)
  | internal (error : InternalError)
deriving DecidableEq, Inhabited, Repr

namespace ResolutionError

def message : ResolutionError → String
  | missingArgument name => "Missing required argument: " ++ name
  | argumentParse name reason => "Failed to parse argument '" ++ name ++ "': " ++ reason
  | invalidValue expected found => "Expected a value of type " ++ expected ++ ", found " ++ found
  | noGenerator scalar => "No mock generator for scalar " ++ scalar
  | nullForNonNull place => "Cannot return null for non-nullable field " ++ place ++ "."
  | custom message => message
  | internal error => "Internal error: " ++ error.message

/-- How a value is shown where another one was expected. -/
def shown : Json → String
  | .string s => "\"" ++ s ++ "\""
  | .array _ => "a list"
  | .object _ => "an object"
  | value => value.text

def unexpected (expected : String) (found : Json) : ResolutionError :=
  invalidValue expected (shown found)

end ResolutionError

end MockGraph
