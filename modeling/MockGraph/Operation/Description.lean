import MockGraph.Execution.Run
import MockGraph.Schema.Description
set_option autoImplicit false

namespace MockGraph

def Json.pairs (members : List (String × Json)) : Json :=
  .array (members.map fun (name, value) => .array [.string name, value])

mutual

def FieldSelection.describe : FieldSelection → Json
  | ⟨name, aliasName, arguments, selection⟩ =>
    .object [("name", .string name), ("alias", .ofText? aliasName),
      ("key", .string (aliasName.getD name)), ("arguments", .pairs arguments),
      ("selection", .array (FieldSelection.describeAll selection))]

def FieldSelection.describeAll : List FieldSelection → List Json
  | [] => []
  | field :: rest => field.describe :: FieldSelection.describeAll rest

end

def Operation.describe (operation : Operation) : Json :=
  .object [("kind", .string operation.kind.text), ("name", .ofText? operation.name),
    ("root", .ofText? operation.rootFieldName?), ("variables", .pairs operation.bindings),
    ("selection", .array (FieldSelection.describeAll operation.selection))]

def ValidationError.kind : ValidationError → String
  | invalidDocument | ambiguousOperation => "Document"
  | unknownOperation _ => "UnknownOperation"
  | unsupportedOperation _ => "UnsupportedOperation"
  | unknownField _ _ => "UnknownField"
  | unknownArgument _ _ _ => "UnknownArgument"
  | missingArgument _ _ _ => "MissingArgument"
  | missingSelection _ _ => "MissingSelection"
  | leafSelection _ _ => "LeafSelection"
  | missingVariable _ => "MissingVariable"
  | subscriptionOverHttp => "SubscriptionOverHttp"

/-- What is wrong with an invalid document is not spelled out. -/
def ValidationError.report (error : ValidationError) : Json :=
  .report error.kind (if error = .invalidDocument then none else some error.message)

/-- An operation that was rejected, with the response to it. -/
def Rejection.report (rejection : Rejection) : Json :=
  .object [("rejected", .array (rejection.errors.map ValidationError.report)),
    ("message", .string rejection.message), ("response", .string rejection.response.text)]

end MockGraph
