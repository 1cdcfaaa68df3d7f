import MockGraph.Schema.Basic
set_option autoImplicit false

namespace MockGraph

/-- A default stands in the description only if there is one, be it `null`. -/
def InputDef.describe (input : InputDef) : Json :=
  .object
    ([("name", .string input.name), ("description", .ofText? input.description),
        ("type", .string input.type.text)] ++
      (input.default.map fun value => ("default", value)).toList)

def FieldDef.describe (field : FieldDef) : Json :=
  .object [("name", .string field.name), ("description", .ofText? field.description),
    ("type", .string field.type.text),
    ("arguments", .array (field.arguments.map fun entry => entry.2.describe))]

namespace TypeDef

def kind : TypeDef → String
  | scalar _ _ => "scalar"
  | enum _ _ _ => "enum"
  | object _ _ _ => "object"
  | input _ _ _ => "input"

def details : TypeDef → String × Json
  | scalar name _ => ("builtIn", .bool (builtInScalars.contains name))
  | enum _ _ values => ("values", Json.strings values)
  | object _ _ fields => ("fields", .array (fields.map fun entry => entry.2.describe))
  | input _ _ fields => ("fields", .array (fields.map fun entry => entry.2.describe))

def describe (type : TypeDef) : Json :=
  .object [("kind", .string type.kind), ("name", .string type.name),
    ("description", .ofText? type.description), ("leaf", .bool type.isLeaf), type.details]

end TypeDef

/-- The roots, the built-in scalars by name, and all other types. -/
def TypeSystem.describe (schema : TypeSystem) : Json :=
  let (builtIn, declared) := schema.types.partition fun entry => builtInScalars.contains entry.1
  .object [("query", .string schema.query), ("mutation", .ofText? schema.mutation),
    ("subscription", .ofText? schema.subscription),
    ("builtIn", Json.strings ((Ordered.keys builtIn).mergeSort fun a b => a ≤ b)),
    ("types", .array (declared.map fun entry => entry.2.describe))]

def Json.report (kind : String) (message : Option String) : Json :=
  .object (("error", .string kind) ::
    (message.map fun text => ("message", Json.string text)).toList)

def SchemaError.kind : SchemaError → String
  | invalid => "Invalid"
  | unknownType _ => "UnknownType"
  | notAnObject _ => "NotAnObject"
  | unknownField _ _ => "UnknownField"
  | unsupportedInterface _ | unsupportedUnion _ => "UnsupportedType"
  | unresolvableScalar _ => "UnresolvableScalar"
  | invalidMockRule _ _ => "InvalidMockRule"

/-- What is wrong with an invalid schema is not spelled out. -/
def SchemaError.report (error : SchemaError) : Json :=
  .report error.kind (if error = .invalid then none else some error.message)

end MockGraph
