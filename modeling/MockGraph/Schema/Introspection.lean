import MockGraph.Schema.Basic
set_option autoImplicit false

namespace MockGraph.Introspection

private def plain (name : String) (type : TypeRef) : String × FieldDef :=
  (name, ⟨name, none, type, []⟩)

/-- A field that lists deprecated members only on demand. -/
private def listing (name : String) (type : TypeRef) : String × FieldDef :=
  (name, ⟨name, none, type,
    [("includeDeprecated", ⟨"includeDeprecated", none, .named "Boolean", some (.bool false)⟩)]⟩)

private def text : TypeRef := .named "String"

private def textRequired : TypeRef := .nonNull (.named "String")

private def flagRequired : TypeRef := .nonNull (.named "Boolean")

private def listOf (name : String) : TypeRef := .list (.nonNull (.named name))

private def object (name : String) (fields : List (String × FieldDef)) : String × TypeDef :=
  (name, .object name none fields)

private def enumeration (name : String) (values : List String) : String × TypeDef :=
  (name, .enum name none values)

def types : Ordered String TypeDef :=
  [object "__Schema" [plain "description" text, plain "types" (.nonNull (listOf "__Type")),
    plain "queryType" (.nonNull (.named "__Type")), plain "mutationType" (.named "__Type"),
    plain "subscriptionType" (.named "__Type"),
    plain "directives" (.nonNull (listOf "__Directive"))],
    object "__Type" [plain "kind" (.nonNull (.named "__TypeKind")), plain "name" text,
      plain "description" text, listing "fields" (listOf "__Field"),
      plain "interfaces" (listOf "__Type"), plain "possibleTypes" (listOf "__Type"),
      listing "enumValues" (listOf "__EnumValue"), listing "inputFields" (listOf "__InputValue"),
      plain "ofType" (.named "__Type"), plain "specifiedByURL" text],
    enumeration "__TypeKind"
      ["SCALAR", "OBJECT", "INTERFACE", "UNION", "ENUM", "INPUT_OBJECT", "LIST", "NON_NULL"],
    object "__Field" [plain "name" textRequired, plain "description" text,
      listing "args" (.nonNull (listOf "__InputValue")), plain "type" (.nonNull (.named "__Type")),
      plain "isDeprecated" flagRequired, plain "deprecationReason" text],
    object "__InputValue" [plain "name" textRequired, plain "description" text,
      plain "type" (.nonNull (.named "__Type")), plain "defaultValue" text,
      plain "isDeprecated" flagRequired, plain "deprecationReason" text],
    object "__EnumValue" [plain "name" textRequired, plain "description" text,
      plain "isDeprecated" flagRequired, plain "deprecationReason" text],
    object "__Directive" [plain "name" textRequired, plain "description" text,
      plain "locations" (.nonNull (listOf "__DirectiveLocation")),
      listing "args" (.nonNull (listOf "__InputValue")), plain "isRepeatable" flagRequired],
    enumeration "__DirectiveLocation" ["QUERY", "MUTATION", "SUBSCRIPTION", "FIELD",
      "FRAGMENT_DEFINITION", "FRAGMENT_SPREAD", "INLINE_FRAGMENT", "VARIABLE_DEFINITION", "SCHEMA",
      "SCALAR", "OBJECT", "FIELD_DEFINITION", "ARGUMENT_DEFINITION", "INTERFACE", "UNION", "ENUM",
      "ENUM_VALUE", "INPUT_OBJECT", "INPUT_FIELD_DEFINITION"]]

def typenameField : FieldDef := ⟨"__typename", none, textRequired, []⟩

/-- The fields that the query root has on top. -/
def queryFields : Ordered String FieldDef :=
  [("__schema", ⟨"__schema", none, .nonNull (.named "__Schema"), []⟩),
   ("__type", ⟨"__type", none, .named "__Type", [("name", ⟨"name", none, textRequired, none⟩)]⟩)]

private def condition : Ordered String InputDef := [("if", ⟨"if", none, flagRequired, none⟩)]

private def selections : List Syntax.DirectiveLocation := [.field, .fragmentSpread, .inlineFragment]

def directives : Ordered String DirectiveDef :=
  [("skip", ⟨"skip", condition, false, selections⟩),
    ("include", ⟨"include", condition, false, selections⟩),
    ("deprecated", ⟨"deprecated",
      [("reason", ⟨"reason", none, text, some (.string "No longer supported")⟩)], false,
      [.fieldDefinition, .argumentDefinition, .inputFieldDefinition, .enumValue]⟩),
    ("specifiedBy",
      ⟨"specifiedBy", [("url", ⟨"url", none, textRequired, none⟩)], false, [.scalar]⟩)]

end MockGraph.Introspection

namespace MockGraph.TypeSystem

/-- A type by its name, declared or built in. -/
def typeNamed? (schema : TypeSystem) (name : String) : Option TypeDef :=
  match Ordered.get? schema.types name with
  | some type => some type
  | none => Ordered.get? Introspection.types name

/-- A field that can be selected on an object type, declared or built in. -/
def selectable? (schema : TypeSystem) (parent name : String) : Option FieldDef :=
  match schema.typeNamed? parent with
  | some (.object _ _ fields) =>
    if name = "__typename" then some Introspection.typenameField
    else
      match Ordered.get? fields name with
      | some field => some field
      | none => if parent = schema.query then Ordered.get? Introspection.queryFields name else none
  | _ => none

end MockGraph.TypeSystem
