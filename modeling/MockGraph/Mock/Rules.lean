import MockGraph.Mock.Draw
import MockGraph.Mock.ListSize
import MockGraph.Resolution
import MockGraph.Schema.Basic
set_option autoImplicit false

namespace MockGraph

inductive MockRule where
  | value (produce : Position → Except ResolutionError Json)
  | listSize (range : ListSize)
deriving Inhabited

namespace MockRule

def constant (value : Json) : MockRule := .value fun _ => .ok value

def isValue : MockRule → Bool
  | value _ => true
  | listSize _ => false

end MockRule

/-- Draws a value of a scalar. -/
abbrev Formatter := Random → Json × Random

/-- What fields and types are always given, how long their lists are, and how scalars are drawn. -/
structure MockRules where
  fields : Ordered (String × String) MockRule
  types : Ordered String MockRule
  formatters : Ordered String Formatter
deriving Inhabited

namespace MockRules

/-- The formatters of the built-in scalars and of dates. -/
def standardFormatters : Ordered String Formatter :=
  [("Int", Random.drawInt), ("Float", Random.drawFloat), ("String", Random.drawString),
   ("Boolean", Random.drawBoolean), ("ID", Random.drawId), ("Date", Random.drawDate)]

/-- No rules beyond the standard formatters. -/
def standard : MockRules := ⟨[], [], standardFormatters⟩

def withField (rules : MockRules) (type field : String) (rule : MockRule) : MockRules :=
  { rules with fields := Ordered.insert rules.fields (type, field) rule }

def withType (rules : MockRules) (type : String) (rule : MockRule) : MockRules :=
  { rules with types := Ordered.insert rules.types type rule }

def withFormatter (rules : MockRules) (scalar : String) (formatter : Formatter) : MockRules :=
  { rules with formatters := Ordered.insert rules.formatters scalar formatter }

def withoutFormatter (rules : MockRules) (scalar : String) : MockRules :=
  { rules with formatters := Ordered.erase rules.formatters scalar }

def ruleForField? (rules : MockRules) (type field : String) : Option MockRule :=
  Ordered.get? rules.fields (type, field)

def ruleForType? (rules : MockRules) (type : String) : Option MockRule :=
  Ordered.get? rules.types type

/-- A field rule has to name a field of the schema, and a list to size. -/
def checkField (schema : TypeSystem) (type field : String) (rule : MockRule) :
    Except SchemaError Unit :=
  match schema.field type field with
  | .error error => .error (.invalidMockRule (type ++ "." ++ field) error.message)
  | .ok definition =>
    match rule with
    | .value _ => .ok ()
    | .listSize _ =>
      if definition.type.isList then .ok ()
      else .error (.invalidMockRule (type ++ "." ++ field)
        ("list size given for non-list type " ++ definition.type.text))

/-- A type rule has to name a type of the schema. -/
def checkType (schema : TypeSystem) (type : String) : Except SchemaError Unit :=
  match schema.resolve type with
  | .error error => .error (.invalidMockRule type error.message)
  | .ok _ => .ok ()

/-- A scalar needs a rule for its values or a formatter. -/
def checkScalar (rules : MockRules) : TypeDef → Except SchemaError Unit
  | .scalar name _ =>
    if (rules.ruleForType? name).any MockRule.isValue || Ordered.contains rules.formatters name then
      .ok ()
    else .error (.unresolvableScalar name)
  | _ => .ok ()

/-- The rules fit a schema, and all its scalars can be produced. -/
def check (rules : MockRules) (schema : TypeSystem) : Except SchemaError Unit := do
  rules.fields.forM fun entry => checkField schema entry.1.1 entry.1.2 entry.2
  rules.types.forM fun entry => checkType schema entry.1
  schema.types.forM fun entry => rules.checkScalar entry.2

end MockRules

end MockGraph
