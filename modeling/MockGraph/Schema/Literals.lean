import MockGraph.Schema.Introspection
import MockGraph.Syntax.Value
set_option autoImplicit false

namespace MockGraph.TypeSystem

open Syntax

/-- A number of the literal fits a double. -/
def fitsDouble (text : String) : Bool := (Syntax.Scientific.ofText text).double?.isSome

def fitsWord32 (text : String) : Bool :=
  let n := Syntax.Literal.intValue text
  decide (-Int.pow 2 31 ≤ n ∧ n < Int.pow 2 31)

/-- A variable in a literal has a declaration with the same type inside all marks. -/
def variableMatches (variableDefs : List VariableDefinition) (type : TypeRef) (name : String) :
    Bool :=
  match variableDefs.find? (·.name == name) with
  | some declared => declared.type.namedType == type.namedType
  | none => false

/-- Built-in scalars take literals of their own kind; whole numbers stand for doubles and for
IDs. -/
def builtInAccepts (scalar : String) : Literal → Bool
  | .int text =>
    if scalar = "Int" then fitsWord32 text
    else if scalar = "Float" then fitsDouble text
    else scalar == "ID"
  | .float text => scalar == "Float" && fitsDouble text
  | .string _ => scalar == "String" || scalar == "ID"
  | .bool _ => scalar == "Boolean"
  | _ => false

/-- The fields that an input object has to name are given, and not as `null`. -/
def namesRequired (inputs : Ordered String InputDef) (fields : List (String × Literal)) : Bool :=
  inputs.all fun (name, input) =>
    !input.isRequired ||
      (fields.any (·.1 == name) &&
        !fields.any fun field =>
          field.1 == name && (match field.2 with | .null => true | _ => false))

mutual

/-- A literal fits a type. A custom scalar takes anything, and a list type also a single item. -/
def accepts (schema : TypeSystem) (variableDefs : List VariableDefinition) (type : TypeRef) :
    Literal → Bool
  | .null =>
    match schema.typeNamed? type.namedType with
    | none => true
    | some definition => definition.isInput && !type.isNonNull
  | .variable name =>
    match schema.typeNamed? type.namedType with
    | none => true
    | some definition => definition.isInput && variableMatches variableDefs type name
  | .list items =>
    match schema.typeNamed? type.namedType with
    | none => true
    | some (.object _ _ _) => false
    | some definition =>
      (type.isList ||
        match definition with
        | .scalar name _ => !builtInScalars.contains name
        | _ => false) &&
      acceptsAll schema variableDefs type.itemType items
  | .object fields =>
    match schema.typeNamed? type.namedType with
    | none => true
    | some (.scalar name _) => !builtInScalars.contains name
    | some (.input _ _ inputs) =>
      namesRequired inputs fields && acceptsFields schema variableDefs inputs [] fields
    | some _ => false
  | .enum value =>
    match schema.typeNamed? type.namedType with
    | none => true
    | some (.scalar name _) => !builtInScalars.contains name
    | some (.enum _ _ values) => values.contains value
    | some _ => false
  | literal =>
    match schema.typeNamed? type.namedType with
    | none => true
    | some (.scalar name _) => !builtInScalars.contains name || builtInAccepts name literal
    | some _ => false

def acceptsAll (schema : TypeSystem) (variableDefs : List VariableDefinition) (type : TypeRef) :
    List Literal → Bool
  | [] => true
  | item :: items =>
    accepts schema variableDefs type item && acceptsAll schema variableDefs type items

/-- All fields are known; of fields with one name the first is checked. -/
def acceptsFields (schema : TypeSystem) (variableDefs : List VariableDefinition)
    (inputs : Ordered String InputDef) (seen : List String) : List (String × Literal) → Bool
  | [] => true
  | (name, value) :: fields =>
    (match Ordered.get? inputs name with
      | none => false
      | some input => seen.contains name || accepts schema variableDefs input.type value) &&
    acceptsFields schema variableDefs inputs (name :: seen) fields

end

/-- A variable that is an argument by itself has a type that fits there. A default on either side
makes up for a missing non-null mark. -/
def variableUsable (variableDefs : List VariableDefinition) (input : InputDef) : Literal → Bool
  | .variable name =>
    match variableDefs.find? (·.name == name) with
    | none => true
    | some declared =>
      if input.type.isNonNull && !declared.type.isNonNull then
        (declared.default.isSome || input.default.isSome) &&
          declared.type.fitsInto input.type.nullable
      else declared.type.fitsInto input.type
  | _ => true

/-- A name does not come again in the rest of a list. -/
def allDistinct : List String → Bool
  | [] => true
  | name :: names => !names.contains name && allDistinct names

/-- Arguments are known, given once, of the right type, and those that have to be given are. -/
def argumentsAllowed (schema : TypeSystem) (variableDefs : List VariableDefinition)
    (inputs : Ordered String InputDef) (arguments : List (String × Literal)) : Bool :=
  allDistinct (arguments.map Prod.fst) &&
  (arguments.all fun (name, value) =>
    match Ordered.get? inputs name with
    | none => false
    | some input =>
      variableUsable variableDefs input value && schema.accepts variableDefs input.type value) &&
  namesRequired inputs arguments

/-- Directives are known, in a place where they may stand, and repeated only if they may be. -/
def directivesAllowed (schema : TypeSystem) (location : DirectiveLocation)
    (variableDefs : List VariableDefinition) (directives : List Directive) : Bool :=
  (directives.all fun directive =>
    match Ordered.get? schema.directives directive.name with
    | none => false
    | some definition =>
      definition.locations.contains location &&
      schema.argumentsAllowed variableDefs definition.arguments directive.arguments) &&
  allDistinct ((directives.map (·.name)).filter fun name =>
    match Ordered.get? schema.directives name with
    | some definition => !definition.repeatable
    | none => false)

end MockGraph.TypeSystem
