import MockGraph.Syntax.Token
import MockGraph.Syntax.Tree
set_option autoImplicit false

namespace MockGraph.Syntax

/-- A part of the grammar, which reads from the front of the tokens and gives back the rest. -/
abbrev Phrase (α : Type) := List Token → Option (α × List Token)

namespace Phrase

def sign (c : Char) : List Token → Option (List Token)
  | .sign d :: rest => if d = c then some rest else none
  | _ => none

def word (text : String) : List Token → Option (List Token)
  | .name found :: rest => if found = text then some rest else none
  | _ => none

def name : Phrase String
  | .name text :: rest => some (text, rest)
  | _ => none

/-- Items up to a closing sign, which is read too. -/
def upTo {α : Type} (close : Char) (item : Phrase α) : Nat → Phrase (List α)
  | 0, _ => none
  | fuel + 1, tokens =>
    match sign close tokens with
    | some rest => some ([], rest)
    | none =>
      match item tokens with
      | none => none
      | some (first, rest) =>
        (upTo close item fuel rest).map fun (items, rest) => (first :: items, rest)

/-- Items between two signs, possibly none. -/
def enclosed {α : Type} (opening close : Char) (item : Phrase α) : Phrase (List α) := fun tokens =>
  match sign opening tokens with
  | none => none
  | some rest => upTo close item tokens.length rest

def enclosedSome {α : Type} (opening close : Char) (item : Phrase α) : Phrase (List α) :=
  fun tokens =>
  match enclosed opening close item tokens with
  | some ([], _) => none
  | other => other

/-- At least one item between two signs, or neither items nor signs. -/
def enclosedOptional {α : Type} (opening close : Char) (item : Phrase α) : Phrase (List α) :=
  fun tokens =>
  match sign opening tokens with
  | none => some ([], tokens)
  | some _ => enclosedSome opening close item tokens

/-- Items as long as the next token starts one. -/
def whileStarts {α : Type} (starts : List Token → Bool) (item : Phrase α) : Nat → Phrase (List α)
  | 0, tokens => some ([], tokens)
  | fuel + 1, tokens =>
    if starts tokens then
      match item tokens with
      | none => none
      | some (first, rest) =>
        (whileStarts starts item fuel rest).map fun (items, rest) => (first :: items, rest)
    else some ([], tokens)

/-- A list of names with a sign between them, and optionally one in front. -/
def separated (c : Char) (item : Phrase String) : Phrase (List String) := fun tokens => do
  let (first, rest) ← item ((sign c tokens).getD tokens)
  let (others, rest) ← whileStarts (fun tokens => (sign c tokens).isSome)
    (fun tokens => (sign c tokens).bind item) rest.length rest
  return (first :: others, rest)

end Phrase

open Phrase

/-- The names that are no enum value. -/
def isReservedValue (name : String) : Bool := name == "true" || name == "false" || name == "null"

/-- A named field of an object literal or an argument. -/
def parseNamed (value : Phrase Literal) : Phrase (String × Literal) := fun tokens => do
  let (name, rest) ← name tokens
  let rest ← sign ':' rest
  let (value, rest) ← value rest
  return ((name, value), rest)

/-- A value; constant values hold no variables. -/
def parseLiteral (constant : Bool) : Nat → Phrase Literal
  | 0, _ => none
  | fuel + 1, tokens =>
    match tokens with
    | .int text :: rest => some (.int text, rest)
    | .float text :: rest => some (.float text, rest)
    | .string value :: rest => some (.string value, rest)
    | .name "true" :: rest => some (.bool true, rest)
    | .name "false" :: rest => some (.bool false, rest)
    | .name "null" :: rest => some (.null, rest)
    | .name text :: rest => some (.enum text, rest)
    | .sign '$' :: .name text :: rest => if constant then none else some (.variable text, rest)
    | .sign '[' :: _ =>
      (enclosed '[' ']' (parseLiteral constant fuel) tokens).map fun (items, rest) =>
        (.list items, rest)
    | .sign '{' :: _ =>
      (enclosed '{' '}' (parseNamed (parseLiteral constant fuel)) tokens).map fun (fields, rest) =>
        (.object fields, rest)
    | _ => none

def parseValue (constant : Bool) : Phrase Literal :=
  fun tokens => parseLiteral constant tokens.length tokens

def parseArguments (constant : Bool) : Phrase (List (String × Literal)) :=
  enclosedOptional '(' ')' (parseNamed (parseValue constant))

def parseDirective (constant : Bool) : Phrase Directive := fun tokens => do
  let rest ← sign '@' tokens
  let (name, rest) ← name rest
  let (arguments, rest) ← parseArguments constant rest
  return (⟨name, arguments⟩, rest)

def parseDirectives (constant : Bool) : Phrase (List Directive) := fun tokens =>
  whileStarts (fun tokens => (sign '@' tokens).isSome) (parseDirective constant) tokens.length
    tokens

/-- A type without a non-null mark at its end, by the reader of the types inside it. -/
def parseBareType (inner : Phrase TypeRef) : Phrase TypeRef := fun tokens =>
  match tokens with
  | .name text :: rest => some (.named text, rest)
  | .sign '[' :: rest => do
    let (item, rest) ← inner rest
    let rest ← sign ']' rest
    return (.list item, rest)
  | _ => none

def parseTypeWithin : Nat → Phrase TypeRef
  | 0, _ => none
  | fuel + 1, tokens =>
    match parseBareType (parseTypeWithin fuel) tokens with
    | none => none
    | some (type, rest) =>
      match sign '!' rest with
      | some rest => some (type.required, rest)
      | none => some (type, rest)

def parseType : Phrase TypeRef := fun tokens => parseTypeWithin tokens.length tokens

def parseDefault : Phrase (Option Literal) := fun tokens =>
  match sign '=' tokens with
  | none => some (none, tokens)
  | some rest => (parseValue true rest).map fun (value, rest) => (some value, rest)

/-- A selection, by the reader of the sets inside it. -/
def parseSelectionBy (set : Phrase (List Selection)) : Phrase Selection := fun tokens =>
  match tokens with
  | .spread :: .name "on" :: rest => do
    let (condition, rest) ← name rest
    let (directives, rest) ← parseDirectives false rest
    let (selection, rest) ← set rest
    return (.inline (some condition) directives selection, rest)
  | .spread :: .name fragment :: rest => do
    let (directives, rest) ← parseDirectives false rest
    return (.spread fragment directives, rest)
  | .spread :: rest => do
    let (directives, rest) ← parseDirectives false rest
    let (selection, rest) ← set rest
    return (.inline none directives selection, rest)
  | .name first :: rest => do
    let (responseName, fieldName, rest) ← match sign ':' rest with
      | none => some (none, first, rest)
      | some rest => (name rest).map fun (second, rest) => (some first, second, rest)
    let (arguments, rest) ← parseArguments false rest
    let (directives, rest) ← parseDirectives false rest
    let (selection, rest) ← match sign '{' rest with
      | none => some ([], rest)
      | some _ => set rest
    return (.field responseName fieldName arguments directives selection, rest)
  | _ => none

def parseSelectionWithin : Nat → Phrase Selection
  | 0, _ => none
  | fuel + 1, tokens => parseSelectionBy (enclosedSome '{' '}' (parseSelectionWithin fuel)) tokens

def parseSelectionSet : Phrase (List Selection) := fun tokens =>
  enclosedSome '{' '}' (parseSelectionWithin tokens.length) tokens

def parseVariableDefinition : Phrase VariableDefinition := fun tokens => do
  let rest ← sign '$' tokens
  let (name, rest) ← name rest
  let rest ← sign ':' rest
  let (type, rest) ← parseType rest
  let (default, rest) ← parseDefault rest
  let (directives, rest) ← parseDirectives true rest
  return (⟨name, type, default, directives⟩, rest)

def operationKind? : String → Option OperationKind
  | "query" => some .query
  | "mutation" => some .mutation
  | "subscription" => some .subscription
  | _ => none

/-- An operation with its kind already read. -/
def parseOperation (kind : OperationKind) : Phrase OperationDefinition := fun tokens => do
  let (name, rest) := match tokens with
    | .name text :: rest => (some text, rest)
    | _ => (none, tokens)
  let (variableDefs, rest) ← enclosedOptional '(' ')' parseVariableDefinition rest
  let (directives, rest) ← parseDirectives false rest
  let (selection, rest) ← parseSelectionSet rest
  return (⟨kind, name, variableDefs, directives, selection⟩, rest)

/-- A fragment with the word for it already read. No fragment is called `on`. -/
def parseFragment : Phrase FragmentDefinition := fun tokens => do
  let (fragmentName, rest) ← name tokens
  if fragmentName = "on" then none
  else
    let rest ← word "on" rest
    let (condition, rest) ← name rest
    let (directives, rest) ← parseDirectives false rest
    let (selection, rest) ← parseSelectionSet rest
    return (⟨fragmentName, condition, directives, selection⟩, rest)

def parseDefinitions : Nat → List Token → Document → Option Document
  | _, [], document => some document
  | 0, _, _ => none
  | fuel + 1, .sign '{' :: rest, document =>
    match parseSelectionSet (.sign '{' :: rest) with
    | none => none
    | some (selection, rest) =>
      parseDefinitions fuel rest
        { document with operations := document.operations ++ [⟨.query, none, [], [], selection⟩] }
  | fuel + 1, .name "fragment" :: rest, document =>
    match parseFragment rest with
    | none => none
    | some (fragment, rest) =>
      parseDefinitions fuel rest { document with fragments := document.fragments ++ [fragment] }
  | fuel + 1, .name text :: rest, document =>
    match operationKind? text with
    | none => none
    | some kind =>
      match parseOperation kind rest with
      | none => none
      | some (operation, rest) =>
        parseDefinitions fuel rest
          { document with operations := document.operations ++ [operation] }
  | _, _, _ => none

/-- A text with at least one definition, all of them operations and fragments. -/
def Document.parse? (text : String) : Option Document := do
  let tokens ← tokens? text
  if tokens.isEmpty then none
  else parseDefinitions tokens.length tokens ⟨[], []⟩

def parseDescription : List Token → Option String × List Token
  | .string value :: rest => (some value, rest)
  | tokens => (none, tokens)

def parseInputDefinition : Phrase InputDefinition := fun tokens => do
  let (description, rest) := parseDescription tokens
  let (name, rest) ← name rest
  let rest ← sign ':' rest
  let (type, rest) ← parseType rest
  let (default, rest) ← parseDefault rest
  let (directives, rest) ← parseDirectives true rest
  return (⟨name, description, type, default, directives⟩, rest)

def parseFieldDefinition : Phrase FieldDefinition := fun tokens => do
  let (description, rest) := parseDescription tokens
  let (name, rest) ← name rest
  let (arguments, rest) ← enclosedOptional '(' ')' parseInputDefinition rest
  let rest ← sign ':' rest
  let (type, rest) ← parseType rest
  let (directives, rest) ← parseDirectives true rest
  return (⟨name, description, arguments, type, directives⟩, rest)

def parseEnumValue : Phrase EnumValueDefinition := fun tokens => do
  let (_, rest) := parseDescription tokens
  let (name, rest) ← name rest
  if isReservedValue name then none
  else
    let (directives, rest) ← parseDirectives true rest
    return (⟨name, directives⟩, rest)

def parseInterfaces : Phrase (List String) := fun tokens =>
  match word "implements" tokens with
  | none => some ([], tokens)
  | some rest => separated '&' name rest

def parseMembers : Phrase (List String) := fun tokens =>
  match sign '=' tokens with
  | none => some ([], tokens)
  | some rest => separated '|' name rest

/-- A type of the kind that the word names, after that word. -/
def parseTypeDefinition (kind : String) (description : Option String) : Phrase TypeDefinition :=
  fun tokens => do
  let (typeName, rest) ← name tokens
  match kind with
  | "scalar" =>
    let (directives, rest) ← parseDirectives true rest
    return (⟨typeName, description, directives, .scalar⟩, rest)
  | "type" =>
    let (interfaces, rest) ← parseInterfaces rest
    let (directives, rest) ← parseDirectives true rest
    let (fields, rest) ← enclosedOptional '{' '}' parseFieldDefinition rest
    return (⟨typeName, description, directives, .object interfaces fields⟩, rest)
  | "interface" =>
    let (interfaces, rest) ← parseInterfaces rest
    let (directives, rest) ← parseDirectives true rest
    let (fields, rest) ← enclosedOptional '{' '}' parseFieldDefinition rest
    return (⟨typeName, description, directives, .interface interfaces fields⟩, rest)
  | "union" =>
    let (directives, rest) ← parseDirectives true rest
    let (members, rest) ← parseMembers rest
    return (⟨typeName, description, directives, .union members⟩, rest)
  | "enum" =>
    let (directives, rest) ← parseDirectives true rest
    let (values, rest) ← enclosedOptional '{' '}' parseEnumValue rest
    return (⟨typeName, description, directives, .enum values⟩, rest)
  | "input" =>
    let (directives, rest) ← parseDirectives true rest
    let (fields, rest) ← enclosedOptional '{' '}' parseInputDefinition rest
    return (⟨typeName, description, directives, .input fields⟩, rest)
  | _ => none

def parseRoot : Phrase (OperationKind × String) := fun tokens => do
  let (kind, rest) ← name tokens
  let kind ← operationKind? kind
  let rest ← sign ':' rest
  let (type, rest) ← name rest
  return ((kind, type), rest)

def locationNames : List (String × DirectiveLocation) :=
  [("QUERY", .query), ("MUTATION", .mutation), ("SUBSCRIPTION", .subscription), ("FIELD", .field),
    ("FRAGMENT_DEFINITION", .fragmentDefinition), ("FRAGMENT_SPREAD", .fragmentSpread),
    ("INLINE_FRAGMENT", .inlineFragment), ("VARIABLE_DEFINITION", .variableDefinition),
    ("SCHEMA", .schema), ("SCALAR", .scalar), ("OBJECT", .object),
    ("FIELD_DEFINITION", .fieldDefinition), ("ARGUMENT_DEFINITION", .argumentDefinition),
    ("INTERFACE", .interface), ("UNION", .union), ("ENUM", .enum), ("ENUM_VALUE", .enumValue),
    ("INPUT_OBJECT", .inputObject), ("INPUT_FIELD_DEFINITION", .inputFieldDefinition)]

def parseDirectiveDefinition : Phrase DirectiveDefinition := fun tokens => do
  let rest ← sign '@' tokens
  let (directiveName, rest) ← name rest
  let (arguments, rest) ← enclosedOptional '(' ')' parseInputDefinition rest
  let (repeatable, rest) := match word "repeatable" rest with
    | some rest => (true, rest)
    | none => (false, rest)
  let rest ← word "on" rest
  let (places, rest) ← separated '|' name rest
  let locations ← places.mapM fun place => locationNames.lookup place
  return (⟨directiveName, arguments, repeatable, locations⟩, rest)

/-- An extension has to add something. -/
def TypeDefinition.adds (definition : TypeDefinition) : Bool :=
  !definition.directives.isEmpty ||
    match definition.body with
    | .scalar => false
    | .enum values => !values.isEmpty
    | .object interfaces fields | .interface interfaces fields =>
      !interfaces.isEmpty || !fields.isEmpty
    | .union members => !members.isEmpty
    | .input fields => !fields.isEmpty

def parseExtension : Phrase SchemaPart := fun tokens => do
  let (kind, rest) ← name tokens
  if kind = "schema" then
    let (directives, rest) ← parseDirectives true rest
    let (roots, rest) ← enclosedOptional '{' '}' parseRoot rest
    if directives.isEmpty && roots.isEmpty then none
    else return (.schemaExtension ⟨directives, roots⟩, rest)
  else
    let (definition, rest) ← parseTypeDefinition kind none rest
    if definition.adds then return (.typeExtension definition, rest) else none

def parseSchemaPart : Phrase SchemaPart := fun tokens => do
  let (description, rest) := parseDescription tokens
  let (kind, rest) ← name rest
  match kind with
  | "extend" => if description.isSome then none else parseExtension rest
  | "schema" =>
    let (directives, rest) ← parseDirectives true rest
    let (roots, rest) ← enclosedSome '{' '}' parseRoot rest
    return (.schema ⟨directives, roots⟩, rest)
  | "directive" =>
    let (definition, rest) ← parseDirectiveDefinition rest
    return (.directive definition, rest)
  | _ =>
    let (definition, rest) ← parseTypeDefinition kind description rest
    return (.type definition, rest)

/-- The parts of a schema text, at least one. -/
def parseSchema? (text : String) : Option (List SchemaPart) := do
  let tokens ← tokens? text
  let (parts, rest) ← whileStarts (fun tokens => !tokens.isEmpty) parseSchemaPart tokens.length
    tokens
  if parts.isEmpty || !rest.isEmpty then none else some parts

end MockGraph.Syntax
