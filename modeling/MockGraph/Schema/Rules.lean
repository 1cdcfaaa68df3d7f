import MockGraph.Schema.Declarations
import MockGraph.Schema.Literals
set_option autoImplicit false

namespace MockGraph

/-- The names that can be reached from pending ones, with fuel for every step along an edge. -/
def reachable (next : String → List String) : Nat → List String → List String → List String
  | 0, _, seen => seen
  | _ + 1, [], seen => seen
  | fuel + 1, name :: pending, seen =>
    if seen.contains name then reachable next fuel pending seen
    else reachable next fuel (next name ++ pending) (name :: seen)

/-- The steps that a search from some names takes at most: one for each name and each edge. -/
def searchSteps (next : String → List String) (nodes start : List String) : Nat :=
  nodes.foldl (fun count node => count + (next node).length + 1) (start.length + 1)

/-- The names among `nodes` that can be reached from the names at the start, and these. -/
def reachableFrom (next : String → List String) (nodes start : List String) : List String :=
  reachable next (searchSteps next nodes start) start []

def isAcyclic (next : String → List String) (nodes : List String) (name : String) : Bool :=
  !(reachableFrom next nodes (next name)).contains name

end MockGraph

namespace MockGraph.Declarations

open Syntax TypeSystem

/-- Names that start with two underscores belong to the types that describe schemas. -/
def isReserved (name : String) : Bool :=
  match name.toList with
  | '_' :: '_' :: _ => true
  | _ => false

variable (declarations : Declarations)

def isInputType (type : TypeRef) : Bool :=
  match declarations.kind? type.namedType with
  | some .scalar | some .enum | some .input => true
  | _ => false

def isOutputType (type : TypeRef) : Bool :=
  match declarations.kind? type.namedType with
  | some .input | none => false
  | some _ => true

/-- Arguments of one field or directive, or fields of one input type. -/
def inputsSound (inputs : List InputDefinition) : Bool :=
  allDistinct (inputs.map (·.name)) &&
    inputs.all fun input => !isReserved input.name && declarations.isInputType input.type

def fieldsSound (fields : List FieldDefinition) : Bool :=
  !fields.isEmpty && allDistinct (fields.map (·.name)) &&
    fields.all fun field =>
      !isReserved field.name && declarations.isOutputType field.type &&
        declarations.inputsSound field.arguments

/-- A type is the other one or one of its possible types. -/
def isSubtypeName (name target : String) : Bool :=
  name == target || (declarations.interfacesOf name).contains target ||
    match Ordered.get? declarations.types target with
    | some ⟨_, _, _, .union members⟩ => members.contains name
    | _ => false

/-- A field of this type can stand for one of the target type. -/
def isSubtype : TypeRef → TypeRef → Bool
  | .nonNull inner, .nonNull target => isSubtype inner target
  | .nonNull inner, target => isSubtype inner target
  | .list item, .list target => isSubtype item target
  | .named name, .named target => declarations.isSubtypeName name target
  | _, _ => false

/-- A field takes the arguments of the field that it implements, and needs no others. -/
def argumentsImplement (own wanted : List InputDefinition) : Bool :=
  (wanted.all fun argument =>
      own.any fun mine => mine.name == argument.name && mine.type == argument.type) &&
    own.all fun mine =>
      wanted.any (·.name == mine.name) || !(mine.type.isNonNull && mine.default.isNone)

/-- A type has the fields of an interface and implements what the interface implements. -/
def implementsOne (name interface : String) : Bool :=
  declarations.kind? interface == some .interface &&
    ((declarations.interfacesOf interface).all fun wider =>
      (declarations.interfacesOf name).contains wider) &&
    (declarations.fieldsOf interface).all fun wanted =>
      (declarations.fieldsOf name).any fun mine =>
        mine.name == wanted.name && declarations.isSubtype mine.type wanted.type &&
          argumentsImplement mine.arguments wanted.arguments

def interfacesSound (name : String) (interfaces : List String) : Bool :=
  allDistinct interfaces && !interfaces.contains name && interfaces.all fun interface =>
    declarations.implementsOne name interface

/-- The input types that a value of an input type has to hold. -/
def neededInputs (name : String) : List String :=
  match Ordered.get? declarations.types name with
  | some ⟨_, _, _, .input fields⟩ =>
    fields.filterMap fun field => match field.type with
      | .nonNull (.named needed) => some needed
      | _ => none
  | _ => []

def typeSound (definition : TypeDefinition) : Bool :=
  !isReserved definition.name &&
    match definition.body with
    | .scalar => true
    | .enum values =>
      !values.isEmpty && allDistinct (values.map (·.name)) &&
        values.all fun value => !isReserved value.name
    | .object interfaces fields | .interface interfaces fields =>
      declarations.fieldsSound fields && declarations.interfacesSound definition.name interfaces
    | .union members =>
      !members.isEmpty && allDistinct members &&
        members.all fun member => declarations.kind? member == some .object
    | .input fields =>
      !fields.isEmpty && declarations.inputsSound fields &&
        isAcyclic declarations.neededInputs declarations.types.keys definition.name

/-- There is a query root, and the roots are distinct objects. -/
def rootsSound : Bool :=
  declarations.roots.any (·.1 == .query) &&
    allDistinct (declarations.roots.map (·.1.text)) && allDistinct (declarations.roots.map (·.2)) &&
    declarations.roots.all fun root => declarations.kind? root.2 == some .object

def directiveNode (name : String) : String := "@" ++ name

def usedBy (directives : List Directive) : List String :=
  directives.map fun directive => directiveNode directive.name

def usedByInputs (inputs : List InputDefinition) : List String :=
  inputs.flatMap fun input => input.type.namedType :: usedBy input.directives

/-- The directives and types that a directive's or an input type's declaration uses. -/
def uses (node : String) : List String :=
  match declarations.directives.find? fun directive => directiveNode directive.name == node with
  | some directive => usedByInputs directive.arguments
  | none =>
    match Ordered.get? declarations.types node with
    | some ⟨_, _, directives, .scalar⟩ => usedBy directives
    | some ⟨_, _, directives, .enum values⟩ =>
      usedBy directives ++ values.flatMap fun value => usedBy value.directives
    | some ⟨_, _, directives, .input fields⟩ => usedBy directives ++ usedByInputs fields
    | _ => []

def directivesSound : Bool :=
  allDistinct (declarations.directives.map (·.name)) &&
    declarations.directives.all fun directive =>
      !isReserved directive.name && declarations.inputsSound directive.arguments &&
        isAcyclic declarations.uses
          (declarations.types.keys ++
            declarations.directives.map fun directive => directiveNode directive.name)
          (directiveNode directive.name)

/-- All rules but those on the use of directives. -/
def isSound : Bool :=
  declarations.rootsSound && declarations.directivesSound &&
    declarations.types.all fun entry => declarations.typeSound entry.2

/-- The directives in a declaration, with the places where they stand. -/
def inputApplications (location : DirectiveLocation) (inputs : List InputDefinition) :
    List (DirectiveLocation × List Directive) :=
  inputs.map fun input => (location, input.directives)

def fieldApplications (fields : List FieldDefinition) : List (DirectiveLocation × List Directive) :=
  fields.flatMap fun field =>
    (.fieldDefinition, field.directives) :: inputApplications .argumentDefinition field.arguments

def typeApplications (definition : TypeDefinition) : List (DirectiveLocation × List Directive) :=
  match definition.body with
  | .scalar => [(.scalar, definition.directives)]
  | .enum values =>
    (.enum, definition.directives) :: values.map fun value => (.enumValue, value.directives)
  | .object _ fields => (.object, definition.directives) :: fieldApplications fields
  | .interface _ fields => (.interface, definition.directives) :: fieldApplications fields
  | .union _ => [(.union, definition.directives)]
  | .input fields =>
    (.inputObject, definition.directives) :: inputApplications .inputFieldDefinition fields

def applications : List (DirectiveLocation × List Directive) :=
  (.schema, declarations.schemaDirectives) ::
    (declarations.directives.flatMap fun directive =>
      inputApplications .argumentDefinition directive.arguments) ++
    declarations.types.flatMap fun entry => typeApplications entry.2

end MockGraph.Declarations
