import MockGraph.Schema.Rules
set_option autoImplicit false

namespace MockGraph.Syntax

namespace Literal

mutual

def variableNames : Literal → List String
  | .variable name => [name]
  | .list items => itemVariables items
  | .object fields => fieldVariables fields
  | _ => []

def itemVariables : List Literal → List String
  | [] => []
  | item :: items => variableNames item ++ itemVariables items

def fieldVariables : List (String × Literal) → List String
  | [] => []
  | (_, value) :: fields => variableNames value ++ fieldVariables fields

end

mutual

/-- Values that are written alike, apart from the order of fields. -/
def alike : Literal → Literal → Bool
  | .null, .null => true
  | .bool a, .bool b => a == b
  | .int a, .int b => a == b
  | .float a, .float b => a == b
  | .string a, .string b => a == b
  | .enum a, .enum b => a == b
  | .variable a, .variable b => a == b
  | .list as, .list bs => alikeItems as bs
  | .object as, .object bs => as.length == bs.length && alikeFields as bs
  | _, _ => false

def alikeItems : List Literal → List Literal → Bool
  | [], [] => true
  | a :: as, b :: bs => alike a b && alikeItems as bs
  | _, _ => false

/-- Every field has a counterpart: the first with its name. -/
def alikeFields : List (String × Literal) → List (String × Literal) → Bool
  | [], _ => true
  | (name, a) :: as, bs =>
    (match bs.find? (·.1 == name) with
      | some (_, b) => alike a b
      | none => false) &&
    alikeFields as bs

end

end Literal

namespace Directive

def variableNames (directives : List Directive) : List String :=
  directives.flatMap fun directive => Literal.fieldVariables directive.arguments

/-- A condition on what it stands on: `@skip` or `@include`. -/
def isConditional (directive : Directive) : Bool :=
  directive.name == "skip" || directive.name == "include"

end Directive

namespace Selection

mutual

/-- The names of the fragments spread anywhere in a selection. -/
def spreads : Selection → List String
  | .field _ _ _ _ selection => spreadsOf selection
  | .spread fragment _ => [fragment]
  | .inline _ _ selection => spreadsOf selection

def spreadsOf : List Selection → List String
  | [] => []
  | selection :: rest => spreads selection ++ spreadsOf rest

end

mutual

/-- The variables used anywhere in a selection, without those in fragments that it spreads. -/
def variableNames : Selection → List String
  | .field _ _ arguments directives selection =>
    Literal.fieldVariables arguments ++ Directive.variableNames directives ++ variablesOf selection
  | .spread _ directives => Directive.variableNames directives
  | .inline _ directives selection => Directive.variableNames directives ++ variablesOf selection

def variablesOf : List Selection → List String
  | [] => []
  | selection :: rest => variableNames selection ++ variablesOf rest

end

mutual

/-- The number of selections at all depths. -/
def count : Selection → Nat
  | .field _ _ _ _ selection => 1 + countOf selection
  | .spread _ _ => 1
  | .inline _ _ selection => 1 + countOf selection

def countOf : List Selection → Nat
  | [] => 0
  | selection :: rest => count selection + countOf rest

end

mutual

/-- A selection with those inside inline fragments, but not below fields. -/
def level : Selection → List Selection
  | .inline condition directives selection =>
    .inline condition directives selection :: levelOf selection
  | selection => [selection]

def levelOf : List Selection → List Selection
  | [] => []
  | selection :: rest => level selection ++ levelOf rest

end

def directives : Selection → List Directive
  | .field _ _ _ directives _ | .spread _ directives | .inline _ directives _ => directives

end Selection

def withoutFragment (fragments : List FragmentDefinition) (name : String) :
    List FragmentDefinition :=
  fragments.filter fun fragment => fragment.name ≠ name

theorem length_withoutFragment_lt {fragments : List FragmentDefinition} {name : String}
    {fragment : FragmentDefinition} (found : fragments.find? (·.name == name) = some fragment) :
    (withoutFragment fragments name).length < fragments.length :=
  List.length_filter_lt_length_iff_exists.mpr
    ⟨fragment, List.mem_of_find?_eq_some found, by
      have named := List.find?_some found
      simp only [beq_iff_eq] at named
      simp [named]⟩

namespace Document

def fragment? (document : Document) (name : String) : Option FragmentDefinition :=
  document.fragments.find? (·.name == name)

def fragmentNames (document : Document) : List String := document.fragments.map (·.name)

/-- The fragments that a fragment spreads. -/
def spreadsIn (document : Document) (name : String) : List String :=
  match document.fragment? name with
  | some fragment => Selection.spreadsOf fragment.selection
  | none => []

/-- The fragments that a selection set needs. -/
def needed (document : Document) (selection : List Selection) : List String :=
  reachableFrom document.spreadsIn document.fragmentNames (Selection.spreadsOf selection)

/-- The variables that an operation uses, also in the fragments it needs. -/
def variablesUsed (document : Document) (operation : OperationDefinition) : List String :=
  Directive.variableNames operation.directives ++ Selection.variablesOf operation.selection ++
    (document.needed operation.selection).flatMap fun name =>
      match document.fragment? name with
      | some fragment => Selection.variablesOf fragment.selection
      | none => []

/-- Names are distinct, an operation without a name is the only one, and each fragment is needed and
does not need itself. -/
def namesSound (document : Document) : Bool :=
  TypeSystem.allDistinct (document.operations.filterMap (·.name)) &&
    (document.operations.all (·.name.isSome) || document.operations.length == 1) &&
    TypeSystem.allDistinct document.fragmentNames &&
    document.fragmentNames.all fun name =>
      isAcyclic document.spreadsIn document.fragmentNames name &&
        document.operations.any fun operation => (document.needed operation.selection).contains name

/-- The selections at the root of an operation, with those of each fragment that is spread there
once. -/
def rootLevel (document : Document) (operation : OperationDefinition) : List Selection :=
  let spreadNames (selection : List Selection) : List String :=
    (Selection.levelOf selection).filterMap fun selection => match selection with
      | .spread name _ => some name
      | _ => none
  let next (name : String) : List String :=
    match document.fragment? name with
    | some fragment => spreadNames fragment.selection
    | none => []
  let fragments := reachableFrom next document.fragmentNames (spreadNames operation.selection)
  Selection.levelOf operation.selection ++ fragments.flatMap fun name =>
    match document.fragment? name with
    | some fragment => Selection.levelOf fragment.selection
    | none => []

/-- A subscription has one root field that the schema declares, and no conditions on it. -/
def subscriptionSound (document : Document) (operation : OperationDefinition) : Bool :=
  operation.kind != .subscription ||
    let level := document.rootLevel operation
    let names := level.filterMap fun selection => match selection with
      | .field _ name _ _ _ => some name
      | _ => none
    names.length == 1 && !names.any (["__typename", "__schema", "__type"].contains ·) &&
      level.all fun selection => !selection.directives.any Directive.isConditional

end Document

end MockGraph.Syntax

namespace MockGraph.TypeSystem

open Syntax

def operationLocation : OperationKind → DirectiveLocation
  | .query => .query
  | .mutation => .mutation
  | .subscription => .subscription

/-- Variables are distinct, of input types, and their defaults fit. -/
def variablesSound (schema : TypeSystem) (variableDefs : List VariableDefinition) : Bool :=
  allDistinct (variableDefs.map (·.name)) &&
    variableDefs.all fun declared =>
      schema.directivesAllowed .variableDefinition [] declared.directives &&
        (match schema.typeNamed? declared.type.namedType with
          | some type => type.isInput
          | none => false) &&
        match declared.default with
        | some value => schema.accepts [] declared.type value
        | none => true

/-- Fields are selected below objects and nowhere else. -/
def selectsRightly (schema : TypeSystem) (type : TypeRef) (selection : List Selection) : Bool :=
  match schema.typeNamed? type.namedType with
  | some definition => definition.isLeaf == selection.isEmpty
  | none => false

/-- The selections on a type are sound, in a document with these fragments. A fragment inside itself
is refused. -/
def selectionSound (schema : TypeSystem) (variableDefs : List VariableDefinition)
    (fragments : List FragmentDefinition) (parent : String) : List Selection → Bool
  | [] => true
  | .field _ name arguments directives selection :: rest =>
    (match schema.selectable? parent name with
      | none => false
      | some field =>
        schema.directivesAllowed .field variableDefs directives &&
          schema.argumentsAllowed variableDefs field.arguments arguments &&
          schema.selectsRightly field.type selection &&
          selectionSound schema variableDefs fragments field.type.namedType selection) &&
    selectionSound schema variableDefs fragments parent rest
  | .inline condition directives selection :: rest =>
    schema.directivesAllowed .inlineFragment variableDefs directives &&
      condition.all (· == parent) &&
      selectionSound schema variableDefs fragments parent selection &&
      selectionSound schema variableDefs fragments parent rest
  | .spread name directives :: rest =>
    schema.directivesAllowed .fragmentSpread variableDefs directives &&
      (match _found : fragments.find? (·.name == name) with
        | none => false
        | some fragment =>
          fragment.condition == parent &&
            selectionSound schema variableDefs (withoutFragment fragments name) parent
              fragment.selection) &&
      selectionSound schema variableDefs fragments parent rest
termination_by selection => (fragments.length, sizeOf selection)
decreasing_by
  all_goals first
    | (apply Prod.Lex.right; simp only [List.cons.sizeOf_spec, Selection.field.sizeOf_spec,
        Selection.inline.sizeOf_spec, Selection.spread.sizeOf_spec]; omega)
    | exact Prod.Lex.left _ _ (length_withoutFragment_lt (by assumption))

/-- A field at one level of a merged selection: its key, name and arguments, and what is selected
below it. -/
structure LevelField where
  key : String
  name : String
  arguments : List (String × Literal)
  selection : List Selection

/-- The fields of a selection set with its fragments in their places. -/
def levelFields (fragments : List FragmentDefinition) : List Selection → List LevelField
  | [] => []
  | .field responseName name arguments _ selection :: rest =>
    ⟨responseName.getD name, name, arguments, selection⟩ :: levelFields fragments rest
  | .inline _ _ selection :: rest => levelFields fragments selection ++ levelFields fragments rest
  | .spread name _ :: rest =>
    (match _found : fragments.find? (·.name == name) with
      | none => []
      | some fragment => levelFields (withoutFragment fragments name) fragment.selection) ++
    levelFields fragments rest
termination_by selection => (fragments.length, sizeOf selection)
decreasing_by
  all_goals first
    | (apply Prod.Lex.right; simp only [List.cons.sizeOf_spec, Selection.field.sizeOf_spec,
        Selection.inline.sizeOf_spec, Selection.spread.sizeOf_spec]; omega)
    | exact Prod.Lex.left _ _ (length_withoutFragment_lt (by assumption))

/-- Arguments that are the same, in any order. -/
def argumentsAlike (first second : List (String × Literal)) : Bool :=
  Literal.alikeFields first second && second.all fun argument => first.any (·.1 == argument.1)

/-- The keys in the order of their first occurrence. -/
def distinctKeys : List String → List String → List String
  | [], _ => []
  | key :: keys, seen =>
    if seen.contains key then distinctKeys keys seen else key :: distinctKeys keys (key :: seen)

/-- Fields under one key are the same field with the same arguments, and what is selected below them
can be merged too. The fuel bounds the depth. -/
def mergeable (fragments : List FragmentDefinition) : Nat → List Selection → Bool
  | 0, _ => false
  | fuel + 1, selection =>
    let fields := levelFields fragments selection
    (distinctKeys (fields.map (·.key)) []).all fun key =>
      match fields.filter (·.key == key) with
      | [] => true
      | first :: others =>
        (others.all fun other =>
            other.name == first.name && argumentsAlike first.arguments other.arguments) &&
          mergeable fragments fuel ((first :: others).flatMap (·.selection))

/-- No path through fields is longer than all selections of a document together. -/
def depthBound (document : Document) (operation : OperationDefinition) : Nat :=
  Selection.countOf operation.selection +
    document.fragments.foldr (fun fragment total => Selection.countOf fragment.selection + total)
      0 + 1

def operationSound (schema : TypeSystem) (document : Document) (operation : OperationDefinition) :
    Bool :=
  match schema.root? operation.kind with
  | none => false
  | some root =>
    schema.directivesAllowed (operationLocation operation.kind) operation.variableDefs
        operation.directives && schema.variablesSound operation.variableDefs &&
      (operation.variableDefs.all fun declared =>
        (document.variablesUsed operation).contains declared.name) &&
      document.subscriptionSound operation &&
      schema.selectionSound operation.variableDefs document.fragments root operation.selection &&
      mergeable document.fragments (depthBound document operation) operation.selection

def fragmentSound (schema : TypeSystem) (fragment : FragmentDefinition) : Bool :=
  schema.directivesAllowed .fragmentDefinition [] fragment.directives &&
    match schema.typeNamed? fragment.condition with
    | some (.object _ _ _) => true
    | _ => false

/-- A document keeps all rules for this schema. -/
def documentSound (schema : TypeSystem) (document : Document) : Bool :=
  document.namesSound && document.fragments.all schema.fragmentSound &&
    document.operations.all (schema.operationSound document)

end MockGraph.TypeSystem
