import MockGraph.Proofs.Operation.Coercion
set_option autoImplicit false

namespace MockGraph

open Syntax

namespace Syntax

mutual

/-- A value in which a literal stands for a variable, and `null` if there is no literal. -/
def Literal.inlined (name : String) (given : Option Literal) : Literal → Literal
  | .variable other => if other = name then given.getD .null else .variable other
  | .list items => .list (Literal.inlinedItems name given items)
  | .object fields => .object (Literal.inlinedFields name given fields)
  | literal => literal

def Literal.inlinedItems (name : String) (given : Option Literal) : List Literal → List Literal
  | [] => []
  | item :: items => Literal.inlined name given item :: Literal.inlinedItems name given items

def Literal.inlinedFields (name : String) (given : Option Literal) :
    List (String × Literal) → List (String × Literal)
  | [] => []
  | (field, value) :: fields =>
    (field, Literal.inlined name given value) :: Literal.inlinedFields name given fields

end

/-- The value of an argument. One that is the variable itself is left out if there is no literal for
it. -/
def Literal.inlined? (name : String) (given : Option Literal) : Literal → Option Literal
  | .variable other => if other = name then given else some (.variable other)
  | literal => some (literal.inlined name given)

def inlinedArguments (name : String) (given : Option Literal)
    (arguments : List (String × Literal)) : List (String × Literal) :=
  arguments.filterMap fun argument => (argument.2.inlined? name given).map (argument.1, ·)

section

variable {name : String} {given : Option Literal} {argument : String × Literal} {literal : Literal}
  (rest : List (String × Literal))

theorem inlinedArguments_cons_none (out : argument.2.inlined? name given = none) :
    inlinedArguments name given (argument :: rest) = inlinedArguments name given rest :=
  List.filterMap_cons_none (by rw [out, Option.map_none])

theorem inlinedArguments_cons_some (kept : argument.2.inlined? name given = some literal) :
    inlinedArguments name given (argument :: rest) =
      (argument.1, literal) :: inlinedArguments name given rest :=
  List.filterMap_cons_some (by rw [kept, Option.map_some])

end

namespace Directive

/-- A condition that is read off the variable alone. -/
def conditionedOn (name : String) (directive : Directive) : Bool :=
  directive.isConditional &&
    match directive.arguments.lookup "if" with
    | some (.variable other) => other == name
    | _ => false

def inlined (name : String) (given : Option Literal) (directive : Directive) : Directive :=
  { directive with arguments := inlinedArguments name given directive.arguments }

/-- The directives of one selection. If there is no literal for the variable, those conditioned on
it are left out. Of the directives with one name only the first counts, so those after it are left
out as well. -/
def inlinedAll (name : String) (given : Option Literal) : List Directive → List Directive
  | [] => []
  | directive :: rest =>
    if given.isNone && directive.conditionedOn name then
      (inlinedAll name given rest).filter fun other => other.name != directive.name
    else directive.inlined name given :: inlinedAll name given rest

theorem inlinedAll_some (name : String) (literal : Literal) (directives : List Directive) :
    inlinedAll name (some literal) directives = directives.map (inlined name (some literal)) := by
  induction directives with
  | nil => rw [inlinedAll, List.map_nil]
  | cons directive rest ih =>
    rw [inlinedAll, Option.isNone_some, Bool.false_and, if_neg Bool.false_ne_true, ih,
      List.map_cons]

/-- Where no two directives have one name, only those conditioned on the variable are left out. -/
theorem inlinedAll_none_of_nodup (name : String) (directives : List Directive)
    (distinct : (directives.map (·.name)).Nodup) :
    inlinedAll name none directives =
      (directives.filter fun directive => !directive.conditionedOn name).map
        (inlined name none) := by
  induction directives with
  | nil => rw [inlinedAll, List.filter_nil, List.map_nil]
  | cons directive rest ih =>
    rw [List.map_cons, List.nodup_cons] at distinct
    rw [inlinedAll, ih distinct.2, Option.isNone_none, Bool.true_and]
    cases conditioned : directive.conditionedOn name with
    | false =>
      rw [if_neg Bool.false_ne_true, List.filter_cons_of_pos (by rw [conditioned]; rfl),
        List.map_cons]
    | true =>
      rw [if_pos rfl, List.filter_cons_of_neg (by simp [conditioned]), List.filter_eq_self]
      intro other member
      obtain ⟨original, inside, rfl⟩ := List.mem_map.mp member
      have different : original.name ≠ directive.name := fun same =>
        distinct.1 (List.mem_map.mpr ⟨original, List.mem_of_mem_filter inside, same⟩)
      simpa [inlined] using different

end Directive

mutual

/-- A selection in which a literal stands for a variable. -/
def Selection.inlined (name : String) (given : Option Literal) : Selection → Selection
  | .field responseName fieldName arguments directives selection =>
    .field responseName fieldName (inlinedArguments name given arguments)
      (Directive.inlinedAll name given directives) (Selection.inlinedOf name given selection)
  | .spread fragment directives => .spread fragment (Directive.inlinedAll name given directives)
  | .inline condition directives selection =>
    .inline condition (Directive.inlinedAll name given directives)
      (Selection.inlinedOf name given selection)

def Selection.inlinedOf (name : String) (given : Option Literal) : List Selection → List Selection
  | [] => []
  | selection :: rest =>
    Selection.inlined name given selection :: Selection.inlinedOf name given rest

end

def FragmentDefinition.inlined (name : String) (given : Option Literal)
    (fragment : FragmentDefinition) : FragmentDefinition :=
  { fragment with selection := Selection.inlinedOf name given fragment.selection }

end Syntax

mutual

theorem Syntax.Literal.valueOrNull_of_closed (bindings : Ordered String Json) :
    ∀ literal : Literal, literal.variableNames = [] →
      literal.valueOrNull bindings = literal.constant
  | .variable name, closed => by
    rw [Literal.variableNames] at closed
    cases closed
  | .list items, closed => by
    rw [Literal.variableNames] at closed
    rw [Literal.constant, Literal.valueOrNull, Literal.valueOrNull,
      Literal.itemValues_of_closed bindings items closed]
  | .object fields, closed => by
    rw [Literal.variableNames] at closed
    rw [Literal.constant, Literal.valueOrNull, Literal.valueOrNull,
      Literal.fieldValues_of_closed bindings fields closed]
  | .null, _ | .bool _, _ | .int _, _ | .float _, _ | .string _, _ | .enum _, _ => by
    simp only [Literal.constant, Literal.valueOrNull]

theorem Syntax.Literal.itemValues_of_closed (bindings : Ordered String Json) :
    ∀ items : List Literal, Literal.itemVariables items = [] →
      Literal.itemValues bindings items = Literal.itemValues [] items
  | [], _ => by rw [Literal.itemValues, Literal.itemValues]
  | item :: items, closed => by
    rw [Literal.itemVariables, List.append_eq_nil_iff] at closed
    rw [Literal.itemValues, Literal.itemValues,
      Literal.valueOrNull_of_closed bindings item closed.1,
      Literal.itemValues_of_closed bindings items closed.2, Literal.constant]

theorem Syntax.Literal.fieldValues_of_closed (bindings : Ordered String Json) :
    ∀ fields : List (String × Literal), Literal.fieldVariables fields = [] → ∀ read,
      Literal.fieldValues bindings fields read = Literal.fieldValues [] fields read
  | [], _, read => by rw [Literal.fieldValues, Literal.fieldValues]
  | (name, value) :: fields, closed, read => by
    rw [Literal.fieldVariables, List.append_eq_nil_iff] at closed
    rw [Literal.fieldValues, Literal.fieldValues,
      Literal.valueOrNull_of_closed bindings value closed.1,
      Literal.fieldValues_of_closed bindings fields closed.2, Literal.constant]

end

theorem Syntax.Literal.value?_of_closed (bindings : Ordered String Json) {literal : Literal}
    (closed : literal.variableNames = []) : literal.value? bindings = some literal.constant := by
  cases literal with
  | «variable» name =>
    rw [Literal.variableNames] at closed
    cases closed
  | _ => exact congrArg some (Literal.valueOrNull_of_closed bindings _ closed)

/-- What may stand for a variable: a literal without variables that has its value, or nothing if it
has none. -/
structure StandsFor (bindings : Ordered String Json) (name : String) (given : Option Literal) :
    Prop where
  value : Ordered.get? bindings name = given.map Literal.constant
  closed : ∀ literal, given = some literal → literal.variableNames = []

namespace StandsFor

variable {schema : TypeSystem} {bindings : Ordered String Json} {name : String}
  {given : Option Literal}

theorem valueOrNull_given (stands : StandsFor bindings name given) :
    (given.getD .null).valueOrNull bindings = (Ordered.get? bindings name).getD .null := by
  rw [stands.value]
  cases given with
  | none => rw [Option.getD_none, Literal.valueOrNull, Option.map_none, Option.getD_none]
  | some literal =>
    exact Literal.valueOrNull_of_closed bindings literal (stands.closed literal rfl)

mutual

theorem valueOrNull_inlined (stands : StandsFor bindings name given) :
    ∀ literal : Literal,
      (literal.inlined name given).valueOrNull bindings = literal.valueOrNull bindings
  | .variable other => by
    rw [Literal.inlined]
    split
    · rename_i same
      rw [stands.valueOrNull_given, ← same, Literal.valueOrNull]
    · rfl
  | .list items => by
    rw [Literal.inlined, Literal.valueOrNull, Literal.valueOrNull, stands.itemValues_inlined items]
  | .object fields => by
    rw [Literal.inlined, Literal.valueOrNull, Literal.valueOrNull,
      stands.fieldValues_inlined fields]
  | .null | .bool _ | .int _ | .float _ | .string _ | .enum _ => by rw [Literal.inlined] <;> nofun

theorem itemValues_inlined (stands : StandsFor bindings name given) :
    ∀ items : List Literal, Literal.itemValues bindings (Literal.inlinedItems name given items) =
      Literal.itemValues bindings items
  | [] => by rw [Literal.inlinedItems]
  | item :: items => by
    rw [Literal.inlinedItems, Literal.itemValues, Literal.itemValues,
      stands.valueOrNull_inlined item, stands.itemValues_inlined items]

theorem fieldValues_inlined (stands : StandsFor bindings name given) :
    ∀ (fields : List (String × Literal)) (read : Ordered String Json),
      Literal.fieldValues bindings (Literal.inlinedFields name given fields) read =
        Literal.fieldValues bindings fields read
  | [], read => by rw [Literal.inlinedFields]
  | (field, value) :: fields, read => by
    rw [Literal.inlinedFields, Literal.fieldValues, Literal.fieldValues,
      stands.valueOrNull_inlined value, stands.fieldValues_inlined fields]

end

theorem value?_inlined? (stands : StandsFor bindings name given) (literal : Literal) :
    ((literal.inlined? name given).bind fun inlined => inlined.value? bindings) =
      literal.value? bindings := by
  cases literal with
  | «variable» other =>
    rw [Literal.inlined?]
    split
    · rename_i same
      rw [same, Literal.value?, stands.value]
      cases given with
      | none => rfl
      | some literal => exact Literal.value?_of_closed bindings (stands.closed literal rfl)
    · rfl
  | _ => exact congrArg some (stands.valueOrNull_inlined _)

theorem giveArguments_inlined (stands : StandsFor bindings name given)
    (arguments : List (String × Literal)) (before : Ordered String Json) :
    (inlinedArguments name given arguments).foldl (giveArgument bindings) before =
      arguments.foldl (giveArgument bindings) before := by
  induction arguments generalizing before with
  | nil => rfl
  | cons argument rest ih =>
    have value := stands.value?_inlined? argument.2
    rw [List.foldl_cons, ← ih]
    cases inlined : argument.2.inlined? name given with
    | none =>
      rw [inlined, Option.bind_none] at value
      rw [inlinedArguments_cons_none rest inlined, giveArgument, ← value]
    | some literal =>
      rw [inlined, Option.bind_some] at value
      rw [inlinedArguments_cons_some rest inlined, List.foldl_cons, giveArgument, giveArgument,
        value]

/-- The same arguments are given, and the same defaults are added to them. -/
theorem givenArguments_inlined (stands : StandsFor bindings name given)
    (arguments : List (String × Literal)) :
    givenArguments bindings (inlinedArguments name given arguments) =
      givenArguments bindings arguments :=
  stands.giveArguments_inlined arguments []

end StandsFor

section Conditions

variable {bindings : Ordered String Json} {name : String} {given : Option Literal}

/-- The first argument with a name is still the first one, unless it is left out. -/
theorem lookup_inlinedArguments {arguments : List (String × Literal)} {key : String}
    {literal inlined : Literal} (found : arguments.lookup key = some literal)
    (kept : literal.inlined? name given = some inlined) :
    (inlinedArguments name given arguments).lookup key = some inlined := by
  induction arguments with
  | nil => cases found
  | cons argument rest ih =>
    obtain ⟨argumentName, value⟩ := argument
    cases same : key == argumentName with
    | true =>
      obtain rfl : value = literal := by simpa [List.lookup_cons, same] using found
      rw [inlinedArguments_cons_some rest kept, List.lookup_cons, same]
    | false =>
      have later := ih (by simpa [List.lookup_cons, same] using found)
      cases changed : value.inlined? name given with
      | none =>
        rw [inlinedArguments_cons_none rest changed]
        exact later
      | some other =>
        rw [inlinedArguments_cons_some rest changed, List.lookup_cons, same]
        exact later

/-- An argument that is looked up in vain is so afterwards. -/
theorem lookup_inlinedArguments_none {arguments : List (String × Literal)} {key : String}
    (absent : arguments.lookup key = none) :
    (inlinedArguments name given arguments).lookup key = none := by
  rw [List.lookup_eq_none_iff] at absent ⊢
  intro argument member
  obtain ⟨old, inside, changed⟩ := List.mem_filterMap.mp member
  obtain ⟨literal, -, rfl⟩ := Option.map_eq_some_iff.mp changed
  exact absent old inside

/-- The value of the condition that a directive gives. -/
def Syntax.Directive.condition? (bindings : Ordered String Json) (directive : Directive) :
    Option Bool :=
  (directive.arguments.lookup "if").bind fun literal => (literal.value? bindings).bind Json.asBool?

theorem conditionOf?_cons (directive : Directive) (rest : List Directive) (key : String) :
    conditionOf? bindings (directive :: rest) key =
      if directive.name = key then directive.condition? bindings
      else conditionOf? bindings rest key := by
  by_cases same : directive.name = key
  · rw [if_pos same, conditionOf?, List.find?_cons_of_pos (by simpa using same)]
    rfl
  · rw [if_neg same, conditionOf?, List.find?_cons_of_neg (by simpa using same)]
    rfl

theorem conditionOf?_filter (directives : List Directive) (other key : String) :
    conditionOf? bindings (directives.filter fun directive => directive.name != other) key =
      if key = other then none else conditionOf? bindings directives key := by
  induction directives with
  | nil => rw [List.filter_nil, conditionOf?, List.find?_nil]; exact (ite_self _).symm
  | cons directive rest ih =>
    by_cases named : directive.name = other
    · rw [List.filter_cons_of_neg (by simp [named]), ih, conditionOf?_cons]
      split
      · rfl
      · rename_i different
        rw [if_neg (fun same => different (same.symm.trans named))]
    · rw [List.filter_cons_of_pos (by simpa using named), conditionOf?_cons, conditionOf?_cons, ih]
      split
      · rename_i same
        rw [if_neg (same ▸ named)]
      · rfl

/-- A directive that is conditioned on a variable without a value gives no condition. -/
theorem condition?_of_conditionedOn {directive : Directive}
    (absent : Ordered.get? bindings name = none)
    (conditioned : directive.conditionedOn name = true) : directive.condition? bindings = none := by
  rw [Directive.conditionedOn, Bool.and_eq_true] at conditioned
  have literal := conditioned.2
  split at literal
  · rename_i other found
    rw [Directive.condition?, found, Option.bind_some, Literal.value?, beq_iff_eq.mp literal,
      absent, Option.bind_none]
  · cases literal

theorem StandsFor.condition?_inlined (stands : StandsFor bindings name given)
    {directive : Directive} (conditional : directive.isConditional = true)
    (kept : (given.isNone && directive.conditionedOn name) = false) :
    (directive.inlined name given).condition? bindings = directive.condition? bindings := by
  rw [Directive.condition?, Directive.condition?, Directive.inlined]
  cases found : directive.arguments.lookup "if" with
  | none => rw [lookup_inlinedArguments_none found, Option.bind_none]
  | some literal =>
    have value := stands.value?_inlined? literal
    cases changed : literal.inlined? name given with
    | none =>
      have conditioned : given.isNone = true ∧ directive.conditionedOn name = true := by
        cases literal with
        | «variable» other =>
          rw [Literal.inlined?] at changed
          split at changed
          · rename_i same
            rw [changed, Directive.conditionedOn, found, conditional]
            exact ⟨rfl, by simpa using same⟩
          · cases changed
        | _ => cases changed
      rw [conditioned.1, conditioned.2] at kept
      cases kept
    | some inlined =>
      rw [changed, Option.bind_some] at value
      rw [lookup_inlinedArguments found changed, Option.bind_some, Option.bind_some, value]

/-- Conditions have the values that they had. Where a directive is left out it had none, and neither
has the one that would come first without it. -/
theorem StandsFor.conditionOf?_inlinedAll (stands : StandsFor bindings name given)
    (directives : List Directive) {key : String} (conditional : key = "skip" ∨ key = "include") :
    conditionOf? bindings (Directive.inlinedAll name given directives) key =
      conditionOf? bindings directives key := by
  induction directives with
  | nil => rw [Directive.inlinedAll]
  | cons directive rest ih =>
    rw [Directive.inlinedAll, conditionOf?_cons]
    cases left : given.isNone && directive.conditionedOn name with
    | true =>
      obtain ⟨absent, conditioned⟩ := Bool.and_eq_true_iff.mp left
      have none : Ordered.get? bindings name = none := by
        rw [stands.value, Option.isNone_iff_eq_none.mp absent, Option.map_none]
      rw [if_pos rfl, conditionOf?_filter, ih]
      -- the one that is left out says nothing, but as the first of its name it kept those after it
      -- from counting
      by_cases same : key = directive.name
      · rw [if_pos same, if_pos same.symm, condition?_of_conditionedOn none conditioned]
      · rw [if_neg same, if_neg (Ne.symm same)]
    | false =>
      rw [if_neg Bool.false_ne_true, conditionOf?_cons, ih]
      show (if directive.name = key then _ else _) = _
      split
      · rename_i same
        have isConditional : directive.isConditional = true := by
          rcases conditional with rfl | rfl <;> simp [Directive.isConditional, same]
        exact stands.condition?_inlined isConditional left
      · rfl

theorem StandsFor.included_inlinedAll (stands : StandsFor bindings name given)
    (directives : List Directive) :
    included bindings (Directive.inlinedAll name given directives) =
      included bindings directives := by
  rw [included, included, stands.conditionOf?_inlinedAll directives (Or.inl rfl),
    stands.conditionOf?_inlinedAll directives (Or.inr rfl)]

end Conditions

section Lowering

variable {schema : TypeSystem} {bindings : Ordered String Json} {name : String}
  {given : Option Literal}

theorem directives_inlined (selection : Selection) :
    (selection.inlined name given).directives =
      Directive.inlinedAll name given selection.directives := by
  cases selection <;> rw [Selection.inlined, Selection.directives, Selection.directives]

theorem find?_inlined (name : String) (given : Option Literal) (fragments : List FragmentDefinition)
    (other : String) :
    (fragments.map (FragmentDefinition.inlined name given)).find? (·.name == other) =
      (fragments.find? (·.name == other)).map (FragmentDefinition.inlined name given) := by
  rw [List.find?_map]
  rfl

theorem withoutFragment_inlined (fragments : List FragmentDefinition) (other : String) :
    withoutFragment (fragments.map (FragmentDefinition.inlined name given)) other =
      (withoutFragment fragments other).map (FragmentDefinition.inlined name given) := by
  rw [withoutFragment, List.filter_map]
  rfl

theorem StandsFor.lowerSelection_inlined (stands : StandsFor bindings name given)
    (fragments : List FragmentDefinition) (parent : String) (selection : List Selection) :
    lowerSelection schema bindings (fragments.map (FragmentDefinition.inlined name given)) parent
        (Selection.inlinedOf name given selection) =
      lowerSelection schema bindings fragments parent selection := by
  induction fragments, parent, selection using lowerSelection.induct schema bindings with
  | case1 fragments parent => rw [Selection.inlinedOf, lowerSelection_nil, lowerSelection_nil]
  | case2 fragments parent aliasName field arguments directives selection rest isIncluded definition
      fieldType ihRest ihBelow =>
    have stillIncluded := (stands.included_inlinedAll directives).trans isIncluded
    rw [Selection.inlinedOf, Selection.inlined, lowerSelection_field stillIncluded,
      lowerSelection_field isIncluded, ihRest]
    have values :
        FieldNode.values schema bindings ⟨parent, field, aliasName,
            inlinedArguments name given arguments, Selection.inlinedOf name given selection⟩ =
          FieldNode.values schema bindings ⟨parent, field, aliasName, arguments, selection⟩ := by
      rw [FieldNode.values, FieldNode.values, stands.givenArguments_inlined]
      rfl
    rw [FieldNode.lower, FieldNode.lower, values]
    exact congrArg
      (fun below => (⟨field, aliasName, _, mergeFields below []⟩ : FieldSelection) :: _) ihBelow
  | case4 fragments parent condition directives selection rest isIncluded ihRest ihInside =>
    have stillIncluded := (stands.included_inlinedAll directives).trans isIncluded
    rw [Selection.inlinedOf, Selection.inlined, lowerSelection_inline stillIncluded,
      lowerSelection_inline isIncluded, ihRest, ihInside]
  | case6 fragments parent spread directives rest isIncluded ihRest ihInside =>
    have stillIncluded := (stands.included_inlinedAll directives).trans isIncluded
    rw [Selection.inlinedOf, Selection.inlined, lowerSelection_spread stillIncluded,
      lowerSelection_spread isIncluded, ihRest]
    congr 1
    cases found : fragments.find? (·.name == spread) with
    | none => rw [lowerFragment, lowerFragment, find?_inlined, found, Option.map_none]
    | some fragment =>
      have foundInlined :=
        (find?_inlined name given fragments spread).trans (by rw [found, Option.map_some])
      rw [lowerFragment_of_found found, lowerFragment_of_found foundInlined,
        withoutFragment_inlined]
      exact ihInside fragment found
  | case3 fragments parent aliasName field arguments directives selection rest out ih
  | case5 fragments parent condition directives selection rest out ih
  | case7 fragments parent spread directives rest out ih =>
    have isOut := Bool.eq_false_iff.mpr out
    rw [Selection.inlinedOf, lowerSelection_of_dropped, lowerSelection_of_dropped isOut, ih]
    rw [directives_inlined, stands.included_inlinedAll]
    exact isOut

end Lowering

section Unused

variable {name : String} {given : Option Literal}

mutual

theorem Syntax.Literal.notMem_inlined
    (closed : ∀ literal, given = some literal → literal.variableNames = []) :
    ∀ literal : Literal, name ∉ (literal.inlined name given).variableNames
  | .variable other => by
    rw [Literal.inlined]
    split
    · cases given with
      | none => rw [Option.getD_none, Literal.variableNames] <;> nofun
      | some literal => rw [Option.getD_some, closed literal rfl]; exact List.not_mem_nil
    · rename_i different
      rw [Literal.variableNames, List.mem_singleton]
      exact Ne.symm different
  | .list items => by
    rw [Literal.inlined, Literal.variableNames]
    exact Literal.notMem_inlinedItems closed items
  | .object fields => by
    rw [Literal.inlined, Literal.variableNames]
    exact Literal.notMem_inlinedFields closed fields
  | .null | .bool _ | .int _ | .float _ | .string _ | .enum _ => by
    simp [Literal.inlined, Literal.variableNames]

theorem Syntax.Literal.notMem_inlinedItems
    (closed : ∀ literal, given = some literal → literal.variableNames = []) :
    ∀ items : List Literal, name ∉ Literal.itemVariables (Literal.inlinedItems name given items)
  | [] => by rw [Literal.inlinedItems, Literal.itemVariables]; exact List.not_mem_nil
  | item :: items => by
    rw [Literal.inlinedItems, Literal.itemVariables, List.mem_append, not_or]
    exact ⟨Literal.notMem_inlined closed item, Literal.notMem_inlinedItems closed items⟩

theorem Syntax.Literal.notMem_inlinedFields
    (closed : ∀ literal, given = some literal → literal.variableNames = []) :
    ∀ fields : List (String × Literal),
      name ∉ Literal.fieldVariables (Literal.inlinedFields name given fields)
  | [] => by rw [Literal.inlinedFields, Literal.fieldVariables]; exact List.not_mem_nil
  | (_, value) :: fields => by
    rw [Literal.inlinedFields, Literal.fieldVariables, List.mem_append, not_or]
    exact ⟨Literal.notMem_inlined closed value, Literal.notMem_inlinedFields closed fields⟩

end

theorem Syntax.Literal.notMem_of_inlined?
    (closed : ∀ literal, given = some literal → literal.variableNames = [])
    {literal inlined : Literal} (changed : literal.inlined? name given = some inlined) :
    name ∉ inlined.variableNames := by
  cases literal with
  | «variable» other =>
    rw [Literal.inlined?] at changed
    split at changed
    · rw [closed inlined changed]
      exact List.not_mem_nil
    · rename_i different
      obtain rfl := Option.some.inj changed
      rw [Literal.variableNames, List.mem_singleton]
      exact Ne.symm different
  | _ =>
    obtain rfl := Option.some.inj changed
    exact Literal.notMem_inlined closed _

theorem notMem_inlinedArguments
    (closed : ∀ literal, given = some literal → literal.variableNames = [])
    (arguments : List (String × Literal)) :
    name ∉ Literal.fieldVariables (inlinedArguments name given arguments) := by
  induction arguments with
  | nil => rw [inlinedArguments, List.filterMap_nil, Literal.fieldVariables]; exact List.not_mem_nil
  | cons argument rest ih =>
    cases changed : argument.2.inlined? name given with
    | none =>
      rw [inlinedArguments_cons_none rest changed]
      exact ih
    | some inlined =>
      rw [inlinedArguments_cons_some rest changed, Literal.fieldVariables, List.mem_append, not_or]
      exact ⟨Literal.notMem_of_inlined? closed changed, ih⟩

theorem Syntax.Directive.mem_inlinedAll {directives : List Directive} {directive : Directive}
    (member : directive ∈ Directive.inlinedAll name given directives) :
    ∃ original ∈ directives, directive = original.inlined name given := by
  induction directives with
  | nil => cases member
  | cons first rest ih =>
    have later : directive ∈ Directive.inlinedAll name given rest →
        ∃ original ∈ first :: rest, directive = original.inlined name given := by
      intro inside
      obtain ⟨original, member, same⟩ := ih inside
      exact ⟨original, List.mem_cons_of_mem _ member, same⟩
    rw [Directive.inlinedAll] at member
    split at member
    · exact later (List.mem_of_mem_filter member)
    · rcases List.mem_cons.mp member with rfl | inside
      · exact ⟨first, List.mem_cons_self, rfl⟩
      · exact later inside

theorem notMem_inlinedDirectives
    (closed : ∀ literal, given = some literal → literal.variableNames = [])
    (directives : List Directive) :
    name ∉ Directive.variableNames (Directive.inlinedAll name given directives) := by
  rw [Directive.variableNames, List.mem_flatMap]
  rintro ⟨directive, member, used⟩
  obtain ⟨original, -, rfl⟩ := Directive.mem_inlinedAll member
  exact notMem_inlinedArguments closed original.arguments used

mutual

theorem Syntax.Selection.notMem_inlined
    (closed : ∀ literal, given = some literal → literal.variableNames = []) :
    ∀ selection : Selection, name ∉ (selection.inlined name given).variableNames
  | .field _ _ arguments directives selection => by
    rw [Selection.inlined, Selection.variableNames, List.mem_append, List.mem_append, not_or,
      not_or]
    exact ⟨⟨notMem_inlinedArguments closed arguments, notMem_inlinedDirectives closed directives⟩,
      Selection.notMem_inlinedOf closed selection⟩
  | .spread _ directives => by
    rw [Selection.inlined, Selection.variableNames]
    exact notMem_inlinedDirectives closed directives
  | .inline _ directives selection => by
    rw [Selection.inlined, Selection.variableNames, List.mem_append, not_or]
    exact ⟨notMem_inlinedDirectives closed directives, Selection.notMem_inlinedOf closed selection⟩

theorem Syntax.Selection.notMem_inlinedOf
    (closed : ∀ literal, given = some literal → literal.variableNames = []) :
    ∀ selection : List Selection,
      name ∉ Selection.variablesOf (Selection.inlinedOf name given selection)
  | [] => by rw [Selection.inlinedOf, Selection.variablesOf]; exact List.not_mem_nil
  | selection :: rest => by
    rw [Selection.inlinedOf, Selection.variablesOf, List.mem_append, not_or]
    exact ⟨Selection.notMem_inlined closed selection, Selection.notMem_inlinedOf closed rest⟩

end

end Unused

/-- A variable is replaced in a selection and in the fragments around it: nothing uses it any more,
and the same is selected. -/
structure Inlines (schema : TypeSystem) (bindings : Ordered String Json)
    (fragments : List FragmentDefinition) (parent : String) (selection : List Selection)
    (name : String) (given : Option Literal) : Prop where
  unused : name ∉ Selection.variablesOf (Selection.inlinedOf name given selection)
  unusedInFragments : ∀ fragment ∈ fragments,
      name ∉ Selection.variablesOf (fragment.inlined name given).selection
  lowered :
      mergeFields (lowerSelection schema bindings
            (fragments.map (FragmentDefinition.inlined name given)) parent
            (Selection.inlinedOf name given selection)) [] =
        mergeFields (lowerSelection schema bindings fragments parent selection) []

theorem StandsFor.inlines {bindings : Ordered String Json} {name : String} {given : Option Literal}
    (stands : StandsFor bindings name given) (schema : TypeSystem)
    (fragments : List FragmentDefinition) (parent : String) (selection : List Selection) :
    Inlines schema bindings fragments parent selection name given where
  unused := Selection.notMem_inlinedOf stands.closed selection
  unusedInFragments := fun fragment _ => Selection.notMem_inlinedOf stands.closed fragment.selection
  lowered := by rw [stands.lowerSelection_inlined]

/-- A variable with a value can be replaced by a literal that has it, wherever it is used. A
variable without a value can be left out as an argument of its own, replaced by `null` inside lists
and objects, and left out with each directive conditioned on it, where the further directives of
that name go with it. -/
theorem selection_inlines (schema : TypeSystem) (bindings : Ordered String Json)
    (fragments : List FragmentDefinition) (parent : String) (selection : List Selection)
    (name : String) :
    (∀ literal : Literal, literal.variableNames = [] →
        Ordered.get? bindings name = some literal.constant →
        Inlines schema bindings fragments parent selection name (some literal)) ∧
      (Ordered.get? bindings name = none →
        Inlines schema bindings fragments parent selection name none) := by
  constructor
  · intro literal closed value
    have stands : StandsFor bindings name (some literal) :=
      ⟨value, fun other same => Option.some.inj same ▸ closed⟩
    exact stands.inlines schema fragments parent selection
  · intro absent
    have stands : StandsFor bindings name none := ⟨absent, nofun⟩
    exact stands.inlines schema fragments parent selection

namespace Funicular

/-- A lift has seats, four if nothing else is asked for. -/
def seated : TypeSystem where
  query := "Query"
  mutation := none
  subscription := none
  types :=
    [("Int", .scalar "Int" none),
      ("Query", .object "Query" none
        [("lift", ⟨"lift", none, .named "Int",
          [("seats", ⟨"seats", none, .named "Int", some (.ofInt 4)⟩),
            ("days", ⟨"days", none, .list (.named "Int"), none⟩)]⟩)])]
  directives := Introspection.directives

/-- The lift with as many seats as the number says, and on that day. -/
def selection : List Selection :=
  [.field none "lift" [("seats", .variable "n"), ("days", .list [.variable "n"])] [] []]

/-- Two seats on the second day. Without a number, four seats on a day that is not known. -/
theorem selection_inlines_seats :
    (Literal.int "2").variableNames = [] ∧
      Ordered.get? [("n", Json.ofInt 2)] "n" = some (Literal.int "2").constant ∧
      mergeFields (lowerSelection seated [("n", .ofInt 2)] [] "Query"
            [.field none "lift" [("seats", .int "2"), ("days", .list [.int "2"])] [] []]) [] =
        [⟨"lift", none, [("seats", .ofInt 2), ("days", .array [.ofInt 2])], []⟩] ∧
      Ordered.get? ([] : Ordered String Json) "n" = none ∧
      mergeFields
          (lowerSelection seated [] [] "Query" [.field none "lift" [("days", .list [.null])] [] []])
          [] = [⟨"lift", none, [("days", .array [.null]), ("seats", .ofInt 4)], []⟩] := by
  have value : Ordered.get? [("n", Json.ofInt 2)] "n" = some (Literal.int "2").constant := by decide
  have given :=
    (selection_inlines seated [("n", .ofInt 2)] [] "Query" selection "n").1 (.int "2") rfl value
  have absent := (selection_inlines seated [] [] "Query" selection "n").2 rfl
  refine ⟨rfl, value, given.lowered.trans ?_, rfl, absent.lowered.trans ?_⟩
  · rw [selection, lowerSelection_field rfl, lowerSelection_nil, FieldNode.lower,
      lowerSelection_nil]
    rfl
  · rw [selection, lowerSelection_field rfl, lowerSelection_nil, FieldNode.lower,
      lowerSelection_nil]
    rfl

/-- A schema that lets a field be skipped for several reasons. -/
def sdl : String := "directive @skip(if:Boolean)repeatable on FIELD type Query{lift:Int}"

def schema : TypeSystem where
  query := "Query"
  mutation := none
  subscription := none
  types :=
    [("Int", .scalar "Int" none), ("String", .scalar "String" none),
      ("Boolean", .scalar "Boolean" none),
      ("Query", .object "Query" none [("lift", ⟨"lift", none, .named "Int", []⟩)])]
  directives :=
    Ordered.insert Introspection.directives "skip"
      ⟨"skip", [("if", ⟨"if", none, .named "Boolean", none⟩)], true, [.field]⟩

theorem loaded : TypeSystem.parse sdl = .ok schema := rfl

/-- The first condition has no value, and the second one is never looked at. -/
def text : String := "query($x:Boolean){lift @skip(if:$x) @skip(if:true)}"

def definition : OperationDefinition :=
  ⟨.query, none, [⟨"x", .named "Boolean", none, []⟩], [],
    [.field none "lift" [] [⟨"skip", [("if", .variable "x")]⟩, ⟨"skip", [("if", .bool true)]⟩] []]⟩

theorem read : Document.parse? text = some ⟨[definition], []⟩ := rfl

theorem parsed : schema.parseOperation text none none =
    .ok ⟨.query, none, [⟨"lift", none, [], []⟩], []⟩ := by
  have sound : schema.documentSound ⟨[definition], []⟩ = true :=
    TypeSystem.documentSound_of_leaf rfl rfl rfl rfl rfl
  have lowered : schema.lowerOperation ⟨[definition], []⟩ definition [] =
      ⟨.query, none, [⟨"lift", none, [], []⟩], []⟩ :=
    TypeSystem.lowerOperation_of_leaf rfl rfl rfl rfl
  rw [← lowered]
  exact TypeSystem.parseOperation_of_sound read sound rfl rfl

/-- The lift is selected, and would not be if only the directive whose variable has no value were
left out. -/
theorem selected_until_left_out :
    TypeSystem.parse sdl = .ok schema ∧ Document.parse? text = some ⟨[definition], []⟩ ∧
      schema.parseOperation text none none = .ok ⟨.query, none, [⟨"lift", none, [], []⟩], []⟩ ∧
      Ordered.get? ([] : Ordered String Json) "x" = none ∧
      definition.selection =
        [.field none "lift" [] [⟨"skip", [("if", .variable "x")]⟩, ⟨"skip", [("if", .bool true)]⟩]
          []] ∧
      mergeFields (lowerSelection schema [] [] "Query" definition.selection) [] ≠
        mergeFields (lowerSelection schema [] [] "Query"
            [.field none "lift" [] [⟨"skip", [("if", .bool true)]⟩] []]) [] := by
  refine ⟨loaded, read, parsed, rfl, rfl, ?_⟩
  rw [definition, lowerSelection_field rfl, lowerSelection_of_dropped rfl, lowerSelection_nil]
  intro same
  cases same

end Funicular

end MockGraph
