import MockGraph.Proofs.Operation.Evaluation
import MockGraph.Proofs.Operation.Merging
set_option autoImplicit false

namespace MockGraph

open Syntax FieldSelection

/-- A field as a document selects it on a type. -/
structure FieldNode where
  parent : String
  name : String
  aliasName : Option String
  arguments : List (String × Literal)
  selection : List Selection

namespace FieldNode

def responseKey (node : FieldNode) : String := node.aliasName.getD node.name

/-- The type of what is selected on the field. -/
def fieldType (schema : TypeSystem) (node : FieldNode) : String :=
  ((schema.selectable? node.parent node.name).map (·.type.namedType)).getD ""

/-- The arguments that the schema declares for the field. -/
def inputs (schema : TypeSystem) (node : FieldNode) : Ordered String InputDef :=
  ((schema.selectable? node.parent node.name).map (·.arguments)).getD []

/-- The values that a document gives to a field: what its arguments mean, and the defaults of those
that are not given. -/
def Takes (schema : TypeSystem) (bindings : Ordered String Json) (node : FieldNode)
    (values : Ordered String Json) : Prop :=
  ∃ given, Gives bindings node.arguments given ∧
    Completes (node.inputs schema) (Ordered.ofList given) values

def values (schema : TypeSystem) (bindings : Ordered String Json) (node : FieldNode) :
    Ordered String Json :=
  withDefaults (node.inputs schema) (givenArguments bindings node.arguments)

theorem takes_iff {schema : TypeSystem} {bindings : Ordered String Json} {node : FieldNode}
    {values : Ordered String Json} :
    node.Takes schema bindings values ↔ values = node.values schema bindings := by
  rw [FieldNode.values, givenArguments_eq_ofList]
  constructor
  · rintro ⟨given, gives, completes⟩
    rw [completes_iff.mp completes, gives_iff.mp gives]
  · intro same
    exact ⟨_, gives_iff.mpr rfl, completes_iff.mpr same⟩

end FieldNode

/-- Selections on a type select fields, in order: fragments are put in their places, and what a
condition drops is left out. -/
inductive Expands (fragments : List FragmentDefinition) (bindings : Ordered String Json) :
    String → List Selection → List FieldNode → Prop
  | nil {parent} : Expands fragments bindings parent [] []
  | dropped {parent selection rest nodes} : Drops bindings selection.directives →
      Expands fragments bindings parent rest nodes →
      Expands fragments bindings parent (selection :: rest) nodes
  | field {parent aliasName name arguments directives selection rest nodes} :
      ¬ Drops bindings directives → Expands fragments bindings parent rest nodes →
      Expands fragments bindings parent
        (.field aliasName name arguments directives selection :: rest)
        (⟨parent, name, aliasName, arguments, selection⟩ :: nodes)
  | inline {parent condition directives selection inside rest nodes} : ¬ Drops bindings directives →
      Expands fragments bindings (condition.getD parent) selection inside →
      Expands fragments bindings parent rest nodes →
      Expands fragments bindings parent (.inline condition directives selection :: rest)
        (inside ++ nodes)
  | spread {parent name directives fragment inside rest nodes} : ¬ Drops bindings directives →
      fragments.find? (·.name == name) = some fragment →
      Expands fragments bindings fragment.condition fragment.selection inside →
      Expands fragments bindings parent rest nodes →
      Expands fragments bindings parent (.spread name directives :: rest) (inside ++ nodes)

section

variable {fragments : List FragmentDefinition} {bindings : Ordered String Json} {parent : String}
  {selection : List Selection} {nodes others : List FieldNode}

theorem Expands.unique (expands : Expands fragments bindings parent selection nodes)
    (again : Expands fragments bindings parent selection others) : nodes = others := by
  induction expands generalizing others with
  | nil =>
    cases again
    rfl
  | dropped out _ ih =>
    cases again with
    | dropped _ rest => exact ih rest
    | field stays | inline stays | spread stays => exact absurd out stays
  | field stays _ ih =>
    cases again with
    | dropped out => exact absurd out stays
    | field _ rest => rw [ih rest]
  | inline stays _ _ ihInside ihRest =>
    cases again with
    | dropped out => exact absurd out stays
    | inline _ inside rest => rw [ihInside inside, ihRest rest]
  | spread stays found _ _ ihInside ihRest =>
    cases again with
    | dropped out => exact absurd out stays
    | spread _ foundAgain inside rest =>
      obtain rfl := Option.some.inj (found.symm.trans foundAgain)
      rw [ihInside inside, ihRest rest]

end

section Lowering

variable {schema : TypeSystem} {bindings : Ordered String Json}
  {fragments : List FragmentDefinition} {parent name : String} {directives : List Directive}
  {rest : List Selection}

theorem lowerSelection_nil : lowerSelection schema bindings fragments parent [] = [] := by
  rw [lowerSelection]

theorem lowerSelection_of_dropped {selection : Selection}
    (out : included bindings selection.directives = false) :
    lowerSelection schema bindings fragments parent (selection :: rest) =
      lowerSelection schema bindings fragments parent rest := by
  cases selection <;> rw [Selection.directives] at out <;> rw [lowerSelection, out] <;> rfl

/-- A field of a document as one that runs. -/
def FieldNode.lower (schema : TypeSystem) (bindings : Ordered String Json)
    (fragments : List FragmentDefinition) (node : FieldNode) : FieldSelection :=
  ⟨node.name, node.aliasName, node.values schema bindings,
    mergeFields (lowerSelection schema bindings fragments (node.fieldType schema) node.selection)
      []⟩

theorem lowerSelection_field (isIncluded : included bindings directives = true)
    (aliasName : Option String) (arguments : List (String × Literal)) (selection : List Selection) :
    lowerSelection schema bindings fragments parent
        (.field aliasName name arguments directives selection :: rest) =
      FieldNode.lower schema bindings fragments ⟨parent, name, aliasName, arguments, selection⟩ ::
        lowerSelection schema bindings fragments parent rest := by
  rw [lowerSelection, if_pos isIncluded]
  rfl

theorem lowerSelection_inline (isIncluded : included bindings directives = true)
    (condition : Option String) (selection : List Selection) :
    lowerSelection schema bindings fragments parent
        (.inline condition directives selection :: rest) =
      lowerSelection schema bindings fragments (condition.getD parent) selection ++
        lowerSelection schema bindings fragments parent rest := by
  rw [lowerSelection, if_pos isIncluded]

/-- What is selected in the place of a fragment. -/
def lowerFragment (schema : TypeSystem) (bindings : Ordered String Json)
    (fragments : List FragmentDefinition) (name : String) : List FieldSelection :=
  match fragments.find? (·.name == name) with
  | none => []
  | some fragment =>
    lowerSelection schema bindings (withoutFragment fragments name) fragment.condition
      fragment.selection

theorem lowerFragment_of_found {fragment : FragmentDefinition}
    (found : fragments.find? (·.name == name) = some fragment) :
    lowerFragment schema bindings fragments name =
      lowerSelection schema bindings (withoutFragment fragments name) fragment.condition
        fragment.selection := by
  rw [lowerFragment, found]

theorem lowerSelection_spread (isIncluded : included bindings directives = true) :
    lowerSelection schema bindings fragments parent (.spread name directives :: rest) =
      lowerFragment schema bindings fragments name ++
        lowerSelection schema bindings fragments parent rest := by
  rw [lowerSelection, if_pos isIncluded, lowerFragment]
  split <;> simp [*]

theorem lowerSelection_append (first second : List Selection) :
    lowerSelection schema bindings fragments parent (first ++ second) =
      lowerSelection schema bindings fragments parent first ++
        lowerSelection schema bindings fragments parent second := by
  induction first with
  | nil => rw [lowerSelection_nil]; rfl
  | cons selection rest ih =>
    rw [List.cons_append]
    cases isIncluded : included bindings selection.directives with
    | false => rw [lowerSelection_of_dropped isIncluded, lowerSelection_of_dropped isIncluded, ih]
    | true =>
      cases selection with
      | field aliasName name arguments directives selection =>
        rw [Selection.directives] at isIncluded
        rw [lowerSelection_field isIncluded, lowerSelection_field isIncluded, ih, List.cons_append]
      | inline condition directives selection =>
        rw [Selection.directives] at isIncluded
        rw [lowerSelection_inline isIncluded, lowerSelection_inline isIncluded, ih,
          List.append_assoc]
      | spread name directives =>
        rw [Selection.directives] at isIncluded
        rw [lowerSelection_spread isIncluded, lowerSelection_spread isIncluded, ih,
          List.append_assoc]

theorem tidyBelow_lowerSelection (fragments : List FragmentDefinition) (parent : String)
    (selection : List Selection) :
    TidyBelow (lowerSelection schema bindings fragments parent selection) := by
  induction fragments, parent, selection using lowerSelection.induct schema bindings with
  | case1 fragments parent =>
    rw [lowerSelection_nil]
    nofun
  | case2 fragments parent aliasName name arguments directives selection rest isIncluded definition
      fieldType ihRest ihBelow =>
    rw [lowerSelection_field isIncluded]
    intro field member
    rcases List.mem_cons.mp member with rfl | later
    · exact distinctKeys_mergeFields _ [] trivial ihBelow
    · exact ihRest field later
  | case4 fragments parent condition directives selection rest isIncluded ihRest ihInside =>
    rw [lowerSelection_inline isIncluded]
    intro field member
    rcases List.mem_append.mp member with inside | later
    · exact ihInside field inside
    · exact ihRest field later
  | case6 fragments parent name directives rest isIncluded ihRest ihInside =>
    rw [lowerSelection_spread isIncluded]
    intro field member
    rcases List.mem_append.mp member with inside | later
    · rw [lowerFragment] at inside
      split at inside
      · cases inside
      · rename_i fragment found
        exact ihInside fragment found field inside
    · exact ihRest field later
  | case3 fragments parent aliasName name arguments directives selection rest out ih
  | case5 fragments parent condition directives selection rest out ih
  | case7 fragments parent name directives rest out ih =>
    rw [lowerSelection_of_dropped (Bool.eq_false_iff.mpr out)]
    exact ih

theorem tidyBelow_lowerFragment (fragments : List FragmentDefinition) (name : String) :
    TidyBelow (lowerFragment schema bindings fragments name) := by
  unfold lowerFragment
  split
  · nofun
  · exact tidyBelow_lowerSelection _ _ _

theorem distinctKeys_lowered (fragments : List FragmentDefinition) (parent : String)
    (selection : List Selection) :
    DistinctKeys (mergeFields (lowerSelection schema bindings fragments parent selection) []) :=
  distinctKeys_mergeFields _ [] trivial (tidyBelow_lowerSelection fragments parent selection)

end Lowering

/-- The fragments of one table are found in another one. -/
def Subtable (part whole : List FragmentDefinition) : Prop :=
  ∀ name fragment, part.find? (·.name == name) = some fragment →
    whole.find? (·.name == name) = some fragment

theorem find?_withoutFragment (fragments : List FragmentDefinition) (name other : String) :
    (withoutFragment fragments name).find? (·.name == other) =
      if other = name then none else fragments.find? (·.name == other) := by
  rw [withoutFragment, List.find?_filter]
  split
  · rename_i same
    rw [List.find?_eq_none]
    intro fragment _
    simp [same]
  · rename_i different
    congr 1
    funext fragment
    by_cases named : fragment.name = other
    · simp [named, different]
    · simp [named]

namespace Subtable

variable {part whole : List FragmentDefinition}

theorem refl (fragments : List FragmentDefinition) : Subtable fragments fragments :=
  fun _ _ found => found

theorem withoutFragment (sub : Subtable part whole) (name : String) :
    Subtable (withoutFragment part name) (withoutFragment whole name) := by
  intro other fragment found
  rw [find?_withoutFragment] at found ⊢
  split
  · rename_i same
    rw [if_pos same] at found
    cases found
  · rename_i different
    rw [if_neg different] at found
    exact sub other fragment found

theorem of_withoutFragment (sub : Subtable part whole) (name : String) :
    Subtable (Syntax.withoutFragment part name) whole := by
  intro other fragment found
  rw [find?_withoutFragment] at found
  split at found
  · cases found
  · exact sub other fragment found

end Subtable

namespace TypeSystem

variable {schema : TypeSystem} {variableDefs : List VariableDefinition}
  {fragments : List FragmentDefinition} {parent name : String} {directives : List Directive}
  {rest : List Selection}

theorem sound_field {aliasName : Option String} {arguments : List (String × Literal)}
    {selection : List Selection}
    (sound : schema.selectionSound variableDefs fragments parent
      (.field aliasName name arguments directives selection :: rest) = true) :
    (∃ definition, schema.selectable? parent name = some definition ∧
        schema.selectionSound variableDefs fragments definition.type.namedType selection = true) ∧
      schema.selectionSound variableDefs fragments parent rest = true := by
  rw [selectionSound, Bool.and_eq_true] at sound
  refine ⟨?_, sound.2⟩
  cases declared : schema.selectable? parent name with
  | none => simp [declared] at sound
  | some definition =>
    simp only [declared, Bool.and_eq_true] at sound
    exact ⟨definition, rfl, sound.1.2⟩

theorem sound_inline {condition : Option String} {selection : List Selection}
    (sound : schema.selectionSound variableDefs fragments parent
      (.inline condition directives selection :: rest) = true) :
    condition.getD parent = parent ∧
      schema.selectionSound variableDefs fragments parent selection = true ∧
      schema.selectionSound variableDefs fragments parent rest = true := by
  rw [selectionSound] at sound
  simp only [Bool.and_eq_true] at sound
  refine ⟨?_, sound.1.2, sound.2⟩
  cases condition with
  | none => rfl
  | some name => simpa using sound.1.1.2

theorem sound_spread
    (sound : schema.selectionSound variableDefs fragments parent (.spread name directives :: rest) =
      true) :
    (∃ fragment, fragments.find? (·.name == name) = some fragment ∧ fragment.condition = parent ∧
        schema.selectionSound variableDefs (withoutFragment fragments name) parent
          fragment.selection = true) ∧
      schema.selectionSound variableDefs fragments parent rest = true := by
  rw [selectionSound, Bool.and_eq_true, Bool.and_eq_true] at sound
  refine ⟨?_, sound.2⟩
  have fragmentSound := sound.1.2
  split at fragmentSound
  · cases fragmentSound
  · rename_i fragment found
    simp only [Bool.and_eq_true, beq_iff_eq] at fragmentSound
    exact ⟨fragment, found, fragmentSound⟩

theorem sound_subtable (part : List FragmentDefinition) (parent : String)
    (selection : List Selection) :
    schema.selectionSound variableDefs part parent selection = true → ∀ whole, Subtable part whole →
      schema.selectionSound variableDefs whole parent selection = true := by
  induction part, parent, selection using selectionSound.induct with
  | case1 part parent =>
    intro _ whole _
    rw [selectionSound]
  | case2 part parent aliasName name arguments directives selection rest ihBelow ihRest =>
    intro sound whole sub
    rw [selectionSound, Bool.and_eq_true] at sound ⊢
    refine ⟨?_, ihRest sound.2 whole sub⟩
    cases declared : schema.selectable? parent name with
    | none => simp [declared] at sound
    | some definition =>
      simp only [declared, Bool.and_eq_true] at sound ⊢
      exact ⟨sound.1.1, ihBelow definition sound.1.2 whole sub⟩
  | case3 part parent condition directives selection rest ihInside ihRest =>
    intro sound whole sub
    rw [selectionSound] at sound ⊢
    simp only [Bool.and_eq_true] at sound ⊢
    exact ⟨⟨sound.1.1, ihInside sound.1.2 whole sub⟩, ihRest sound.2 whole sub⟩
  | case4 part parent name directives rest ihInside ihRest =>
    intro sound whole sub
    obtain ⟨⟨fragment, found, typed, inside⟩, others⟩ := sound_spread sound
    rw [selectionSound, Bool.and_eq_true, Bool.and_eq_true] at sound ⊢
    refine ⟨⟨sound.1.1, ?_⟩, ihRest others whole sub⟩
    split
    · rename_i absent
      rw [sub name fragment found] at absent
      cases absent
    · rename_i other foundThere
      obtain rfl := Option.some.inj ((sub name fragment found).symm.trans foundThere)
      rw [Bool.and_eq_true, beq_iff_eq]
      exact ⟨typed, ihInside fragment found inside _ (sub.withoutFragment name)⟩

theorem sound_append {first second : List Selection}
    (soundFirst : schema.selectionSound variableDefs fragments parent first = true)
    (soundSecond : schema.selectionSound variableDefs fragments parent second = true) :
    schema.selectionSound variableDefs fragments parent (first ++ second) = true := by
  induction first with
  | nil => exact soundSecond
  | cons selection rest ih =>
    cases selection with
    | field | inline | spread =>
      rw [List.cons_append]
      rw [selectionSound, Bool.and_eq_true] at soundFirst ⊢
      exact ⟨soundFirst.1, ih soundFirst.2⟩

theorem sound_flatMap {α : Type} {items : List α} {selections : α → List Selection}
    (each : ∀ item ∈ items,
      schema.selectionSound variableDefs fragments parent (selections item) = true) :
    schema.selectionSound variableDefs fragments parent (items.flatMap selections) = true := by
  induction items with
  | nil => rw [List.flatMap_nil, selectionSound]
  | cons item rest ih =>
    have later := ih fun other member => each other (List.mem_cons_of_mem _ member)
    rw [List.flatMap_cons]
    exact sound_append (each item List.mem_cons_self) later

/-- With more fragments a sound selection is lowered to the same. -/
theorem lowerSelection_subtable (bindings : Ordered String Json) (part : List FragmentDefinition)
    (parent : String) (selection : List Selection) :
    schema.selectionSound variableDefs part parent selection = true → ∀ whole, Subtable part whole →
      lowerSelection schema bindings part parent selection =
        lowerSelection schema bindings whole parent selection := by
  induction part, parent, selection using selectionSound.induct with
  | case1 part parent =>
    intro _ whole _
    rw [lowerSelection_nil, lowerSelection_nil]
  | case2 part parent aliasName name arguments directives selection rest ihBelow ihRest =>
    intro sound whole sub
    obtain ⟨⟨definition, declared, below⟩, others⟩ := sound_field sound
    cases isIncluded : included bindings directives with
    | false =>
      rw [lowerSelection_of_dropped isIncluded, lowerSelection_of_dropped isIncluded,
        ihRest others whole sub]
    | true =>
      have same := ihBelow definition below whole sub
      rw [lowerSelection_field isIncluded, lowerSelection_field isIncluded, ihRest others whole sub]
      simp [FieldNode.lower, FieldNode.fieldType, declared, same]
  | case3 part parent condition directives selection rest ihInside ihRest =>
    intro sound whole sub
    obtain ⟨typed, inside, others⟩ := sound_inline sound
    cases isIncluded : included bindings directives with
    | false =>
      rw [lowerSelection_of_dropped isIncluded, lowerSelection_of_dropped isIncluded,
        ihRest others whole sub]
    | true =>
      rw [lowerSelection_inline isIncluded, lowerSelection_inline isIncluded, typed,
        ihInside inside whole sub, ihRest others whole sub]
  | case4 part parent name directives rest ihInside ihRest =>
    intro sound whole sub
    obtain ⟨⟨fragment, found, typed, inside⟩, others⟩ := sound_spread sound
    cases isIncluded : included bindings directives with
    | false =>
      rw [lowerSelection_of_dropped isIncluded, lowerSelection_of_dropped isIncluded,
        ihRest others whole sub]
    | true =>
      have same := ihInside fragment found inside _ (sub.withoutFragment name)
      rw [lowerSelection_spread isIncluded, lowerSelection_spread isIncluded,
        lowerFragment_of_found found, lowerFragment_of_found (sub name fragment found),
        ihRest others whole sub, typed, same]

end TypeSystem

namespace TypeSystem

variable {schema : TypeSystem} {variableDefs : List VariableDefinition}
  {fragments : List FragmentDefinition}

theorem levelFields_spread (name : String) (directives : List Directive) (rest : List Selection) :
    levelFields fragments (.spread name directives :: rest) =
      (match fragments.find? (·.name == name) with
        | none => []
        | some fragment => levelFields (withoutFragment fragments name) fragment.selection) ++
      levelFields fragments rest := by
  rw [levelFields]
  split <;> simp [*]

/-- With more fragments a sound selection has the same fields at its level. -/
theorem levelFields_subtable (part : List FragmentDefinition) (parent : String)
    (selection : List Selection) :
    schema.selectionSound variableDefs part parent selection = true →
      ∀ whole, Subtable part whole → levelFields part selection = levelFields whole selection := by
  induction part, parent, selection using selectionSound.induct with
  | case1 part parent =>
    intro _ whole _
    rw [levelFields, levelFields]
  | case2 part parent aliasName name arguments directives selection rest ihBelow ihRest =>
    intro sound whole sub
    rw [levelFields, levelFields, ihRest (sound_field sound).2 whole sub]
  | case3 part parent condition directives selection rest ihInside ihRest =>
    intro sound whole sub
    obtain ⟨-, inside, others⟩ := sound_inline sound
    rw [levelFields, levelFields, ihInside inside whole sub, ihRest others whole sub]
  | case4 part parent name directives rest ihInside ihRest =>
    intro sound whole sub
    obtain ⟨⟨fragment, found, -, inside⟩, others⟩ := sound_spread sound
    have same := ihInside fragment found inside _ (sub.withoutFragment name)
    rw [levelFields_spread, levelFields_spread, found, sub name fragment found,
      ihRest others whole sub]
    dsimp only
    rw [same]

theorem levelFields_append (first second : List Selection) :
    levelFields fragments (first ++ second) =
      levelFields fragments first ++ levelFields fragments second := by
  induction first with
  | nil => rw [levelFields]; rfl
  | cons selection rest ih =>
    rw [List.cons_append]
    cases selection with
    | field aliasName name arguments directives selection =>
      rw [levelFields, levelFields, ih, List.cons_append]
    | inline condition directives selection => rw [levelFields, levelFields, ih, List.append_assoc]
    | spread name directives => rw [levelFields_spread, levelFields_spread, ih, List.append_assoc]

theorem mem_levelFields_cons {selection : Selection} {rest : List Selection} {field : LevelField}
    (member : field ∈ levelFields fragments rest) :
    field ∈ levelFields fragments (selection :: rest) := by
  rw [← List.singleton_append, levelFields_append]
  exact List.mem_append_right _ member

theorem mem_levelFields_flatMap {α : Type} {items : List α} {selections : α → List Selection}
    {field : LevelField} :
    field ∈ levelFields fragments (items.flatMap selections) ↔
      ∃ item ∈ items, field ∈ levelFields fragments (selections item) := by
  induction items with
  | nil => simp [levelFields]
  | cons item rest ih => simp [levelFields_append, ih]

end TypeSystem

/-- A field at one level of a merged selection, by what a document says of it. -/
def FieldNode.levelField (node : FieldNode) : TypeSystem.LevelField :=
  ⟨node.responseKey, node.name, node.arguments, node.selection⟩

/-- A field that a sound selection on a type selects. -/
structure FieldNode.SelectedIn (schema : TypeSystem) (variableDefs : List VariableDefinition)
    (fragments : List FragmentDefinition) (parent : String) (selection : List Selection)
    (node : FieldNode) : Prop where
  parent : node.parent = parent
  below : schema.selectionSound variableDefs fragments (node.fieldType schema) node.selection = true
  listed : node.levelField ∈ TypeSystem.levelFields fragments selection

/-- What a sound selection on a type selects, and how that is lowered, with fragments found in one
table. -/
structure Expansion (schema : TypeSystem) (variableDefs : List VariableDefinition)
    (bindings : Ordered String Json) (fragments : List FragmentDefinition) (parent : String)
    (selection : List Selection) (nodes : List FieldNode) : Prop where
  expands : Expands fragments bindings parent selection nodes
  lowered : lowerSelection schema bindings fragments parent selection =
    nodes.map (FieldNode.lower schema bindings fragments)
  selected : ∀ node ∈ nodes, node.SelectedIn schema variableDefs fragments parent selection

section

open TypeSystem

variable {schema : TypeSystem} {variableDefs : List VariableDefinition}
  {bindings : Ordered String Json} {fragments : List FragmentDefinition} {parent name : String}
  {directives : List Directive} {selection rest : List Selection} {nodes inside : List FieldNode}

theorem FieldNode.SelectedIn.mono {node : FieldNode}
    (selected : node.SelectedIn schema variableDefs fragments parent selection)
    {more : List Selection}
    (listed : ∀ field ∈ levelFields fragments selection, field ∈ levelFields fragments more) :
    node.SelectedIn schema variableDefs fragments parent more :=
  ⟨selected.parent, selected.below, listed _ selected.listed⟩

namespace Expansion

theorem dropped {first : Selection} (out : included bindings first.directives = false)
    (others : Expansion schema variableDefs bindings fragments parent rest nodes) :
    Expansion schema variableDefs bindings fragments parent (first :: rest) nodes := by
  refine ⟨.dropped (included_eq_false_iff.mp out) others.expands, ?_, ?_⟩
  · rw [lowerSelection_of_dropped out, others.lowered]
  · intro node member
    exact (others.selected node member).mono fun _ => mem_levelFields_cons

theorem field (isIncluded : included bindings directives = true) {definition : FieldDef}
    (declared : schema.selectable? parent name = some definition)
    (below : schema.selectionSound variableDefs fragments definition.type.namedType selection =
      true) (others : Expansion schema variableDefs bindings fragments parent rest nodes)
    (aliasName : Option String) (arguments : List (String × Literal)) :
    Expansion schema variableDefs bindings fragments parent
      (.field aliasName name arguments directives selection :: rest)
      (⟨parent, name, aliasName, arguments, selection⟩ :: nodes) := by
  refine ⟨.field (included_eq_true_iff.mp isIncluded) others.expands, ?_, ?_⟩
  · rw [lowerSelection_field isIncluded, others.lowered, List.map_cons]
  · intro node member
    rcases List.mem_cons.mp member with rfl | later
    · refine ⟨rfl, ?_, ?_⟩
      · simpa [FieldNode.fieldType, declared] using below
      · rw [levelFields]
        exact List.mem_cons_self
    · exact (others.selected node later).mono fun _ => mem_levelFields_cons

theorem inline (isIncluded : included bindings directives = true) {condition : Option String}
    (typed : condition.getD parent = parent)
    (within : Expansion schema variableDefs bindings fragments parent selection inside)
    (others : Expansion schema variableDefs bindings fragments parent rest nodes) :
    Expansion schema variableDefs bindings fragments parent
      (.inline condition directives selection :: rest) (inside ++ nodes) := by
  refine ⟨.inline (included_eq_true_iff.mp isIncluded) ?_ others.expands, ?_, ?_⟩
  · rw [typed]
    exact within.expands
  · rw [lowerSelection_inline isIncluded, typed, within.lowered, others.lowered, List.map_append]
  · intro node member
    rcases List.mem_append.mp member with early | later
    · apply (within.selected node early).mono
      intro field listed
      rw [levelFields]
      exact List.mem_append_left _ listed
    · exact (others.selected node later).mono fun _ => mem_levelFields_cons

theorem spread (isIncluded : included bindings directives = true) {fragment : FragmentDefinition}
    (found : fragments.find? (·.name == name) = some fragment) (typed : fragment.condition = parent)
    (sound : schema.selectionSound variableDefs (withoutFragment fragments name) parent
      fragment.selection = true)
    (within : Expansion schema variableDefs bindings fragments parent fragment.selection inside)
    (others : Expansion schema variableDefs bindings fragments parent rest nodes) :
    Expansion schema variableDefs bindings fragments parent (.spread name directives :: rest)
      (inside ++ nodes) := by
  have sub : Subtable (withoutFragment fragments name) fragments :=
    (Subtable.refl fragments).of_withoutFragment name
  refine ⟨.spread (included_eq_true_iff.mp isIncluded) found ?_ others.expands, ?_, ?_⟩
  · rw [typed]
    exact within.expands
  · have same := lowerSelection_subtable bindings _ _ _ sound fragments sub
    rw [lowerSelection_spread isIncluded, lowerFragment_of_found found, others.lowered,
      List.map_append, ← within.lowered, typed, same]
  · intro node member
    rcases List.mem_append.mp member with early | later
    · apply (within.selected node early).mono
      intro field listed
      rw [levelFields_spread, found]
      dsimp only
      rw [levelFields_subtable _ _ _ sound fragments sub]
      exact List.mem_append_left _ listed
    · exact (others.selected node later).mono fun _ => mem_levelFields_cons

end Expansion

/-- Every sound selection selects fields, and is lowered field by field. -/
theorem expansion_of_sound (bindings : Ordered String Json) (part : List FragmentDefinition)
    (parent : String) (selection : List Selection) :
    schema.selectionSound variableDefs part parent selection = true → ∀ whole, Subtable part whole →
      ∃ nodes, Expansion schema variableDefs bindings whole parent selection nodes := by
  induction part, parent, selection using selectionSound.induct with
  | case1 part parent => exact fun _ whole _ => ⟨[], .nil, lowerSelection_nil, nofun⟩
  | case2 part parent aliasName name arguments directives selection rest ihBelow ihRest =>
    intro sound whole sub
    obtain ⟨⟨definition, declared, below⟩, soundRest⟩ := sound_field sound
    obtain ⟨nodes, others⟩ := ihRest soundRest whole sub
    cases isIncluded : included bindings directives with
    | false => exact ⟨nodes, others.dropped isIncluded⟩
    | true =>
      exact ⟨_,
        others.field isIncluded declared (sound_subtable _ _ _ below whole sub) aliasName arguments⟩
  | case3 part parent condition directives selection rest ihInside ihRest =>
    intro sound whole sub
    obtain ⟨typed, soundInside, soundRest⟩ := sound_inline sound
    obtain ⟨nodes, others⟩ := ihRest soundRest whole sub
    obtain ⟨inside, within⟩ := ihInside soundInside whole sub
    cases isIncluded : included bindings directives with
    | false => exact ⟨nodes, others.dropped isIncluded⟩
    | true => exact ⟨_, within.inline isIncluded typed others⟩
  | case4 part parent name directives rest ihInside ihRest =>
    intro sound whole sub
    obtain ⟨⟨fragment, found, typed, soundInside⟩, soundRest⟩ := sound_spread sound
    obtain ⟨nodes, others⟩ := ihRest soundRest whole sub
    obtain ⟨inside, within⟩ :=
      ihInside fragment found soundInside whole (sub.of_withoutFragment name)
    have soundThere := sound_subtable _ _ _ soundInside _ (sub.withoutFragment name)
    cases isIncluded : included bindings directives with
    | false => exact ⟨nodes, others.dropped isIncluded⟩
    | true => exact ⟨_, within.spread isIncluded (sub name fragment found) typed soundThere others⟩

end

end MockGraph
