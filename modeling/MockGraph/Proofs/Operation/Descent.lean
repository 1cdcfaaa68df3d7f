import MockGraph.Proofs.Operation.Collection
import MockGraph.Proofs.Syntax.SelectionSets
set_option autoImplicit false

namespace MockGraph

open Syntax TypeSystem

/-- A selection that conditions remove: one on itself, or those on all that stands in its place. -/
inductive Removed (fragments : List FragmentDefinition) (bindings : Ordered String Json) :
    Selection → Prop
  | dropped {selection} : Drops bindings selection.directives → Removed fragments bindings selection
  | inline {condition directives selection} : selection ≠ [] →
      (∀ inner ∈ selection, Removed fragments bindings inner) →
      Removed fragments bindings (.inline condition directives selection)
  | spread {name directives fragment} : fragments.find? (·.name == name) = some fragment →
      fragment.selection ≠ [] → (∀ inner ∈ fragment.selection, Removed fragments bindings inner) →
      Removed fragments bindings (.spread name directives)

/-- What a selection on a root selects at its places, each with its type: itself at the root, and
below the fields of one key all that is selected on them. -/
inductive Merged (schema : TypeSystem) (fragments : List FragmentDefinition)
    (bindings : Ordered String Json) (root : String) (selection : List Selection) :
    String → List Selection → Prop
  | root : Merged schema fragments bindings root selection root selection
  | inner {parent above nodes node} : Merged schema fragments bindings root selection parent above →
      Expands fragments bindings parent above nodes → node ∈ nodes →
      Merged schema fragments bindings root selection (node.fieldType schema)
        ((nodes.filter (·.responseKey = node.responseKey)).flatMap (·.selection))

section

variable {schema : TypeSystem} {variableDefs : List VariableDefinition}
  {fragments : List FragmentDefinition} {bindings : Ordered String Json} {parent : String}
  {selection : List Selection} {nodes : List FieldNode}

/-- Where nothing is left of a selection, conditions have removed it. -/
theorem Expands.removed (expands : Expands fragments bindings parent selection nodes)
    (none : nodes = []) (filled : ∀ fragment ∈ fragments, FilledSet fragment.selection)
    (inner : ∀ inner ∈ selection, inner.Filled) :
    ∀ inner ∈ selection, Removed fragments bindings inner := by
  induction expands with
  | nil => nofun
  | dropped out _ ih =>
    intro other member
    rcases List.mem_cons.mp member with rfl | later
    · exact .dropped out
    · exact ih none (fun other member => inner other (List.mem_cons_of_mem _ member)) other later
  | field => cases none
  | inline _ _ _ ihInside ihRest =>
    obtain ⟨inside, rest⟩ := List.append_eq_nil_iff.mp none
    intro other member
    rcases List.mem_cons.mp member with rfl | later
    · cases inner _ List.mem_cons_self with
      | inline some all => exact .inline some (ihInside inside all)
    · exact ihRest rest (fun other member => inner other (List.mem_cons_of_mem _ member)) other
        later
  | spread _ found _ _ ihInside ihRest =>
    obtain ⟨inside, rest⟩ := List.append_eq_nil_iff.mp none
    intro other member
    rcases List.mem_cons.mp member with rfl | later
    · obtain ⟨some, all⟩ := filled _ (List.mem_of_find?_eq_some found)
      exact .spread found some (ihInside inside all)
    · exact ihRest rest (fun other member => inner other (List.mem_cons_of_mem _ member)) other
        later

theorem Expands.filled (expands : Expands fragments bindings parent selection nodes)
    (filled : ∀ fragment ∈ fragments, FilledSet fragment.selection)
    (inner : ∀ inner ∈ selection, inner.Filled) :
    ∀ node ∈ nodes, ∀ inner ∈ node.selection, inner.Filled := by
  induction expands with
  | nil => nofun
  | dropped _ _ ih => exact ih fun other member => inner other (List.mem_cons_of_mem _ member)
  | field _ _ ih =>
    intro node member
    rcases List.mem_cons.mp member with rfl | later
    · cases inner _ List.mem_cons_self with
      | field all => exact all
    · exact ih (fun other member => inner other (List.mem_cons_of_mem _ member)) node later
  | inline _ _ _ ihInside ihRest =>
    intro node member
    rcases List.mem_append.mp member with early | later
    · cases inner _ List.mem_cons_self with
      | inline _ all => exact ihInside all node early
    · exact ihRest (fun other member => inner other (List.mem_cons_of_mem _ member)) node later
  | spread _ found _ _ ihInside ihRest =>
    intro node member
    rcases List.mem_append.mp member with early | later
    · exact ihInside (filled _ (List.mem_of_find?_eq_some found)).inner node early
    · exact ihRest (fun other member => inner other (List.mem_cons_of_mem _ member)) node later

/-- A field keeps the rules on a type: it is known there, and its arguments and what is selected on
it are allowed. -/
structure TypeSystem.LevelField.Allowed (schema : TypeSystem)
    (variableDefs : List VariableDefinition) (parent : String) (field : LevelField)
    (definition : FieldDef) : Prop where
  known : schema.selectable? parent field.name = some definition
  arguments : schema.argumentsAllowed variableDefs definition.arguments field.arguments = true
  selection : schema.selectsRightly definition.type field.selection = true

theorem allowed_of_sound (part : List FragmentDefinition) (parent : String)
    (selection : List Selection) :
    schema.selectionSound variableDefs part parent selection = true →
      ∀ field ∈ levelFields part selection, ∃ definition,
        LevelField.Allowed schema variableDefs parent field definition := by
  induction part, parent, selection using selectionSound.induct with
  | case1 part parent =>
    intro _
    rw [levelFields]
    exact List.forall_mem_nil _
  | case2 part parent aliasName name arguments directives selection rest ihBelow ihRest =>
    intro sound field member
    rw [levelFields] at member
    rcases List.mem_cons.mp member with rfl | later
    · rw [selectionSound, Bool.and_eq_true] at sound
      cases known : schema.selectable? parent name with
      | none => simp [known] at sound
      | some definition =>
        simp only [known, Bool.and_eq_true] at sound
        exact ⟨definition, known, sound.1.1.1.2, sound.1.1.2⟩
    · exact ihRest (sound_field sound).2 field later
  | case3 part parent condition directives selection rest ihInside ihRest =>
    intro sound field member
    obtain ⟨-, inside, others⟩ := sound_inline sound
    rw [levelFields] at member
    rcases List.mem_append.mp member with early | later
    · exact ihInside inside field early
    · exact ihRest others field later
  | case4 part parent name directives rest ihInside ihRest =>
    intro sound field member
    obtain ⟨⟨fragment, found, -, inside⟩, others⟩ := sound_spread sound
    rw [levelFields_spread, found] at member
    rcases List.mem_append.mp member with early | later
    · exact ihInside fragment found inside field early
    · exact ihRest others field later

/-- A selection on a type is sound, its fields of one key can be merged, and no set inside it is
empty. -/
structure Settled (schema : TypeSystem) (variableDefs : List VariableDefinition)
    (fragments : List FragmentDefinition) (parent : String) (selection : List Selection) :
    Prop where
  sound : schema.selectionSound variableDefs fragments parent selection = true
  mergeable : ∃ fuel whole, TypeSystem.mergeable fragments fuel whole = true ∧
    ∀ field ∈ levelFields fragments selection, field ∈ levelFields fragments whole
  filled : ∀ inner ∈ selection, inner.Filled

/-- A field is selected on a type, where it keeps the rules. -/
structure FieldNode.Allowed (schema : TypeSystem) (variableDefs : List VariableDefinition)
    (parent : String) (node : FieldNode) (definition : FieldDef) : Prop where
  within : node.parent = parent
  field : LevelField.Allowed schema variableDefs parent node.levelField definition

/-- The fields of a settled selection keep the rules. Those of one key have one definition, and what
is selected on them is settled too. -/
theorem Settled.step (settled : Settled schema variableDefs fragments parent selection)
    (expands : Expands fragments bindings parent selection nodes)
    (filled : ∀ fragment ∈ fragments, FilledSet fragment.selection) {node : FieldNode}
    (member : node ∈ nodes) :
    ∃ definition,
      (∀ other ∈ nodes, other.responseKey = node.responseKey →
          other.name = node.name ∧ other.Allowed schema variableDefs parent definition) ∧
        Settled schema variableDefs fragments (node.fieldType schema)
          ((nodes.filter (·.responseKey = node.responseKey)).flatMap (·.selection)) := by
  obtain ⟨others, expansion⟩ :=
    expansion_of_sound bindings fragments _ _ settled.sound fragments (.refl fragments)
  obtain rfl := expands.unique expansion.expands
  obtain ⟨fuel, whole, mergeable, listed⟩ := settled.mergeable
  cases fuel with
  | zero => cases mergeable
  | succ fuel =>
    have under := underneath_of_mergeable mergeable
      (fun node member => (expansion.selected node member).mono listed) member
    have allowed : ∀ other ∈ nodes, ∃ definition,
        other.Allowed schema variableDefs parent definition := by
      intro other inside
      have there := expansion.selected other inside
      obtain ⟨definition, allowed⟩ := allowed_of_sound _ _ _ settled.sound _ there.listed
      exact ⟨definition, there.parent, allowed⟩
    obtain ⟨definition, here⟩ := allowed node member
    refine ⟨definition, fun other inside same => ?_, under.sound, ⟨fuel, under.mergeable⟩, ?_⟩
    · have named := under.named other (List.mem_filter.mpr ⟨inside, decide_eq_true same⟩)
      obtain ⟨another, there⟩ := allowed other inside
      have equal : another = definition := by
        have known := there.field.known
        rw [FieldNode.levelField, named] at known
        exact Option.some.inj (known.symm.trans here.field.known)
      exact ⟨named, equal ▸ there⟩
    · intro inner deep
      obtain ⟨owner, owned, deep⟩ := List.mem_flatMap.mp deep
      exact expands.filled filled settled.filled owner (List.mem_filter.mp owned).1 inner deep

theorem Merged.settled {root : String} {whole : List Selection}
    (atRoot : Settled schema variableDefs fragments root whole)
    (filled : ∀ fragment ∈ fragments, FilledSet fragment.selection)
    (merged : Merged schema fragments bindings root whole parent selection) :
    Settled schema variableDefs fragments parent selection := by
  induction merged with
  | root => exact atRoot
  | inner _ expands member ih =>
    obtain ⟨-, -, settled⟩ := ih.step expands filled member
    exact settled

end

end MockGraph
