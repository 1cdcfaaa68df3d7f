import Mathlib.Data.List.Forall2
import MockGraph.Proofs.Operation.Expansion
set_option autoImplicit false

namespace MockGraph

open Syntax FieldSelection TypeSystem

/-- Fields of one level are collected: there is one for each key, in the order of first occurrences.
It is the first of its key by name, alias and arguments, and below it is collected what is selected
on any of that key. -/
inductive Collects (schema : TypeSystem) (fragments : List FragmentDefinition)
    (bindings : Ordered String Json) : List FieldNode → List FieldSelection → Prop
  | nil : Collects schema fragments bindings [] []
  | cons {first : FieldNode} {rest below : List FieldNode} {arguments : Ordered String Json}
      {selection others : List FieldSelection} :
      first.Takes schema bindings arguments →
      Expands fragments bindings (first.fieldType schema)
        ((first :: rest.filter (·.responseKey = first.responseKey)).flatMap (·.selection)) below →
      Collects schema fragments bindings below selection →
      Collects schema fragments bindings (rest.filter (·.responseKey ≠ first.responseKey)) others →
      Collects schema fragments bindings (first :: rest)
        (⟨first.name, first.aliasName, arguments, selection⟩ :: others)

section

variable {schema : TypeSystem} {variableDefs : List VariableDefinition}
  {fragments : List FragmentDefinition} {bindings : Ordered String Json} {parent : String}
  {selection : List Selection} {nodes : List FieldNode}

theorem Collects.unique {tree other : List FieldSelection}
    (collects : Collects schema fragments bindings nodes tree)
    (again : Collects schema fragments bindings nodes other) : tree = other := by
  induction collects generalizing other with
  | nil =>
    cases again
    rfl
  | cons takes expands _ _ ihBelow ihOthers =>
    cases again with
    | cons takesAgain expandsAgain below others =>
      obtain rfl := expands.unique expandsAgain
      rw [FieldNode.takes_iff.mp takes, FieldNode.takes_iff.mp takesAgain, ihBelow below,
        ihOthers others]

/-- Who is first among those of other keys is so among all. -/
theorem find?_of_filter {first node : FieldNode} {rest : List FieldNode} {key : String}
    (found : (rest.filter (·.responseKey ≠ first.responseKey)).find? (·.responseKey = key) =
      some node) : (first :: rest).find? (·.responseKey = key) = some node := by
  have elsewhere : first.responseKey ≠ key := by
    intro here
    have keyed := List.find?_some found
    have other := (List.mem_filter.mp (List.mem_of_find?_eq_some found)).2
    rw [decide_eq_true_eq] at keyed other
    exact other (keyed.trans here.symm)
  rw [List.find?_filter] at found
  rw [List.find?_cons, decide_eq_false elsewhere, ← found]
  dsimp only
  congr 1
  funext other
  by_cases same : other.responseKey = key
  · simp [same, Ne.symm elsewhere]
  · simp [same]

theorem Collects.first {tree : List FieldSelection}
    (collects : Collects schema fragments bindings nodes tree) {field : FieldSelection}
    (member : field ∈ tree) :
    ∃ node, nodes.find? (·.responseKey = field.responseKey) = some node ∧ field.name = node.name ∧
      field.arguments = node.values schema bindings := by
  induction collects with
  | nil => cases member
  | @cons first rest below arguments selection others takes _ _ _ _ ihOthers =>
    rcases List.mem_cons.mp member with rfl | later
    · have here : FieldSelection.responseKey ⟨first.name, first.aliasName, arguments, selection⟩ =
          first.responseKey := rfl
      exact ⟨first, by rw [here, List.find?_cons, decide_eq_true rfl], rfl,
        FieldNode.takes_iff.mp takes⟩
    · obtain ⟨node, found, same⟩ := ihOthers later
      exact ⟨node, find?_of_filter found, same⟩

theorem mem_distinctKeys {key : String} (keys seen : List String) :
    key ∈ distinctKeys keys seen ↔ key ∈ keys ∧ key ∉ seen := by
  induction keys generalizing seen with
  | nil => simp [distinctKeys]
  | cons first rest ih =>
    rw [distinctKeys]
    by_cases known : first ∈ seen
    · rw [if_pos (List.contains_iff_mem.mpr known), ih, List.mem_cons]
      constructor
      · exact fun ⟨member, fresh⟩ => ⟨Or.inr member, fresh⟩
      · rintro ⟨rfl | member, fresh⟩
        · exact absurd known fresh
        · exact ⟨member, fresh⟩
    · rw [if_neg (by simpa using known), List.mem_cons, ih, List.mem_cons, List.mem_cons, not_or]
      constructor
      · rintro (rfl | ⟨member, -, fresh⟩)
        · exact ⟨Or.inl rfl, known⟩
        · exact ⟨Or.inr member, fresh⟩
      · rintro ⟨rfl | member, fresh⟩
        · exact Or.inl rfl
        · by_cases same : key = first
          · exact Or.inl same
          · exact Or.inr ⟨member, same, fresh⟩

/-- Fields that can be merged have one name under each key, and what is selected on them can be
merged too. -/
theorem mergeable_key {fuel : Nat}
    (mergeable : TypeSystem.mergeable fragments (fuel + 1) selection = true) {field : LevelField}
    (listed : field ∈ levelFields fragments selection) :
    (∃ name, ∀ other ∈ levelFields fragments selection, other.key = field.key → other.name = name) ∧
      TypeSystem.mergeable fragments fuel
        (((levelFields fragments selection).filter (·.key == field.key)).flatMap
          (·.selection)) = true := by
  have known : field.key ∈ distinctKeys ((levelFields fragments selection).map (·.key)) [] :=
    (mem_distinctKeys _ _).mpr ⟨List.mem_map.mpr ⟨field, listed, rfl⟩, List.not_mem_nil⟩
  rw [TypeSystem.mergeable, List.all_eq_true] at mergeable
  have alike := mergeable field.key known
  have inside : ∀ other ∈ levelFields fragments selection, other.key = field.key →
      other ∈ (levelFields fragments selection).filter (·.key == field.key) := by
    intro other member same
    exact List.mem_filter.mpr ⟨member, beq_iff_eq.mpr same⟩
  cases grouped : (levelFields fragments selection).filter (·.key == field.key) with
  | nil =>
    have none := inside field listed rfl
    rw [grouped] at none
    cases none
  | cons first others =>
    simp only [grouped, Bool.and_eq_true, List.all_eq_true, beq_iff_eq] at alike
    refine ⟨⟨first.name, ?_⟩, alike.2⟩
    intro other member same
    have grouped := grouped ▸ inside other member same
    rcases List.mem_cons.mp grouped with rfl | later
    · rfl
    · exact (alike.1 other later).1

/-- Fields that are merged below each of several fields can as well be merged below one. -/
theorem mergeFields_flatMap {α : Type} (items : List α) {fields : α → List FieldSelection}
    (tidy : ∀ item ∈ items, TidyBelow (fields item)) (merged : List FieldSelection) :
    mergeFields (items.flatMap fun item => mergeFields (fields item) []) merged =
      mergeFields (items.flatMap fields) merged := by
  induction items generalizing merged with
  | nil => rfl
  | cons item rest ih =>
    have associates := mergeFields_mergeFields _ (tidy item List.mem_cons_self)
    have later := ih fun other member => tidy other (List.mem_cons_of_mem _ member)
    rw [List.flatMap_cons, List.flatMap_cons, mergeFields_append, mergeFields_append,
      associates [] merged trivial, mergeFields, later]

theorem lowerSelection_flatMap {α : Type} (items : List α) (selections : α → List Selection) :
    lowerSelection schema bindings fragments parent (items.flatMap selections) =
      items.flatMap fun item =>
        lowerSelection schema bindings fragments parent (selections item) := by
  induction items with
  | nil => exact lowerSelection_nil
  | cons item rest ih => rw [List.flatMap_cons, List.flatMap_cons, lowerSelection_append, ih]

/-- Fields that were lowered one by one are merged key by key. -/
theorem mergeFields_map_lower (first : FieldNode) (rest : List FieldNode)
    (typed : ∀ node ∈ rest, node.responseKey = first.responseKey →
      node.fieldType schema = first.fieldType schema) :
    mergeFields ((first :: rest).map (FieldNode.lower schema bindings fragments)) [] =
      ⟨first.name, first.aliasName, first.values schema bindings,
          mergeFields (lowerSelection schema bindings fragments (first.fieldType schema)
              ((first :: rest.filter (·.responseKey = first.responseKey)).flatMap (·.selection)))
            []⟩ ::
        mergeFields ((rest.filter (·.responseKey ≠ first.responseKey)).map
            (FieldNode.lower schema bindings fragments)) [] := by
  let lower := FieldNode.lower schema bindings fragments
  let lowered (node : FieldNode) : List FieldSelection :=
    lowerSelection schema bindings fragments (node.fieldType schema) node.selection
  let under := first :: rest.filter (·.responseKey = first.responseKey)
  have below :
      mergeFields
          (((rest.map lower).filter (·.responseKey = first.responseKey)).flatMap (·.selection))
          (lower first).selection = mergeFields (under.flatMap lowered) [] := by
    -- Each field was merged below by itself, and then all of them were: once is enough.
    rw [List.filter_map, List.flatMap_map, List.flatMap_cons, mergeFields_append]
    exact mergeFields_flatMap _ (fun node _ => tidyBelow_lowerSelection _ _ _) _
  have types : under.flatMap lowered =
      lowerSelection schema bindings fragments (first.fieldType schema)
        (under.flatMap (·.selection)) := by
    rw [lowerSelection_flatMap]
    apply List.flatMap_congr
    intro node member
    rcases List.mem_cons.mp member with rfl | later
    · rfl
    · obtain ⟨inside, same⟩ := List.mem_filter.mp later
      show lowerSelection _ _ _ (node.fieldType schema) _ = _
      rw [typed node inside (of_decide_eq_true same)]
  have others : (rest.map lower).filter (·.responseKey ≠ first.responseKey) =
      (rest.filter (·.responseKey ≠ first.responseKey)).map lower := List.filter_map
  rw [List.map_cons, mergeFields, mergeField_nil, mergeFields_cons]
  show (lower first).adding _ ::
    mergeFields ((rest.map lower).filter (·.responseKey ≠ first.responseKey)) [] = _
  rw [others, ← types, ← below]
  rfl

/-- Induction on fields through those of other keys than the first. -/
theorem grouping_induction {motive : List FieldNode → Prop} (nil : motive [])
    (cons : ∀ first rest, motive (rest.filter (·.responseKey ≠ first.responseKey)) →
      motive (first :: rest)) : ∀ nodes, motive nodes
  | [] => nil
  | first :: rest =>
    cons first rest (grouping_induction nil cons (rest.filter (·.responseKey ≠ first.responseKey)))
termination_by nodes => nodes.length
decreasing_by exact Nat.lt_succ_of_le (List.length_filter_le _ _)

/-- What is selected on all fields of one key: it is sound on the one type that they have, and it
can be merged. -/
structure Underneath (schema : TypeSystem) (variableDefs : List VariableDefinition)
    (fragments : List FragmentDefinition) (fuel : Nat) (node : FieldNode) (under : List FieldNode) :
    Prop where
  named : ∀ other ∈ under, other.name = node.name
  typed : ∀ other ∈ under, other.fieldType schema = node.fieldType schema
  sound :
      schema.selectionSound variableDefs fragments (node.fieldType schema)
        (under.flatMap (·.selection)) = true
  mergeable : ∃ whole, TypeSystem.mergeable fragments fuel whole = true ∧
      ∀ field ∈ levelFields fragments (under.flatMap (·.selection)),
        field ∈ levelFields fragments whole

theorem underneath_of_mergeable {fuel : Nat}
    (mergeable : TypeSystem.mergeable fragments (fuel + 1) selection = true)
    (selected : ∀ node ∈ nodes, node.SelectedIn schema variableDefs fragments parent selection)
    {node : FieldNode} (member : node ∈ nodes) :
    Underneath schema variableDefs fragments fuel node
      (nodes.filter (·.responseKey = node.responseKey)) := by
  have here := selected node member
  obtain ⟨⟨name, named⟩, below⟩ := mergeable_key mergeable here.listed
  have inside : ∀ other ∈ nodes.filter (·.responseKey = node.responseKey),
      other.SelectedIn schema variableDefs fragments parent selection ∧
        other.responseKey = node.responseKey := by
    intro other filtered
    obtain ⟨there, same⟩ := List.mem_filter.mp filtered
    exact ⟨selected other there, of_decide_eq_true same⟩
  have equal : ∀ other ∈ nodes.filter (·.responseKey = node.responseKey),
      other.name = node.name := by
    intro other filtered
    obtain ⟨there, same⟩ := inside other filtered
    exact (named _ there.listed same).trans (named _ here.listed rfl).symm
  -- Fields of one key have one name, so what is selected on them is selected on one type.
  have typed : ∀ other ∈ nodes.filter (·.responseKey = node.responseKey),
      other.fieldType schema = node.fieldType schema := by
    intro other filtered
    rw [FieldNode.fieldType, FieldNode.fieldType, (inside other filtered).1.parent, here.parent,
      equal other filtered]
  refine ⟨equal, typed, ?_, _, below, ?_⟩
  · apply sound_flatMap
    intro other filtered
    rw [← typed other filtered]
    exact (inside other filtered).1.below
  · intro field listed
    obtain ⟨owner, owned, listed⟩ := mem_levelFields_flatMap.mp listed
    obtain ⟨there, same⟩ := inside owner owned
    exact mem_levelFields_flatMap.mpr
      ⟨owner.levelField, List.mem_filter.mpr ⟨there.listed, beq_iff_eq.mpr same⟩, listed⟩

theorem filter_responseKey_cons (first : FieldNode) (rest : List FieldNode) :
    (first :: rest).filter (·.responseKey = first.responseKey) =
      first :: rest.filter (·.responseKey = first.responseKey) :=
  List.filter_cons_of_pos (decide_eq_true rfl)

/-- Lowering collects the fields of a selection that can be merged. The induction is on the depth
that the merging of the selection was followed to. -/
theorem collects_lower (bindings : Ordered String Json) (fuel : Nat) : ∀ parent selection nodes,
    TypeSystem.mergeable fragments fuel selection = true →
    (∀ node ∈ nodes, node.SelectedIn schema variableDefs fragments parent selection) →
    Collects schema fragments bindings nodes
      (mergeFields (nodes.map (FieldNode.lower schema bindings fragments)) []) := by
  induction fuel with
  | zero =>
    intro parent selection nodes mergeable
    cases mergeable
  | succ fuel ih =>
    intro parent selection nodes mergeable selected
    induction nodes using grouping_induction with
    | nil => exact .nil
    | cons first rest ihOthers =>
      have under := underneath_of_mergeable mergeable selected List.mem_cons_self
      rw [filter_responseKey_cons] at under
      obtain ⟨nodes, expansion⟩ :=
        expansion_of_sound bindings fragments _ _ under.sound fragments (.refl fragments)
      obtain ⟨whole, below, listed⟩ := under.mergeable
      rw [mergeFields_map_lower first rest fun node member same =>
        under.typed node
          (List.mem_cons_of_mem _ (List.mem_filter.mpr ⟨member, decide_eq_true same⟩))]
      refine .cons (FieldNode.takes_iff.mpr rfl) expansion.expands ?_
        (ihOthers fun node member => ?_)
      · rw [expansion.lowered]
        exact ih _ _ nodes below fun node member => (expansion.selected node member).mono listed
      · exact selected node (List.mem_cons_of_mem _ (List.mem_filter.mp member).1)

/-- The fragments that a selection spreads at its own level. What these spread in turn is not looked
at. -/
def spreadNames (bindings : Ordered String Json) : List Selection → List String
  | [] => []
  | .field _ _ _ _ _ :: rest => spreadNames bindings rest
  | .inline _ directives selection :: rest =>
    (if Drops bindings directives then [] else spreadNames bindings selection) ++
      spreadNames bindings rest
  | .spread name directives :: rest =>
    (if Drops bindings directives then [] else [name]) ++ spreadNames bindings rest

/-- A selection spreads fragments again, at any level and any number of times, that were spread
before at that level. `seen` are those that were spread before the selection begins. -/
inductive SpreadsAgain (bindings : Ordered String Json) :
    List String → List Selection → List Selection → Prop
  | same {seen selection} : SpreadsAgain bindings seen selection selection
  | again {seen name directives selection more} : name ∈ seen →
      SpreadsAgain bindings seen selection more →
      SpreadsAgain bindings seen selection (.spread name directives :: more)
  | field {seen aliasName name arguments directives selection below rest more} :
      SpreadsAgain bindings [] selection below → SpreadsAgain bindings seen rest more →
      SpreadsAgain bindings seen (.field aliasName name arguments directives selection :: rest)
        (.field aliasName name arguments directives below :: more)
  | inline {seen condition directives selection inside rest more} :
      SpreadsAgain bindings seen selection inside →
      SpreadsAgain bindings (spreadNames bindings [.inline condition directives selection] ++ seen)
        rest more →
      SpreadsAgain bindings seen (.inline condition directives selection :: rest)
        (.inline condition directives inside :: more)
  | spread {seen name directives rest more} :
      SpreadsAgain bindings (spreadNames bindings [.spread name directives] ++ seen) rest more →
      SpreadsAgain bindings seen (.spread name directives :: rest) (.spread name directives :: more)

theorem mergeFields_lower_cons (first : Selection) (rest : List Selection)
    (merged : List FieldSelection) :
    mergeFields (lowerSelection schema bindings fragments parent (first :: rest)) merged =
      mergeFields (lowerSelection schema bindings fragments parent rest)
        (mergeFields (lowerSelection schema bindings fragments parent [first]) merged) := by
  rw [← mergeFields_append, ← lowerSelection_append, List.singleton_append]

theorem hasAll_spreadNames (fragments : List FragmentDefinition) {name : String}
    (selection : List Selection) :
    name ∈ spreadNames bindings selection →
      ∀ parent merged, HasAll (mergeFields
          (lowerSelection schema bindings fragments parent selection) merged)
        (lowerFragment schema bindings fragments name) := by
  induction selection using spreadNames.induct with
  | case1 =>
    rw [spreadNames]
    nofun
  | case2 aliasName field arguments directives selection rest ih =>
    intro member parent merged
    rw [spreadNames] at member
    rw [mergeFields_lower_cons]
    exact ih member parent _
  | case3 condition directives selection rest ihInside ihRest =>
    intro member parent merged
    rw [spreadNames] at member
    rw [mergeFields_lower_cons]
    rcases List.mem_append.mp member with inside | later
    · apply hasAll_mono
      split at inside
      · cases inside
      · rename_i stays
        rw [lowerSelection_inline (included_eq_true_iff.mpr stays), lowerSelection_nil,
          List.append_nil]
        exact ihInside inside _ merged
    · exact ihRest later parent _
  | case4 other directives rest ih =>
    intro member parent merged
    rw [spreadNames] at member
    rw [mergeFields_lower_cons]
    rcases List.mem_append.mp member with here | later
    · apply hasAll_mono
      split at here
      · cases here
      · rename_i stays
        obtain rfl := List.mem_singleton.mp here
        rw [lowerSelection_spread (included_eq_true_iff.mpr stays), lowerSelection_nil,
          List.append_nil]
        exact hasAll_mergeFields _ merged (tidyBelow_lowerFragment fragments name)
    · exact ih later parent _

/-- All that the fragments select is merged already, and what the first selection adds is merged
too. -/
theorem hasAll_seen {seen : List String} {merged : List FieldSelection}
    (known : ∀ name ∈ seen, HasAll merged (lowerFragment schema bindings fragments name))
    (first : Selection) (parent : String) :
    ∀ name ∈ spreadNames bindings [first] ++ seen, HasAll (mergeFields
        (lowerSelection schema bindings fragments parent [first]) merged)
      (lowerFragment schema bindings fragments name) := by
  intro name member
  rcases List.mem_append.mp member with now | before
  · exact hasAll_spreadNames fragments [first] now parent merged
  · exact hasAll_mono _ _ _ (known name before)

/-- What a selection adds to what is merged before it is the same for both, once all that the
fragments select is merged. -/
theorem SpreadsAgain.lowered {seen : List String} {more : List Selection}
    (again : SpreadsAgain bindings seen selection more) (fragments : List FragmentDefinition)
    (parent : String) (merged : List FieldSelection)
    (known : ∀ name ∈ seen, HasAll merged (lowerFragment schema bindings fragments name)) :
    mergeFields (lowerSelection schema bindings fragments parent more) merged =
      mergeFields (lowerSelection schema bindings fragments parent selection) merged := by
  induction again generalizing parent merged with
  | same => rfl
  | @again seen name directives selection more member _ ih =>
    cases isIncluded : included bindings directives with
    | false => rw [lowerSelection_of_dropped isIncluded, ih parent merged known]
    | true =>
      -- All that the fragment selects is there.
      rw [lowerSelection_spread isIncluded, mergeFields_append,
        mergeFields_of_hasAll _ _ (known name member), ih parent merged known]
  | @field seen aliasName name arguments directives selection below rest more _ _ ihBelow ihRest =>
    have first :
        lowerSelection schema bindings fragments parent
            [.field aliasName name arguments directives below] =
          lowerSelection schema bindings fragments parent
            [.field aliasName name arguments directives selection] := by
      cases isIncluded : included bindings directives with
      | false => rw [lowerSelection_of_dropped isIncluded, lowerSelection_of_dropped isIncluded]
      | true =>
        rw [lowerSelection_field isIncluded, lowerSelection_field isIncluded, FieldNode.lower,
          FieldNode.lower, ihBelow _ [] (List.forall_mem_nil _)]
        rfl
    have after := hasAll_seen known (.field aliasName name arguments directives selection) parent
    rw [spreadNames, spreadNames] at after
    rw [mergeFields_lower_cons _ more, mergeFields_lower_cons _ rest, first]
    exact ihRest parent _ after
  | @inline seen condition directives selection inside rest more _ _ ihInside ihRest =>
    have first :
        mergeFields
            (lowerSelection schema bindings fragments parent [.inline condition directives inside])
            merged =
          mergeFields (lowerSelection schema bindings fragments parent
              [.inline condition directives selection]) merged := by
      cases isIncluded : included bindings directives with
      | false => rw [lowerSelection_of_dropped isIncluded, lowerSelection_of_dropped isIncluded]
      | true =>
        rw [lowerSelection_inline isIncluded, lowerSelection_inline isIncluded, mergeFields_append,
          mergeFields_append, ihInside _ merged known]
    rw [mergeFields_lower_cons _ more, mergeFields_lower_cons _ rest, first]
    exact ihRest parent _ (hasAll_seen known _ parent)
  | @spread seen name directives rest more _ ih =>
    rw [mergeFields_lower_cons _ more, mergeFields_lower_cons _ rest]
    exact ih parent _ (hasAll_seen known _ parent)

/-- A fragment of the same name and type that spreads fragments again. -/
structure FragmentAgain (bindings : Ordered String Json) (one other : FragmentDefinition) :
    Prop where
  name : other.name = one.name
  condition : other.condition = one.condition
  selection : SpreadsAgain bindings [] one.selection other.selection

theorem find?_again {others : List FragmentDefinition}
    (again : List.Forall₂ (FragmentAgain bindings) fragments others) (name : String) :
    (fragments.find? (·.name == name) = none ∧ others.find? (·.name == name) = none) ∨
      ∃ one other, fragments.find? (·.name == name) = some one ∧
        others.find? (·.name == name) = some other ∧ FragmentAgain bindings one other := by
  induction again with
  | nil => exact Or.inl ⟨rfl, rfl⟩
  | @cons one other _ _ same _ ih =>
    rw [List.find?_cons, List.find?_cons, same.name]
    split
    · exact Or.inr ⟨one, other, rfl, rfl, same⟩
    · exact ih

theorem withoutFragment_again {others : List FragmentDefinition}
    (again : List.Forall₂ (FragmentAgain bindings) fragments others) (name : String) :
    List.Forall₂ (FragmentAgain bindings) (withoutFragment fragments name)
      (withoutFragment others name) := by
  induction again with
  | nil => exact .nil
  | @cons one other _ _ same _ ih =>
    rw [withoutFragment, withoutFragment, List.filter_cons, List.filter_cons, same.name]
    split
    · exact .cons same ih
    · exact ih

/-- Fragments that spread others once more are lowered to the same wherever they are spread. -/
theorem lowered_again (fragments : List FragmentDefinition) (parent : String)
    (selection : List Selection) :
    ∀ others, List.Forall₂ (FragmentAgain bindings) fragments others →
      ∀ merged, mergeFields (lowerSelection schema bindings others parent selection) merged =
        mergeFields (lowerSelection schema bindings fragments parent selection) merged := by
  induction fragments, parent, selection using lowerSelection.induct schema bindings with
  | case1 fragments parent =>
    intro others _ merged
    rw [lowerSelection_nil, lowerSelection_nil]
  | case2 fragments parent aliasName name arguments directives selection rest isIncluded definition
      fieldType ihRest ihBelow =>
    intro others again merged
    have below : mergeFields (lowerSelection schema bindings others fieldType selection) [] =
        mergeFields (lowerSelection schema bindings fragments fieldType selection) [] :=
      ihBelow others again []
    have field :
        FieldNode.lower schema bindings others ⟨parent, name, aliasName, arguments, selection⟩ =
          FieldNode.lower schema bindings fragments
            ⟨parent, name, aliasName, arguments, selection⟩ :=
      congrArg (FieldSelection.mk _ _ _) below
    rw [lowerSelection_field isIncluded, lowerSelection_field isIncluded, field, mergeFields,
      mergeFields, ihRest others again]
  | case4 fragments parent condition directives selection rest isIncluded ihRest ihInside =>
    intro others again merged
    rw [lowerSelection_inline isIncluded, lowerSelection_inline isIncluded, mergeFields_append,
      mergeFields_append, ihInside others again, ihRest others again]
  | case6 fragments parent name directives rest isIncluded ihRest ihInside =>
    intro others again merged
    rw [lowerSelection_spread isIncluded, lowerSelection_spread isIncluded, mergeFields_append,
      mergeFields_append, ihRest others again]
    congr 1
    -- Inside a fragment its own name is gone from both tables, so they stay alike and get shorter.
    rcases find?_again again name with ⟨absent, absentThere⟩ | ⟨one, other, found, foundThere, same⟩
    · rw [lowerFragment, lowerFragment, absent, absentThere]
    · rw [lowerFragment_of_found found, lowerFragment_of_found foundThere, same.condition,
        same.selection.lowered _ _ _ (List.forall_mem_nil _),
        ihInside one found _ (withoutFragment_again again name)]
  | case3 fragments parent aliasName name arguments directives selection rest out ih
  | case5 fragments parent condition directives selection rest out ih
  | case7 fragments parent name directives rest out ih =>
    intro others again merged
    have dropped := Bool.eq_false_iff.mpr out
    rw [lowerSelection_of_dropped dropped, lowerSelection_of_dropped dropped, ih others again]

/-- The fields of an operation in a sound document are collected by lowering it. -/
theorem collects_of_sound {document : Document} {definition : OperationDefinition}
    (sound : schema.documentSound document = true) (member : definition ∈ document.operations) :
    ∃ root nodes, schema.root? definition.kind = some root ∧
      (∀ node ∈ nodes, node.parent = root) ∧
      Expands document.fragments bindings root definition.selection nodes ∧
      Collects schema document.fragments bindings nodes
        (schema.lowerOperation document definition bindings).selection := by
  have sound : schema.operationSound document definition = true := by
    simp only [documentSound, Bool.and_eq_true, List.all_eq_true] at sound
    exact sound.2 definition member
  rw [operationSound] at sound
  cases known : schema.root? definition.kind with
  | none => simp [known] at sound
  | some root =>
    simp only [known, Bool.and_eq_true] at sound
    obtain ⟨⟨-, selected⟩, mergeable⟩ := sound
    obtain ⟨nodes, expansion⟩ :=
      expansion_of_sound bindings document.fragments root definition.selection selected
        document.fragments (.refl _)
    refine ⟨root, nodes, rfl, fun node member => (expansion.selected node member).parent,
      expansion.expands, ?_⟩
    have collects :=
      collects_lower bindings _ root definition.selection nodes mergeable expansion.selected
    rw [← expansion.lowered] at collects
    rw [lowerOperation, known]
    exact collects

end

/-- Lowering an operation of a sound document collects its fields. The keys are distinct at every
level, and a fragment that is spread once more changes nothing, wherever it is. -/
theorem TypeSystem.lowerOperation_collects (schema : TypeSystem) (document : Document)
    (definition : OperationDefinition) (bindings : Ordered String Json)
    (sound : schema.documentSound document = true) (member : definition ∈ document.operations) :
    let operation := schema.lowerOperation document definition bindings
    (∃ root, schema.root? definition.kind = some root ∧ ∀ tree,
      (∃ nodes, Expands document.fragments bindings root definition.selection nodes ∧
        Collects schema document.fragments bindings nodes tree) ↔ tree = operation.selection) ∧
    DistinctKeys operation.selection ∧
    ∀ more others, SpreadsAgain bindings [] definition.selection more →
      List.Forall₂ (FragmentAgain bindings) document.fragments others →
      schema.lowerOperation ⟨document.operations, others⟩ { definition with selection := more }
        bindings = operation := by
  intro operation
  refine ⟨?_, distinctKeys_lowered _ _ _, ?_⟩
  · obtain ⟨root, nodes, known, -, expands, collects⟩ := collects_of_sound sound member
    refine ⟨root, known, fun tree => ⟨?_, ?_⟩⟩
    · rintro ⟨others, expandsAgain, collected⟩
      obtain rfl := expands.unique expandsAgain
      exact collected.unique collects
    · rintro rfl
      exact ⟨nodes, expands, collects⟩
  · intro more others again fragmentsAgain
    have same :
        mergeFields
            (lowerSelection schema bindings others ((schema.root? definition.kind).getD "") more)
            [] = operation.selection := by
      rw [lowered_again document.fragments _ more others fragmentsAgain,
        again.lowered _ _ _ (List.forall_mem_nil _)]
      rfl
    exact congrArg
      (fun selection => (⟨definition.kind, definition.name, selection, bindings⟩ : Operation)) same

namespace Lodge

/-- A lodge, where guests eat and sleep. -/
def schema : TypeSystem where
  query := "Query"
  mutation := none
  subscription := none
  types :=
    [("Query", .object "Query" none [("lodge", ⟨"lodge", none, .named "Lodge", []⟩)]),
      ("Lodge", .object "Lodge" none
        [("beds", ⟨"beds", none, .named "Int",
          [("above", ⟨"above", none, .named "Int", some (.ofNat 4)⟩),
            ("kind", ⟨"kind", none, .named "String", none⟩),
            ("room", ⟨"room", none, .named "Int", none⟩)]⟩),
          ("open", ⟨"open", none, .named "Boolean", []⟩)]), ("Int", .scalar "Int" none),
      ("String", .scalar "String" none), ("Boolean", .scalar "Boolean" none)]
  directives := Introspection.directives

def skip (condition : Literal) : Directive := ⟨"skip", [("if", condition)]⟩

def «include» (condition : Literal) : Directive := ⟨"include", [("if", condition)]⟩

/-- The field `beds` as the fragment selects it. -/
def bunks : Selection :=
  .field none "beds"
    [("kind", .string "bunk"), ("above", .variable "above"), ("room", .variable "room")] [] []

def beds : FragmentDefinition := ⟨"beds", "Query", [], [.field none "lodge" [] [] [bunks]]⟩

/-- Whether the lodge is open is selected under a condition, and so are the beds for the second
time. -/
def selection : List Selection :=
  [.spread "beds" [],
    .field none "lodge" [] []
      [.field none "open" [] [skip (.variable "hide")] [],
        .field (some "size") "beds" [("room", .int "9")] [«include» (.bool true)] []],
    .inline none [«include» (.variable "hide")] [.spread "beds" []]]

def definition : OperationDefinition where
  kind := .query
  name := none
  variableDefs :=
    [⟨"hide", .nonNull (.named "Boolean"), none, []⟩, ⟨"above", .named "Int", none, []⟩,
      ⟨"room", .named "Int", none, []⟩]
  directives := []
  selection := selection

def document : Document := ⟨[definition], [beds]⟩

theorem selected_spread (rest : List Selection) :
    schema.selectionSound definition.variableDefs [beds] "Query" (.spread "beds" [] :: rest) =
      schema.selectionSound definition.variableDefs [beds] "Query" rest := by
  have placed : schema.selectionSound definition.variableDefs [] "Query" beds.selection = true := by
    simp [beds, bunks, selectionSound]
    decide
  rw [selectionSound]
  exact congrArg (true && · && _) placed

theorem selected :
    schema.selectionSound definition.variableDefs [beds] "Query" selection = true := by
  simp [selection, selected_spread, selectionSound]
  decide

theorem sound : schema.documentSound document = true := by
  have merged : TypeSystem.mergeable [beds] 9 selection = true := by
    cbv
  have sound : schema.operationSound document definition = true := by
    show (_ && schema.selectionSound definition.variableDefs [beds] "Query" selection &&
      TypeSystem.mergeable [beds] 9 selection) = true
    rw [selected, merged]
    decide
  show (_ && _ && (schema.operationSound document definition && true)) = true
  rw [sound]
  decide

def bindings : Ordered String Json := [("hide", .bool true), ("room", .ofNat 7)]

/-- What runs when that is hidden: the beds with the room that is bound and with the default for
what is not. -/
def collected : List FieldSelection :=
  [⟨"lodge", none, [],
    [⟨"beds", none, [("kind", .string "bunk"), ("room", .ofNat 7), ("above", .ofNat 4)], []⟩,
      ⟨"beds", some "size", [("room", .ofNat 9), ("above", .ofNat 4)], []⟩]⟩]

theorem lowered_selection :
    (schema.lowerOperation document definition bindings).selection = collected := by
  show mergeFields (lowerSelection schema bindings [beds] "Query" selection) [] = collected
  have placed : lowerFragment schema bindings [beds] "beds" =
      lowerSelection schema bindings [] "Query" beds.selection :=
    lowerFragment_of_found (show [beds].find? (·.name == "beds") = some beds from rfl)
  rw [selection]
  simp (disch := decide) only [lowerSelection_spread, lowerSelection_field, lowerSelection_inline,
    lowerSelection_nil, placed]
  rw [beds, bunks]
  simp (disch := decide) only [lowerSelection_field, lowerSelection_nil, lowerSelection_of_dropped,
    FieldNode.lower]
  rfl

/-- All that is selected on the lodge is collected below one field, except for what is dropped. -/
theorem lowerOperation_collects_lodge :
    schema.documentSound document = true ∧ definition ∈ document.operations ∧
      (∃ nodes, Expands [beds] bindings "Query" selection nodes ∧
        Collects schema [beds] bindings nodes collected) ∧
      schema.lowerOperation document
          { definition with selection := selection ++ [.spread "beds" []] } bindings =
        schema.lowerOperation document definition bindings := by
  have member : definition ∈ document.operations := List.mem_singleton.mpr rfl
  obtain ⟨⟨root, known, collects⟩, -, again⟩ :=
    schema.lowerOperation_collects document definition bindings sound member
  obtain rfl : "Query" = root := Option.some.inj known
  have spread : SpreadsAgain bindings [] selection (selection ++ [.spread "beds" []]) :=
    .spread (.field .same (.inline .same (.again (by simp [spreadNames, not_drops_nil]) .same)))
  exact ⟨sound, member, (collects _).mpr lowered_selection.symm,
    again _ _ spread (.cons ⟨rfl, rfl, .same⟩ .nil)⟩

end Lodge

end MockGraph
