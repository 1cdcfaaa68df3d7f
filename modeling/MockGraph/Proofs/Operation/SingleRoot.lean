import MockGraph.Proofs.Execution.Arguments
import MockGraph.Proofs.Operation.Collection
import MockGraph.Proofs.Syntax.SelectionSets
set_option autoImplicit false

namespace MockGraph

section Reachability

variable {next : String → List String}

/-- The number of edges from names that have not been seen. -/
def unseenEdges (next : String → List String) (seen : List String) : List String → Nat
  | [] => 0
  | node :: rest => (if node ∈ seen then 0 else (next node).length) + unseenEdges next seen rest

theorem unseenEdges_cons_le (next : String → List String) (seen : List String) (name : String)
    (nodes : List String) :
    unseenEdges next (name :: seen) nodes ≤ unseenEdges next seen nodes := by
  induction nodes with
  | nil => exact Nat.le_refl _
  | cons node rest ih =>
    have here : (if node ∈ name :: seen then 0 else (next node).length) ≤
        if node ∈ seen then 0 else (next node).length := by
      split
      · exact Nat.zero_le _
      · rename_i fresh
        exact Nat.le_of_eq (if_neg fun known => fresh (List.mem_cons_of_mem _ known)).symm
    exact Nat.add_le_add here ih

theorem unseenEdges_cons {seen nodes : List String} {name : String} (member : name ∈ nodes)
    (fresh : name ∉ seen) :
    (next name).length + unseenEdges next (name :: seen) nodes ≤ unseenEdges next seen nodes := by
  induction nodes with
  | nil => cases member
  | cons node rest ih =>
    rw [unseenEdges, unseenEdges]
    by_cases same : node = name
    · have later := unseenEdges_cons_le next seen name rest
      rw [same, if_pos List.mem_cons_self, if_neg fresh]
      omega
    · have later := ih ((List.mem_cons.mp member).resolve_left (Ne.symm same))
      have alike : node ∈ name :: seen ↔ node ∈ seen := by rw [List.mem_cons, or_iff_right same]
      rw [if_congr alike rfl rfl]
      omega

/-- A search that has fuel for all names and edges misses nothing: it keeps what it has seen, comes
to all that is pending, and to all that these lead to. -/
theorem reachable_closed {nodes : List String} (outside : ∀ name ∉ nodes, next name = [])
    (fuel : Nat) :
    ∀ pending seen : List String, pending.length + unseenEdges next seen nodes < fuel →
      (∀ name ∈ seen, ∀ other ∈ next name, other ∈ seen ∨ other ∈ pending) →
      (∀ name ∈ seen, name ∈ reachable next fuel pending seen) ∧
        (∀ name ∈ pending, name ∈ reachable next fuel pending seen) ∧
        ∀ name ∈ reachable next fuel pending seen, ∀ other ∈ next name,
          other ∈ reachable next fuel pending seen := by
  induction fuel with
  | zero => exact fun pending seen enough => absurd enough (Nat.not_lt_zero _)
  | succ fuel ih =>
    intro pending seen enough closed
    cases pending with
    | nil =>
      rw [reachable]
      refine ⟨fun _ member => member, nofun, fun name member other edge => ?_⟩
      exact (closed name member other edge).resolve_right List.not_mem_nil
    | cons name pending =>
      rw [List.length_cons] at enough
      by_cases known : name ∈ seen
      · rw [reachable, if_pos (List.contains_iff_mem.mpr known)]
        obtain ⟨keeps, comes, leads⟩ := ih pending seen (by omega) fun first member other edge => by
          rcases closed first member other edge with before | waiting
          · exact Or.inl before
          · rcases List.mem_cons.mp waiting with rfl | later
            · exact Or.inl known
            · exact Or.inr later
        exact ⟨keeps, List.forall_mem_cons.mpr ⟨keeps name known, comes⟩, leads⟩
      · rw [reachable, if_neg (by simpa using known)]
        have shorter : (next name).length + unseenEdges next (name :: seen) nodes ≤
            unseenEdges next seen nodes := by
          by_cases listed : name ∈ nodes
          · exact unseenEdges_cons listed known
          · rw [outside name listed, List.length_nil, Nat.zero_add]
            exact unseenEdges_cons_le next seen name nodes
        obtain ⟨keeps, comes, leads⟩ := ih (next name ++ pending) (name :: seen)
          (by rw [List.length_append]; omega) fun first member other edge => by
            rcases List.mem_cons.mp member with rfl | before
            · exact Or.inr (List.mem_append_left _ edge)
            · rcases closed first before other edge with seen | waiting
              · exact Or.inl (List.mem_cons_of_mem _ seen)
              · rcases List.mem_cons.mp waiting with rfl | later
                · exact Or.inl List.mem_cons_self
                · exact Or.inr (List.mem_append_right _ later)
        refine ⟨fun first member => keeps first (List.mem_cons_of_mem _ member), ?_, leads⟩
        refine List.forall_mem_cons.mpr ⟨keeps name List.mem_cons_self, fun first member => ?_⟩
        exact comes first (List.mem_append_right _ member)

theorem searchSteps_eq (nodes start : List String) :
    searchSteps next nodes start =
      start.length + 1 + (unseenEdges next [] nodes + nodes.length) := by
  unfold searchSteps
  generalize start.length + 1 = first
  induction nodes generalizing first with
  | nil => rfl
  | cons node rest ih =>
    rw [List.foldl_cons, ih, unseenEdges, if_neg List.not_mem_nil, List.length_cons]
    omega

theorem mem_reachableFrom {nodes : List String} (outside : ∀ name ∉ nodes, next name = [])
    (start : List String) :
    (∀ name ∈ start, name ∈ reachableFrom next nodes start) ∧
      ∀ name ∈ reachableFrom next nodes start, ∀ other ∈ next name,
        other ∈ reachableFrom next nodes start := by
  have enough : start.length + unseenEdges next [] nodes < searchSteps next nodes start := by
    rw [searchSteps_eq]
    omega
  exact (reachable_closed outside _ start [] enough nofun).2

end Reachability

open Syntax

namespace Syntax

/-- The fragments that are spread at the level of a selection. -/
def Selection.levelSpreads (selection : List Selection) : List String :=
  (levelOf selection).filterMap fun selection => match selection with
    | .spread name _ => some name
    | _ => none

def Selection.fieldName? : Selection → Option String
  | .field _ name _ _ _ => some name
  | _ => none

namespace Document

/-- The fragments that a fragment spreads at its own level. -/
def levelNext (document : Document) (name : String) : List String :=
  match document.fragment? name with
  | some fragment => Selection.levelSpreads fragment.selection
  | none => []

variable {document : Document} {operation : OperationDefinition}

theorem rootLevel_eq (document : Document) (operation : OperationDefinition) :
    document.rootLevel operation = Selection.levelOf operation.selection ++
      (reachableFrom document.levelNext document.fragmentNames
        (Selection.levelSpreads operation.selection)).flatMap fun name =>
          match document.fragment? name with
          | some fragment => Selection.levelOf fragment.selection
          | none => [] := rfl

theorem levelNext_outside (document : Document) :
    ∀ name ∉ document.fragmentNames, document.levelNext name = [] := by
  intro name outside
  have none : document.fragment? name = none := by
    rw [fragment?, List.find?_eq_none]
    intro fragment member named
    exact outside (List.mem_map.mpr ⟨fragment, member, beq_iff_eq.mp named⟩)
  rw [levelNext, none]

/-- The fragments that are spread at the root are there with all that is at their level. -/
theorem levelOf_subset_rootLevel {name : String} {directives : List Directive}
    {fragment : FragmentDefinition}
    (spread : .spread name directives ∈ document.rootLevel operation)
    (found : document.fragment? name = some fragment) :
    Selection.levelOf fragment.selection ⊆ document.rootLevel operation := by
  obtain ⟨starts, leads⟩ :=
    mem_reachableFrom document.levelNext_outside (Selection.levelSpreads operation.selection)
  have spreads : ∀ selection : List Selection,
      .spread name directives ∈ Selection.levelOf selection →
        name ∈ Selection.levelSpreads selection :=
    fun selection member => List.mem_filterMap.mpr ⟨_, member, rfl⟩
  rw [rootLevel_eq] at spread ⊢
  intro inner member
  refine List.mem_append_right _ (List.mem_flatMap.mpr ⟨name, ?_, by rw [found]; exact member⟩)
  rcases List.mem_append.mp spread with root | inside
  · exact starts name (spreads _ root)
  · obtain ⟨other, reached, there⟩ := List.mem_flatMap.mp inside
    refine leads other reached name ?_
    rw [levelNext]
    cases known : document.fragment? other with
    | none =>
      rw [known] at there
      cases there
    | some fragment =>
      rw [known] at there
      exact spreads _ there

/-- The one root field of a subscription. -/
structure SingleRoot (document : Document) (operation : OperationDefinition) (name : String) :
    Prop where
  fields : (document.rootLevel operation).filterMap Selection.fieldName? = [name]
  plain : name ∉ ["__typename", "__schema", "__type"]
  unconditional : ∀ selection ∈ document.rootLevel operation, ∀ directive ∈ selection.directives,
    directive.isConditional = false

theorem subscriptionSound_eq (document : Document) (operation : OperationDefinition) :
    document.subscriptionSound operation =
      (operation.kind != .subscription ||
        (((document.rootLevel operation).filterMap Selection.fieldName?).length == 1 &&
          !((document.rootLevel operation).filterMap Selection.fieldName?).any
            (["__typename", "__schema", "__type"].contains ·) &&
          (document.rootLevel operation).all fun selection =>
            !selection.directives.any Directive.isConditional)) := rfl

theorem singleRoot_of_sound (sound : document.subscriptionSound operation = true)
    (kind : operation.kind = .subscription) : ∃ name, document.SingleRoot operation name := by
  have subscription : (operation.kind != .subscription) = false := by rw [kind]; rfl
  rw [subscriptionSound_eq, subscription, Bool.false_or] at sound
  simp only [Bool.and_eq_true, beq_iff_eq, Bool.not_eq_true', List.all_eq_true] at sound
  obtain ⟨⟨single, plain⟩, unconditional⟩ := sound
  obtain ⟨name, only⟩ := List.length_eq_one_iff.mp single
  refine ⟨name, only, ?_, ?_⟩
  · rw [only, List.any_cons, List.any_nil, Bool.or_false] at plain
    exact fun member => Bool.false_ne_true (plain.symm.trans (List.contains_iff_mem.mpr member))
  · intro selection member directive carried
    exact Bool.eq_false_iff.mpr
      (List.any_eq_false.mp (unconditional selection member) directive carried)

end Document

end Syntax

theorem not_drops_of_unconditional (bindings : Ordered String Json) {directives : List Directive}
    (unconditional : ∀ directive ∈ directives, directive.isConditional = false) :
    ¬ Drops bindings directives := by
  have none : ∀ name holds, name = "skip" ∨ name = "include" →
      ¬ Says bindings directives name holds := by
    rintro name holds condition ⟨directive, -, found, -⟩
    have plain := unconditional directive (List.mem_of_find?_eq_some found)
    have named : directive.name = name := by simpa using List.find?_some found
    rw [Directive.isConditional, named] at plain
    rcases condition with rfl | rfl <;> cases plain
  exact not_or_intro (none "skip" true (Or.inl rfl)) (none "include" false (Or.inr rfl))

section

variable {document : Document} {operation : OperationDefinition} {name : String}
  {bindings : Ordered String Json} {parent : String} {selection : List Selection}
  {nodes : List FieldNode}

/-- The fields that are expanded at the root stand there in the document, or in a fragment that is
spread there. -/
theorem Expands.at_root (expands : Expands document.fragments bindings parent selection nodes) :
    Selection.levelOf selection ⊆ document.rootLevel operation → ∀ node ∈ nodes, ∃ directives,
      .field node.aliasName node.name node.arguments directives node.selection ∈
        document.rootLevel operation := by
  induction expands with
  | nil => nofun
  | dropped _ _ ih =>
    intro inside
    exact ih ((List.append_subset.mp inside).2)
  | field _ _ ih =>
    intro inside
    refine List.forall_mem_cons.mpr ⟨⟨_, inside List.mem_cons_self⟩, ih ?_⟩
    exact (List.append_subset.mp inside).2
  | inline _ _ _ ihInside ihRest =>
    intro inside
    refine List.forall_mem_append.mpr ⟨ihInside ?_, ihRest ((List.append_subset.mp inside).2)⟩
    intro inner member
    exact inside (List.mem_append_left _ (List.mem_cons_of_mem _ member))
  | spread _ found _ _ ihInside ihRest =>
    intro inside
    refine List.forall_mem_append.mpr ⟨ihInside ?_, ihRest ((List.append_subset.mp inside).2)⟩
    exact document.levelOf_subset_rootLevel (inside List.mem_cons_self) found

/-- A filled selection without conditions selects something. -/
theorem Expands.ne_nil (expands : Expands document.fragments bindings parent selection nodes)
    (filled : document.Filled)
    (unconditional : ∀ selection ∈ document.rootLevel operation, ∀ directive ∈ selection.directives,
      directive.isConditional = false) :
    FilledSet selection → Selection.levelOf selection ⊆ document.rootLevel operation →
      nodes ≠ [] := by
  induction expands with
  | nil => exact fun set => absurd rfl set.nonempty
  | @dropped parent selection rest nodes out _ _ =>
    intro _ inside
    have here : selection ∈ Selection.levelOf (selection :: rest) := by
      rw [Selection.levelOf]
      cases selection <;> exact List.mem_append_left _ List.mem_cons_self
    exact absurd out (not_drops_of_unconditional bindings (unconditional selection (inside here)))
  | field => exact fun _ _ => List.cons_ne_nil _ _
  | inline _ _ _ ihInside _ =>
    intro set inside
    cases set.inner _ List.mem_cons_self with
    | inline nonempty inner =>
      refine List.append_ne_nil_of_left_ne_nil (ihInside ⟨nonempty, inner⟩ fun inner member => ?_) _
      exact inside (List.mem_append_left _ (List.mem_cons_of_mem _ member))
  | spread _ found _ _ ihInside _ =>
    intro set inside
    refine List.append_ne_nil_of_left_ne_nil (ihInside ?_ ?_) _
    · exact filled.fragments _ (List.mem_of_find?_eq_some found)
    · exact document.levelOf_subset_rootLevel (inside List.mem_cons_self) found

/-- All fields that are expanded at the root of a subscription are one and the same. -/
theorem Expands.alike
    (expands : Expands document.fragments bindings parent operation.selection nodes)
    (single : document.SingleRoot operation name) {first other : FieldNode} (member : first ∈ nodes)
    (another : other ∈ nodes) (parents : first.parent = other.parent) :
    other = first ∧ first.name = name := by
  have inside : Selection.levelOf operation.selection ⊆ document.rootLevel operation := by
    rw [Document.rootLevel_eq]
    exact List.subset_append_left _ _
  obtain ⟨before, only, after, split, early, named, late⟩ :=
    List.filterMap_eq_cons_iff.mp single.fields
  have unique : ∀ selection ∈ document.rootLevel operation, selection.fieldName? ≠ none →
      selection = only := by
    intro selection member isField
    rw [split] at member
    rcases List.mem_append.mp member with front | back
    · exact absurd (early selection front) isField
    · rcases List.mem_cons.mp back with same | rest
      · exact same
      · exact absurd (List.filterMap_eq_nil_iff.mp late selection rest) isField
  obtain ⟨directives, here⟩ := expands.at_root inside first member
  obtain ⟨others, there⟩ := expands.at_root inside other another
  have firstIs := unique _ here nofun
  have same := (unique _ there nofun).trans firstIs.symm
  obtain ⟨root, key, aliasName, arguments, selection⟩ := first
  obtain ⟨root', key', aliasName', arguments', selection'⟩ := other
  obtain rfl : root = root' := parents
  obtain ⟨rfl, rfl, rfl, -, rfl⟩ := Selection.field.inj same
  rw [← firstIs] at named
  exact ⟨rfl, Option.some.inj named⟩

end

theorem Collects.single {schema : TypeSystem} {fragments : List FragmentDefinition}
    {bindings : Ordered String Json} {nodes : List FieldNode} {tree : List FieldSelection}
    (collects : Collects schema fragments bindings nodes tree) {node : FieldNode}
    (present : node ∈ nodes) (alike : ∀ other ∈ nodes, other = node) :
    ∃ field, tree = [field] ∧ field.name = node.name := by
  cases collects with
  | nil => cases present
  | @cons first rest _ _ _ others _ _ _ later =>
    obtain rfl := alike first List.mem_cons_self
    have none : rest.filter (·.responseKey ≠ first.responseKey) = [] := by
      rw [List.filter_eq_nil_iff]
      intro other member differs
      rw [alike other (List.mem_cons_of_mem _ member)] at differs
      exact of_decide_eq_true differs rfl
    rw [none] at later
    cases later
    exact ⟨_, rfl, rfl⟩

/-- A subscription that parses selects one field, which the schema's own type declares: none of
those that all types have, and no introspection. -/
theorem TypeSystem.selection_of_subscription {schema : TypeSystem} {text : String}
    {name : Option String} {provided : Option (Ordered String Json)} {operation : Operation}
    (parsed : schema.parseOperation text name provided = .ok operation)
    (kind : operation.kind = .subscription) :
    ∃ field, operation.selection = [field] ∧ field.name ∉ ["__typename", "__schema", "__type"] := by
  obtain ⟨document, definition, bindings, read, sound, found, -, rfl⟩ := parseOperation_cases parsed
  have member := mem_of_operation? found
  have filled := Document.filled_of_parse? read
  have rooted : document.subscriptionSound definition = true := by
    simp only [documentSound, Bool.and_eq_true, List.all_eq_true] at sound
    have here := sound.2 definition member
    rw [operationSound] at here
    split at here
    · cases here
    · simp only [Bool.and_eq_true] at here
      exact here.1.1.2
  obtain ⟨key, single⟩ := Document.singleRoot_of_sound rooted kind
  obtain ⟨root, nodes, -, parents, expands, collects⟩ :=
    @collects_of_sound schema bindings document definition sound member
  have inside : Selection.levelOf definition.selection ⊆ document.rootLevel definition := by
    rw [Document.rootLevel_eq]
    exact List.subset_append_left _ _
  obtain ⟨node, present⟩ := List.exists_mem_of_ne_nil nodes
    (expands.ne_nil filled single.unconditional (filled.operations definition member) inside)
  obtain ⟨field, selection, named⟩ :=
    collects.single present fun other another =>
      (expands.alike single present another
        ((parents node present).trans (parents other another).symm)).1
  refine ⟨field, selection, ?_⟩
  rw [named, (expands.alike single present present rfl).2]
  exact single.plain

end MockGraph
