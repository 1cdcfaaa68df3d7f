import MockGraph.Proofs.Operation.Coercion
import MockGraph.Proofs.Operation.Descent
set_option autoImplicit false

namespace MockGraph

open Syntax TypeSystem

/-- The fields of one key at a place of an operation, and the first of them, which stands for them
all. -/
structure Runs (schema : TypeSystem) (document : Document) (definition : OperationDefinition)
    (bindings : Ordered String Json) (root parent : String) (node : FieldNode)
    (alike : List FieldNode) : Prop where
  place : ∃ selection nodes,
      Merged schema document.fragments bindings root definition.selection parent selection ∧
        Expands document.fragments bindings parent selection nodes ∧
        alike = nodes.filter (·.responseKey = node.responseKey)
  first : alike.head? = some node

/-- What the check before a run finds in an operation whose document was accepted: a field that
describes the schema, an object from which conditions remove all that is selected on it, or an
argument that has to be given and gets `null`. -/
inductive Refused (schema : TypeSystem) (document : Document) (definition : OperationDefinition)
    (provided bindings : Ordered String Json) (root : String) : ValidationError → Prop
  | introspection {node alike} :
      Runs schema document definition bindings root schema.query node alike →
      node.name = "__schema" ∨ node.name = "__type" →
      Refused schema document definition provided bindings root
        (.unknownField schema.query node.name)
  | emptied {parent node alike declared members} :
      Runs schema document definition bindings root parent node alike →
      schema.field parent node.name = .ok declared →
      schema.fieldsOf declared.type.namedType = .ok members →
      (∀ other ∈ alike, other.selection ≠ [] ∧
        ∀ selection ∈ other.selection, Removed document.fragments bindings selection) →
      Refused schema document definition provided bindings root
        (.missingSelection node.name declared.type.text)
  | nulled {parent node alike declared name input literal} :
      Runs schema document definition bindings root parent node alike →
      schema.field parent node.name = .ok declared →
      Ordered.get? declared.arguments name = some input → input.isRequired = true →
      (name, literal) ∈ node.arguments → SuppliesNull definition.variableDefs provided literal →
      Refused schema document definition provided bindings root
        (.missingArgument parent node.name name)

section

variable {schema : TypeSystem} {parent : String} {error : ValidationError}

theorem fieldErrors_cases {field : FieldSelection}
    (found : error ∈ schema.fieldErrors parent field) :
    (field.name = "__typename" ∧ field.selection ≠ []) ∨
      (field.name ≠ "__typename" ∧ (∀ declared, schema.field parent field.name ≠ .ok declared) ∧
        error = .unknownField parent field.name) ∨
      field.name ≠ "__typename" ∧ ∃ declared, schema.field parent field.name = .ok declared ∧
        (error ∈ unknownArguments parent field declared ∨
          error ∈ missingArguments parent field declared ∨
          (∃ object description members,
            schema.resolve declared.type.namedType = .ok (.object object description members) ∧
              (field.selection = [] ∧ error = .missingSelection field.name declared.type.text ∨
                error ∈ schema.selectionErrors object field.selection)) ∨
          ∃ type, schema.resolve declared.type.namedType = .ok type ∧
            (∀ object description members, type ≠ .object object description members) ∧
            field.selection ≠ []) := by
  obtain ⟨name, aliasName, arguments, selection⟩ := field
  rw [fieldErrors] at found
  dsimp only at found ⊢
  split at found
  · rename_i isTypename
    refine Or.inl ⟨isTypename, ?_⟩
    rintro rfl
    cases found
  · rename_i named
    refine Or.inr ?_
    split at found
    · rename_i undeclared
      refine Or.inl ⟨named, ?_, List.mem_singleton.mp found⟩
      intro declared same
      cases undeclared.symm.trans same
    · rename_i declared known
      refine Or.inr ⟨named, declared, known, ?_⟩
      rcases List.mem_append.mp found with arguments | below
      · rcases List.mem_append.mp arguments with unknown | missing
        · exact Or.inl unknown
        · exact Or.inr (Or.inl missing)
      · refine Or.inr (Or.inr ?_)
        split at below
        · rename_i object description members resolved
          refine Or.inl ⟨object, description, members, resolved, ?_⟩
          split at below
          · rename_i empty
            exact Or.inl ⟨List.isEmpty_iff.mp empty, List.mem_singleton.mp below⟩
          · exact Or.inr below
        · rename_i type noObject resolved
          refine Or.inr ⟨type, resolved, noObject, ?_⟩
          rintro rfl
          cases below
        · cases below

/-- Only what has to be given is missing, and nothing but `null` is given for it. -/
theorem mem_missingArguments {field : FieldSelection} {declared : FieldDef}
    (missing : error ∈ missingArguments parent field declared) :
    ∃ name input, (name, input) ∈ declared.arguments ∧ input.isRequired = true ∧
      (∀ value, Ordered.get? field.arguments name = some value → value = .null) ∧
      error = .missingArgument parent field.name name := by
  obtain ⟨⟨name, input⟩, member, reported⟩ := List.mem_filterMap.mp missing
  refine ⟨name, input, member, ?_⟩
  cases given : Ordered.get? field.arguments name with
  | none =>
    simp only [given, Bool.not_false, Bool.and_true] at reported
    split at reported
    · rename_i required
      refine ⟨required, fun value found => ?_, (Option.some.inj reported).symm⟩
      cases found
    · cases reported
  | some value =>
    simp only [given, Bool.not_not] at reported
    split at reported
    · rename_i both
      obtain ⟨required, null⟩ := Bool.and_eq_true_iff.mp both
      refine ⟨required, fun other same => ?_, (Option.some.inj reported).symm⟩
      obtain rfl := Option.some.inj same
      cases value with
      | null => rfl
      | _ => cases null
    · cases reported

theorem mem_selectionErrors {field : FieldSelection} {rest : List FieldSelection} :
    error ∈ schema.selectionErrors parent (field :: rest) ↔
      error ∈ schema.fieldErrors parent field ∨ error ∈ schema.selectionErrors parent rest :=
  List.mem_append

end

/-- An operation in which something is wrong does not start. -/
theorem Engine.start_of_invalid {σ : Type} (engine : Engine σ) {operation : Operation}
    {root : String} {error : ValidationError} {others : List ValidationError}
    (known : engine.schema.root? operation.kind = some root)
    (invalid : engine.schema.selectionErrors root operation.selection = error :: others)
    (payload : Option Json) : engine.start operation payload = .error ⟨error :: others⟩ := by
  unfold start
  simp only [known, invalid]

theorem Engine.run_of_valid {σ : Type} (engine : Engine σ) {operation : Operation} {root : String}
    (known : engine.schema.root? operation.kind = some root)
    (valid : engine.schema.selectionErrors root operation.selection = []) (payload : Option Json)
    (world : World σ) :
    ∃ response after, engine.run operation payload world = (.ok response, after) := by
  have started : ∃ progress, engine.start operation payload = .ok progress := by
    unfold start
    simp only [known, valid]
    cases engine.mocks.objectSeed? .root root with
    | none => exact ⟨_, rfl⟩
    | some seed => cases seed <;> exact ⟨_, rfl⟩
  obtain ⟨progress, started⟩ := started
  unfold run
  rw [started]
  cases progress with
  | finished response => exact ⟨response, world, rfl⟩
  | running run => exact ⟨_, _, rfl⟩

/-- An operation that was accepted, with the values of its variables. -/
structure Accepted (schema : TypeSystem) (document : Document) (definition : OperationDefinition)
    (provided bindings : Ordered String Json) (root : String) : Prop where
  wellFormed : schema.WellFormed
  known : schema.root? definition.kind = some root
  settled : Settled schema definition.variableDefs document.fragments root definition.selection
  filled : ∀ fragment ∈ document.fragments, FilledSet fragment.selection
  variablesSound : schema.variablesSound definition.variableDefs = true
  coerced : coerceVariables definition.variableDefs provided = .ok bindings

namespace FieldNode.Allowed

variable {schema : TypeSystem} {variableDefs : List VariableDefinition} {parent : String}
  {node : FieldNode} {declared : FieldDef}

/-- Something is selected on an object, and nothing on a scalar or an enum. -/
theorem selected_iff (allowed : node.Allowed schema variableDefs parent declared) {type : TypeDef}
    (resolved : schema.resolve declared.type.namedType = .ok type) :
    node.selection = [] ↔ type.isLeaf = true := by
  have rightly := allowed.field.selection
  rw [selectsRightly, typeNamed?_of_resolve resolved] at rightly
  have same : type.isLeaf = node.selection.isEmpty := beq_iff_eq.mp rightly
  rw [same, List.isEmpty_iff]

theorem selectable (allowed : node.Allowed schema variableDefs parent declared) :
    schema.selectable? node.parent node.name = some declared := by
  rw [allowed.within]
  exact allowed.field.known

theorem fieldType_eq (allowed : node.Allowed schema variableDefs parent declared) :
    node.fieldType schema = declared.type.namedType := by
  rw [FieldNode.fieldType, allowed.selectable]
  rfl

theorem values_eq (allowed : node.Allowed schema variableDefs parent declared)
    (bindings : Ordered String Json) :
    node.values schema bindings =
      withDefaults declared.arguments (givenArguments bindings node.arguments) := by
  rw [FieldNode.values, FieldNode.inputs, allowed.selectable]
  rfl

theorem typename_eq (allowed : node.Allowed schema variableDefs parent declared)
    (isTypename : node.name = "__typename") : declared.type.namedType = "String" := by
  have known := allowed.field.known
  rw [FieldNode.levelField, isTypename, selectable?] at known
  split at known
  · rw [if_pos rfl] at known
    rw [← Option.some.inj known]
    rfl
  · cases known

/-- What the schema declares is what the document was checked against. -/
theorem declared_eq (allowed : node.Allowed schema variableDefs parent declared)
    (named : node.name ≠ "__typename") {definition : FieldDef}
    (known : schema.field parent node.name = .ok definition) : declared = definition :=
  Option.some.inj (allowed.field.known.symm.trans (selectable?_of_field known named))

/-- A field that can be selected on an object, but that the object does not declare, describes the
schema. -/
theorem introspective (allowed : node.Allowed schema variableDefs parent declared)
    (named : node.name ≠ "__typename") {members : Ordered String FieldDef}
    (object : schema.fieldsOf parent = .ok members)
    (undeclared : ∀ definition, schema.field parent node.name ≠ .ok definition) :
    parent = schema.query ∧ (node.name = "__schema" ∨ node.name = "__type") := by
  have absent : Ordered.get? members node.name = none := by
    cases found : Ordered.get? members node.name with
    | none => rfl
    | some definition =>
      refine absurd ?_ (undeclared definition)
      rw [TypeSystem.field, object]
      simp [found]
  have known := allowed.field.known
  unfold fieldsOf at object
  split at object
  · cases object
  · rename_i resolved
    obtain rfl := Except.ok.inj object
    rw [selectable?, typeNamed?_of_resolve resolved] at known
    simp only [FieldNode.levelField, named, absent, if_false] at known
    split at known
    · rename_i isQuery
      have listed : node.name ∈ ["__schema", "__type"] :=
        List.mem_map_of_mem (f := Prod.fst) (Ordered.mem_of_get? known)
      exact ⟨isQuery, by simpa using listed⟩
    · cases known
  · cases object

theorem no_unknownArguments (allowed : node.Allowed schema variableDefs parent declared)
    (bindings : Ordered String Json) (aliasName : Option String) (selection : List FieldSelection) :
    unknownArguments parent ⟨node.name, aliasName, node.values schema bindings, selection⟩
      declared = [] := by
  refine List.filterMap_eq_nil_iff.mpr fun name present => ?_
  have contained : Ordered.contains declared.arguments name = true := by
    rw [Ordered.contains_iff_mem_keys]
    rw [allowed.values_eq] at present
    rcases given_or_declared present with given | declared
    · obtain ⟨value, found⟩ : ∃ value,
          Ordered.get? (givenArguments bindings node.arguments) name = some value := by
        cases found : Ordered.get? (givenArguments bindings node.arguments) name with
        | some value => exact ⟨value, rfl⟩
        | none => exact absurd given ((Ordered.get?_eq_none_iff _ _).mp found)
      obtain ⟨literal, member, -⟩ := mem_of_givenArguments found
      have arguments := allowed.field.arguments
      simp only [argumentsAllowed, Bool.and_eq_true, List.all_eq_true] at arguments
      have each := arguments.1.2 (name, literal) member
      by_contra absent
      simp [(Ordered.get?_eq_none_iff _ _).mpr absent] at each
    · exact declared
  rw [if_pos contained]

end FieldNode.Allowed

namespace Accepted

variable {schema : TypeSystem} {document : Document} {definition : OperationDefinition}
  {provided bindings : Ordered String Json} {root parent : String} {node : FieldNode}
  {alike : List FieldNode} {error : ValidationError}

/-- Fields of one key are the same field. It keeps the rules, and so does what is selected on it. -/
theorem allowed (accepted : Accepted schema document definition provided bindings root)
    (runs : Runs schema document definition bindings root parent node alike) :
    ∃ declared, (∀ other ∈ alike, other.name = node.name ∧
        other.Allowed schema definition.variableDefs parent declared) ∧
      Settled schema definition.variableDefs document.fragments (node.fieldType schema)
        (alike.flatMap (·.selection)) := by
  obtain ⟨selection, nodes, merged, expands, rfl⟩ := runs.place
  have member : node ∈ nodes := (List.mem_filter.mp (List.mem_of_head? runs.first)).1
  obtain ⟨declared, each, settled⟩ :=
    (merged.settled accepted.settled accepted.filled).step expands accepted.filled member
  refine ⟨declared, fun other filtered => ?_, settled⟩
  obtain ⟨inside, same⟩ := List.mem_filter.mp filtered
  exact each other inside (of_decide_eq_true same)

theorem refused_of_missing (accepted : Accepted schema document definition provided bindings root)
    (runs : Runs schema document definition bindings root parent node alike)
    (named : node.name ≠ "__typename") {declared : FieldDef}
    (known : schema.field parent node.name = .ok declared) {aliasName : Option String}
    {selection : List FieldSelection}
    (missing : error ∈
      missingArguments parent ⟨node.name, aliasName, node.values schema bindings, selection⟩
        declared) : Refused schema document definition provided bindings root error := by
  obtain ⟨checked, each, -⟩ := accepted.allowed runs
  have allowed := (each node (List.mem_of_head? runs.first)).2
  obtain rfl := allowed.declared_eq named known
  obtain ⟨name, input, member, required, null, rfl⟩ := mem_missingArguments missing
  have declared : Ordered.get? checked.arguments name = some input :=
    Ordered.get?_of_mem (accepted.wellFormed.distinct known) member
  obtain ⟨type, resolved⟩ := accepted.wellFormed.inputs known _ member
  rw [allowed.values_eq] at null
  obtain ⟨literal, given, supplies⟩ :=
    suppliesNull_of_missing accepted.variablesSound accepted.coerced allowed.field.arguments
      declared required ⟨type, typeNamed?_of_resolve resolved⟩ null
  exact .nulled runs known declared required given supplies

theorem eq_nil_of_unselected {fragments : List FragmentDefinition} {fieldType : String}
    {below : List FieldNode} {tree : List FieldSelection}
    (unselected : ∀ other ∈ alike, other.selection = [])
    (expands : Expands fragments bindings fieldType (alike.flatMap (·.selection)) below)
    (collects : Collects schema fragments bindings below tree) : tree = [] := by
  have empty : alike.flatMap (·.selection) = [] := List.flatMap_eq_nil_iff.mpr unselected
  rw [empty] at expands
  cases expands
  cases collects
  rfl

/-- What the check finds at a field that runs, or below it. -/
theorem refused_of_fieldErrors
    (accepted : Accepted schema document definition provided bindings root)
    (runs : Runs schema document definition bindings root parent node alike)
    (object : ∃ members, schema.fieldsOf parent = .ok members) {below : List FieldNode}
    {selection : List FieldSelection}
    (expands : Expands document.fragments bindings (node.fieldType schema)
      (alike.flatMap (·.selection)) below)
    (collects : Collects schema document.fragments bindings below selection)
    (ih : (∃ members, schema.fieldsOf (node.fieldType schema) = .ok members) →
      ∀ error ∈ schema.selectionErrors (node.fieldType schema) selection,
        Refused schema document definition provided bindings root error)
    (found : error ∈
      schema.fieldErrors parent
        ⟨node.name, node.aliasName, node.values schema bindings, selection⟩) :
    Refused schema document definition provided bindings root error := by
  obtain ⟨checked, each, settled⟩ := accepted.allowed runs
  have allowed := (each node (List.mem_of_head? runs.first)).2
  -- Nothing is selected on a type that has no fields.
  have leaf : ∀ {type : TypeDef}, schema.resolve checked.type.namedType = .ok type →
      type.isLeaf = true → selection = [] := by
    intro type resolved isLeaf
    exact eq_nil_of_unselected
      (fun other inside => ((each other inside).2.selected_iff resolved).mpr isLeaf) expands
      collects
  rcases fieldErrors_cases found with ⟨isTypename, selected⟩ | ⟨named, undeclared, rfl⟩ |
    ⟨named, declared, known, unknown | missing | ⟨name, description, members, resolved, found⟩ |
      ⟨type, resolved, noObject, selected⟩⟩
  · obtain ⟨_, _, text⟩ := accepted.wellFormed.text
    rw [← allowed.typename_eq isTypename] at text
    exact absurd (leaf text rfl) selected
  · obtain ⟨members, object⟩ := object
    obtain ⟨rfl, which⟩ := allowed.introspective named object undeclared
    exact .introspection runs which
  · obtain rfl := allowed.declared_eq named known
    rw [allowed.no_unknownArguments] at unknown
    cases unknown
  · exact accepted.refused_of_missing runs named known missing
  · obtain rfl := allowed.declared_eq named known
    obtain rfl : name = checked.type.namedType := accepted.wellFormed.named resolved
    have object : schema.fieldsOf checked.type.namedType = .ok members := by rw [fieldsOf, resolved]
    rcases found with ⟨rfl, rfl⟩ | found
    · refine .emptied runs known object fun other inside => ⟨?_, fun inner selected => ?_⟩
      · intro empty
        cases ((each other inside).2.selected_iff resolved).mp empty
      · cases collects
        exact expands.removed rfl accepted.filled settled.filled inner
          (List.mem_flatMap.mpr ⟨other, inside, selected⟩)
    · rw [allowed.fieldType_eq] at ih
      exact ih ⟨members, object⟩ error found
  · obtain rfl := allowed.declared_eq named known
    obtain ⟨other, resolvedAgain, noInput⟩ := accepted.wellFormed.selectable known
    obtain rfl := Except.ok.inj (resolved.symm.trans resolvedAgain)
    refine absurd (leaf resolved ?_) selected
    cases type with
    | scalar | enum => rfl
    | object => exact absurd rfl (noObject _ _ _)
    | input => exact absurd rfl (noInput _ _ _)

/-- The fields of another key are not fewer without those of the first. -/
theorem filter_responseKey_of_ne {first : FieldNode} (rest : List FieldNode)
    (different : node.responseKey ≠ first.responseKey) :
    (rest.filter (·.responseKey ≠ first.responseKey)).filter (·.responseKey = node.responseKey) =
      (first :: rest).filter (·.responseKey = node.responseKey) := by
  rw [List.filter_filter, List.filter_cons_of_neg (by simpa using Ne.symm different)]
  apply List.filter_congr
  intro other _
  by_cases same : other.responseKey = node.responseKey
  · simp [same, different]
  · simp [same]

/-- What the check finds in what was collected. The induction is on how it was collected: at each
place the fields of the first key, what is below them, and then the fields of other keys. -/
theorem refused_of_selectionErrors
    (accepted : Accepted schema document definition provided bindings root) {nodes : List FieldNode}
    {tree : List FieldSelection}
    (collects : Collects schema document.fragments bindings nodes tree) :
    ∀ {parent selection all},
      Merged schema document.fragments bindings root definition.selection parent selection →
        Expands document.fragments bindings parent selection all →
        (∀ node ∈ nodes, nodes.filter (·.responseKey = node.responseKey) =
          all.filter (·.responseKey = node.responseKey)) →
        (∃ members, schema.fieldsOf parent = .ok members) →
        ∀ error ∈ schema.selectionErrors parent tree,
          Refused schema document definition provided bindings root error := by
  induction collects with
  | nil => exact fun _ _ _ _ error found => by cases found
  | @cons first rest below arguments selection others takes expandsBelow collectsBelow _ ihBelow
      ihOthers =>
    obtain rfl := FieldNode.takes_iff.mp takes
    intro parent merged all place expands whole object error found
    have alike := whole first List.mem_cons_self
    rw [filter_responseKey_cons] at alike
    have runs :
        Runs schema document definition bindings root parent first
          (first :: rest.filter (·.responseKey = first.responseKey)) :=
      ⟨⟨merged, all, place, expands, alike⟩, rfl⟩
    have member : first ∈ all := by
      have inside : first ∈ all.filter (·.responseKey = first.responseKey) :=
        alike ▸ List.mem_cons_self
      exact (List.mem_filter.mp inside).1
    rcases mem_selectionErrors.mp found with here | later
    · refine accepted.refused_of_fieldErrors runs object expandsBelow collectsBelow
        (fun object => ?_) here
      have inner := place.inner expands member
      rw [← alike] at inner
      exact ihBelow inner expandsBelow (fun _ _ => rfl) object
    · refine ihOthers place expands (fun node inside => ?_) object error later
      obtain ⟨there, other⟩ := List.mem_filter.mp inside
      rw [← whole node (List.mem_cons_of_mem _ there)]
      exact filter_responseKey_of_ne rest (of_decide_eq_true other)

end Accepted

namespace TypeSystem

/-- An operation comes from an accepted document, by collecting its fields. -/
theorem accepted_of_parsed {schema : TypeSystem} {sdl text : String} {name : Option String}
    {provided : Option (Ordered String Json)} {operation : Operation}
    (loaded : parse sdl = .ok schema)
    (parsed : schema.parseOperation text name provided = .ok operation) :
    ∃ document definition root nodes, Document.parse? text = some document ∧
      document.operation? name = .ok definition ∧ definition.kind = operation.kind ∧
      Accepted schema document definition (provided.getD []) operation.bindings root ∧
      Expands document.fragments operation.bindings root definition.selection nodes ∧
      Collects schema document.fragments operation.bindings nodes operation.selection := by
  obtain ⟨document, definition, bindings, read, sound, found, coerced, rfl⟩ :=
    parseOperation_cases parsed
  have inside := mem_of_operation? found
  obtain ⟨root, nodes, known, -, expands, collects⟩ := collects_of_sound sound inside
  have filled := Document.filled_of_parse? read
  refine ⟨document, definition, root, nodes, read, found, rfl, ?_, expands, collects⟩
  simp only [documentSound, Bool.and_eq_true, List.all_eq_true] at sound
  have operationSound := sound.2 definition inside
  rw [TypeSystem.operationSound, known] at operationSound
  simp only [Bool.and_eq_true] at operationSound
  obtain ⟨⟨⟨⟨⟨-, variableDefs⟩, -⟩, -⟩, selected⟩, mergeable⟩ := operationSound
  exact ⟨wellFormed_of_parse loaded, known,
    ⟨selected, ⟨_, _, mergeable, fun _ listed => listed⟩, (filled.operations _ inside).inner⟩,
    filled.fragments, variableDefs, coerced⟩

/-- Nothing is refused but a field that describes the schema, an object without what is selected on
it, or an argument that gets `null`. -/
theorem refused_cases {schema : TypeSystem} {document : Document} {definition : OperationDefinition}
    {provided bindings : Ordered String Json} {root : String} {error : ValidationError}
    (refused : Refused schema document definition provided bindings root error) :
    (∀ parent field argument, error ≠ .unknownArgument parent field argument) ∧
      ∀ field type, error ≠ .leafSelection field type := by
  cases refused <;> exact ⟨nofun, nofun⟩

/-- The check before a run agrees with that of the document, for a schema that was read and any
operation that was accepted for it. It finds nothing but what a few features of the document
explain, and an operation without these runs. -/
theorem selectionErrors_of_parsed (sdl text : String) (schema : TypeSystem) (name : Option String)
    (provided : Option (Ordered String Json)) (operation : Operation)
    (loaded : parse sdl = .ok schema)
    (parsed : schema.parseOperation text name provided = .ok operation) :
    ∃ document definition root, Document.parse? text = some document ∧
      document.operation? name = .ok definition ∧ definition.kind = operation.kind ∧
      schema.root? operation.kind = some root ∧
      (∀ error ∈ schema.selectionErrors root operation.selection,
        Refused schema document definition (provided.getD []) operation.bindings root error ∧
          (∀ parent field argument, error ≠ .unknownArgument parent field argument) ∧
          ∀ field type, error ≠ .leafSelection field type) ∧
      ((∀ error,
          ¬ Refused schema document definition (provided.getD []) operation.bindings root error) →
        ∀ {σ : Type} (engine : Engine σ) (payload : Option Json) (world : World σ),
          engine.schema = schema →
            ∃ response after, engine.run operation payload world = (.ok response, after)) := by
  obtain ⟨document, definition, root, nodes, read, chosen, kind, accepted, expands, collects⟩ :=
    accepted_of_parsed loaded parsed
  have known : schema.root? operation.kind = some root := kind ▸ accepted.known
  have refused := accepted.refused_of_selectionErrors collects .root expands (fun _ _ => rfl)
    (accepted.wellFormed.roots known)
  refine ⟨document, definition, root, read, chosen, kind, known, fun error found => ?_, ?_⟩
  · exact ⟨refused error found, refused_cases (refused error found)⟩
  · rintro none σ engine payload world rfl
    have valid : engine.schema.selectionErrors root operation.selection = [] :=
      List.eq_nil_iff_forall_not_mem.mpr fun error found => none error (refused error found)
    exact engine.run_of_valid known valid payload world

end TypeSystem

namespace Snow

/-- Whether there is more snow than some depth. -/
def sdl : String := "scalar Depth type Query{snow(above:Depth!):String}"

def schema : TypeSystem where
  query := "Query"
  mutation := none
  subscription := none
  types :=
    [("String", .scalar "String" none), ("Boolean", .scalar "Boolean" none),
      ("Depth", .scalar "Depth" none),
      ("Query", .object "Query" none [("snow",
        ⟨"snow", none, .named "String",
          [("above", ⟨"above", none, .nonNull (.named "Depth"), none⟩)]⟩)])]
  directives := Introspection.directives

theorem loaded : parse sdl = .ok schema := rfl

/-- The operation that asks for snow above no depth at all. -/
def operation : Operation := ⟨.query, none, [⟨"snow", none, [("above", .null)], []⟩], []⟩

def text : String := "{snow(above:1e400)}"

def definition : OperationDefinition :=
  ⟨.query, none, [], [], [.field none "snow" [("above", .float "1e400")] [] []]⟩

def document : Document := ⟨[definition], []⟩

theorem read : Document.parse? text = some document := rfl

theorem parsed : schema.parseOperation text none none = .ok operation := by
  have sound : schema.documentSound document = true := documentSound_of_leaf rfl rfl rfl rfl rfl
  have lowered : schema.lowerOperation document definition [] = operation :=
    lowerOperation_of_leaf rfl rfl rfl rfl
  rw [← lowered]
  exact parseOperation_of_sound read sound rfl rfl

theorem refused :
    schema.selectionErrors "Query" operation.selection =
      [.missingArgument "Query" "snow" "above"] := rfl

theorem selectionErrors_of_parsed_snow :
    parse sdl = .ok schema ∧ schema.parseOperation text none none = .ok operation ∧
      Refused schema document definition [] [] "Query"
        (.missingArgument "Query" "snow" "above") := by
  obtain ⟨there, chosen, root, readThere, found, -, known, errors, -⟩ :=
    selectionErrors_of_parsed sdl text schema none none operation loaded parsed
  obtain rfl := Option.some.inj (read.symm.trans readThere)
  obtain rfl : definition = chosen := Except.ok.inj found
  obtain rfl : "Query" = root := Option.some.inj known
  refine ⟨loaded, parsed, (errors _ ?_).1⟩
  rw [refused]
  exact List.mem_singleton_self _

/-- A depth that may be left out, and is `null` then. -/
def defaultText : String := "query($d:Depth=null){snow(above:$d)}"

def defaultDefinition : OperationDefinition :=
  ⟨.query, none, [⟨"d", .named "Depth", some .null, []⟩], [],
    [.field none "snow" [("above", .variable "d")] [] []]⟩

def defaultDocument : Document := ⟨[defaultDefinition], []⟩

theorem parsed_default : schema.parseOperation defaultText none none =
    .ok { operation with bindings := [("d", .null)] } := by
  have readDefault : Document.parse? defaultText = some defaultDocument := rfl
  have sound : schema.documentSound defaultDocument = true :=
    documentSound_of_leaf rfl rfl rfl rfl rfl
  have lowered : schema.lowerOperation defaultDocument defaultDefinition [("d", .null)] =
      { operation with bindings := [("d", .null)] } := lowerOperation_of_leaf rfl rfl rfl rfl
  rw [← lowered]
  exact parseOperation_of_sound readDefault sound rfl rfl

/-- An argument can be refused that is bound to no variable at all, and one whose variable is left
out. -/
theorem null_without_explicit_null :
    parse sdl = .ok schema ∧
      (Document.parse? text = some document ∧
        (∀ definition ∈ document.operations, definition.variableDefs = []) ∧
        schema.parseOperation text none none = .ok operation) ∧
      (Document.parse? defaultText = some defaultDocument ∧
        schema.parseOperation defaultText none none =
          .ok { operation with bindings := [("d", .null)] }) ∧
      schema.selectionErrors "Query" operation.selection =
        [.missingArgument "Query" "snow" "above"] ∧
      ∀ (bindings : Ordered String Json) {σ : Type} (engine : Engine σ) (world : World σ),
        engine.schema = schema →
          engine.execute { operation with bindings } world =
            (.error ⟨[.missingArgument "Query" "snow" "above"]⟩, world) := by
  refine ⟨loaded, ⟨read, ?_, parsed⟩, ⟨rfl, parsed_default⟩, refused, ?_⟩
  · intro definition member
    rw [List.mem_singleton.mp member]
    rfl
  · intro bindings σ engine world same
    have rejected : engine.start { operation with bindings } none =
        .error ⟨[.missingArgument "Query" "snow" "above"]⟩ := by
      apply engine.start_of_invalid
      · rw [same]
        rfl
      · rw [same]
        exact refused
    rw [Engine.execute, Engine.run, rejected]

end Snow

end MockGraph
