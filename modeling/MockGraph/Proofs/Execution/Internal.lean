import MockGraph.Proofs.Execution.Leaves
import MockGraph.Proofs.Mock.Checks
set_option autoImplicit false

namespace MockGraph

/-- A scalar that nothing generates, or an error that should never happen. -/
def ResolutionError.isInternal : ResolutionError → Bool
  | noGenerator _ | internal _ => true
  | _ => false

/-- A schema that operations can be run on: references lead to types of the right kind, and no enum
is empty. -/
structure TypeSystem.Executable (schema : TypeSystem) : Prop extends schema.WellFormed where
  symbols {name typeName : String} {description : Option String} {values : List String} :
    schema.resolve name = .ok (.enum typeName description values) → values ≠ []

theorem TypeSystem.executable_of_parse {text : String} {schema : TypeSystem}
    (parsed : parse text = .ok schema) : schema.Executable := by
  refine ⟨wellFormed_of_parse parsed, ?_⟩
  intro name typeName description values known
  obtain ⟨declarations, tabled, sound, rfl, -⟩ := declarations_of_parse parsed
  obtain ⟨declared, found, defined⟩ := Declarations.declared_of_resolve tabled known
  unfold Declarations.typeDef? at defined
  split at defined <;> cases defined
  rename_i symbols body
  simp only [Declarations.isSound, Bool.and_eq_true, List.all_eq_true] at sound
  have typeSound := sound.2 _ (Ordered.mem_of_get? found)
  rw [Declarations.typeSound, body] at typeSound
  intro empty
  rw [List.map_eq_nil_iff.mp empty] at typeSound
  simp at typeSound

/-- Rules do not fail with internal errors of their own. -/
structure Mocks.Regular (mocks : Mocks) : Prop where
  fields {position : Position} {error : ResolutionError} :
    mocks.fieldValue? position = some (.error error) → error.isInternal = false
  types {position : Position} {type : String} {error : ResolutionError} :
    mocks.typeValue? position type = some (.error error) → error.isInternal = false

/-- A type that stands in another one, or is that one. -/
inductive TypeRef.Inside : TypeRef → TypeRef → Prop
  | refl (type : TypeRef) : Inside type type
  | list {type item : TypeRef} : Inside type item → Inside type (.list item)
  | nonNull {type inner : TypeRef} : Inside type inner → Inside type (.nonNull inner)

/-- The types that values of a schema can have: those that it declares, and those of its fields with
all that stands in them. -/
inductive TypeSystem.Uses (schema : TypeSystem) : TypeRef → Prop
  | named {name : String} {type : TypeDef} : schema.resolve name = .ok type →
      Uses schema (.named name)
  | field {parent name : String} {definition : FieldDef} {type : TypeRef} :
      schema.field parent name = .ok definition → type.Inside definition.type → Uses schema type

/-- What goes wrong when values of a schema are produced: something raises an error, a null stands
where none may, or a value is not of its type. -/
inductive TypeSystem.Fault (schema : TypeSystem) (raised : ResolutionError → Prop) :
    ResolutionError → Prop
  | raised {error : ResolutionError} : raised error → Fault schema raised error
  | null (position : Position) : Fault schema raised (.nullForNonNull position.text)
  | unfit {type : TypeRef} (value : Json) : schema.Uses type →
      Fault schema raised (.unexpected type.text value)

namespace TypeSystem.Fault

variable {schema : TypeSystem} {raised raised' : ResolutionError → Prop} {error : ResolutionError}

theorem mono (fault : schema.Fault raised error) (more : ∀ error, raised error → raised' error) :
    schema.Fault raised' error := by
  cases fault with
  | raised isRaised => exact .raised (more _ isRaised)
  | null position => exact .null position
  | unfit value uses => exact .unfit value uses

theorem regular (fault : schema.Fault raised error)
    (ofRaised : ∀ error, raised error → error.isInternal = false) : error.isInternal = false := by
  cases fault with
  | raised isRaised => exact ofRaised _ isRaised
  | null | unfit => rfl

end TypeSystem.Fault

namespace Mocks

variable {mocks : Mocks}

/-- The rules of fields and types fail with these errors. -/
inductive Raises (mocks : Mocks) : ResolutionError → Prop
  | field {position : Position} {error : ResolutionError} :
      mocks.fieldValue? position = some (.error error) → Raises mocks error
  | type {position : Position} {type : String} {error : ResolutionError} :
      mocks.typeValue? position type = some (.error error) → Raises mocks error

theorem Regular.raises (regular : mocks.Regular) {error : ResolutionError}
    (raises : mocks.Raises error) : error.isInternal = false := by
  cases raises with
  | field failed => exact regular.fields failed
  | type failed => exact regular.types failed

/-- Scalars and enums of a schema that the rules fit are drawn, unless a rule fails. -/
theorem fault_of_drawLeaf {schema : TypeSystem} (executable : schema.Executable)
    (checked : mocks.rules.check schema = .ok ()) {name : String} {type : TypeDef}
    (known : schema.resolve name = .ok type) (leaf : type.isLeaf = true) {position : Position}
    {random : Random} {error : ResolutionError}
    (failed : (mocks.drawLeaf position type random).1 = .error error) :
    schema.Fault mocks.Raises error := by
  unfold Mocks.drawLeaf at failed
  split at failed
  · rename_i value ruled
    exact .raised (.type (ruled.trans (congrArg some failed)))
  · rename_i unruled
    cases type with
    | scalar scalar description =>
      have listed := Ordered.mem_of_get? (TypeSystem.get?_of_resolve known)
      have generated := (MockRules.check_eq_ok_iff.mp checked).scalars _ listed _ _ rfl
      rcases generated with ⟨produce, ruled⟩ | ⟨formatter, found⟩
      · simp [typeValue?, TypeDef.name, ruled] at unruled
      · simp only [found] at failed
        cases failed
    | enum typeName description values =>
      cases values with
      | nil => exact absurd rfl (executable.symbols known)
      | cons first rest => cases failed
    | object | input => cases leaf

theorem fault_of_objectSeed {schema : TypeSystem} {name : String} {type : TypeDef}
    (known : schema.resolve name = .ok type) {position : Position} {error : ResolutionError}
    (failed : mocks.objectSeed? position name = some (.error error)) :
    schema.Fault mocks.Raises error := by
  obtain ⟨value, ruled, same⟩ := Option.map_eq_some_iff.mp failed
  split at same
  · cases same
    exact .raised (.type ruled)
  · cases same
  · cases same
    exact .unfit _ (.named known)

end Mocks

namespace Completion

variable {α β : Type} {kind : ResolutionError → Prop}

/-- A completion meets only errors of a kind. -/
def Meets (kind : ResolutionError → Prop) (completion : Completion α) : Prop :=
  ∀ random, ∀ failure ∈ (completion random).failures, kind failure.error

theorem meets_value (a : α) : Meets kind (value a) := fun _ _ member => by cases member

theorem meets_fail {error : ResolutionError} (isKind : kind error) (path : List PathSegment) :
    Meets kind (fail error path : Completion α) := by
  intro random failure member
  rw [List.mem_singleton.mp member]
  exact isKind

theorem meets_ofResult {result : Except ResolutionError α}
    (isKind : ∀ error, result = .error error → kind error) (path : List PathSegment) :
    Meets kind (ofResult path result) := by
  cases result with
  | ok a => exact meets_value a
  | error error => exact meets_fail (isKind error rfl) path

theorem Meets.andThen {first : Completion α} {next : α → Completion β} (head : Meets kind first)
    (tail : ∀ a, Meets kind (next a)) : Meets kind (first.andThen next) := by
  intro random failure member
  cases reached : (first random).value with
  | none =>
    rw [andThen_of_none reached] at member
    exact head random failure member
  | some a =>
    rw [andThen_of_some reached] at member
    rcases List.mem_append.mp member with now | later
    · exact head random failure now
    · exact tail a _ failure later

theorem Meets.absorb {completion : Completion Json} (inner : Meets kind completion)
    (type : TypeRef) : Meets kind (absorb type completion) := by
  intro random failure member
  rw [absorb_eq] at member
  exact inner random failure member

end Completion

namespace Completer

open Completion

variable {schema : TypeSystem} {mocks : Mocks} {position : Position} {kind : ResolutionError → Prop}

/-- Whatever is supplied, a completer meets only errors of a kind. -/
def Meets (kind : ResolutionError → Prop) (complete : Completer) : Prop :=
  ∀ supplied path, Completion.Meets kind (complete supplied path)

theorem Meets.orNull {complete : Completer} (inner : Meets kind complete) :
    Meets kind (orNull complete) := by
  intro supplied path
  unfold Completer.orNull
  split
  · exact meets_value _
  · exact inner _ path

theorem Meets.nonNull {complete : Completer} (inner : Meets kind complete)
    (null : kind (.nullForNonNull position.text)) : Meets kind (nonNull position complete) := by
  intro supplied path
  unfold Completer.nonNull
  split
  · exact meets_fail null path
  · apply (inner _ path).andThen
    intro value
    split
    · exact meets_fail null path
    · exact meets_value value

theorem Meets.items {complete : Completer} (inner : Meets kind complete) (type : TypeRef)
    (path : List PathSegment) :
    ∀ supplied index, Completion.Meets kind (items complete type path supplied index) := by
  intro supplied
  induction supplied with
  | nil => exact fun _ => meets_value []
  | cons first rest ih =>
    intro index
    apply ((inner first _).absorb type).andThen
    intro value
    exact (ih (index + 1)).andThen fun values => meets_value (value :: values)

theorem Meets.list {complete : Completer} (inner : Meets kind complete) {item : TypeRef}
    (unfit : ∀ value, kind (.unexpected (TypeRef.list item).text value)) :
    Meets kind (list mocks position item complete) := by
  have wrapped : ∀ given path, Completion.Meets kind
      ((Completer.items complete item path given 0).andThen fun values =>
        Completion.value (Json.array values)) :=
    fun given path => (inner.items item path given 0).andThen fun values => meets_value _
  intro supplied path
  unfold Completer.list
  split
  · exact wrapped _ path
  · exact meets_fail (unfit _) path
  · exact fun random => wrapped _ path _

theorem meets_leaf {type : TypeDef} (unfit : ∀ value, kind (.unexpected type.name value))
    (drawn : ∀ random error, (mocks.drawLeaf position type random).1 = .error error → kind error) :
    Meets kind (leaf mocks position type) := by
  have coerced : ∀ value error, type.coerce value = .error error → kind error := by
    intro value error refused
    rcases TypeDef.coerce_outcomes type value with ⟨-, taken⟩ | ⟨_, _, -, -, taken⟩ | unexpected
    · cases refused.symm.trans taken
    · cases refused.symm.trans taken
    · cases refused.symm.trans unexpected
      exact unfit value
  intro supplied path
  cases supplied with
  | some value => exact meets_ofResult (coerced value) path
  | none => exact fun random => meets_ofResult (drawn random) path _

theorem meets_object {name : String} {fields : Ordered String FieldDef} {complete : FieldsCompleter}
    (inner : ∀ provided path, Completion.Meets kind (complete name fields provided path))
    (unfit : ∀ value, kind (.unexpected name value))
    (seeded : ∀ error, mocks.objectSeed? position name = some (.error error) → kind error) :
    Meets kind (object mocks position name fields complete) := by
  have wrapped : ∀ provided path, Completion.Meets kind
      ((complete name fields provided path).andThen fun members =>
        Completion.value (Json.object members)) :=
    fun provided path => (inner provided path).andThen fun members => meets_value _
  intro supplied path
  unfold object
  dsimp only
  split
  · exact wrapped _ path
  · exact meets_fail (unfit _) path
  · split
    · exact wrapped _ path
    · rename_i error failed
      exact meets_fail (seeded error failed) path
    · exact wrapped _ path

/-- Lists and marks add to the errors of the type inside them that a value is no list, or is
null. -/
theorem meets_ofType {complete : FieldsCompleter} (type : TypeRef)
    (null : kind (.nullForNonNull position.text))
    (unfit : ∀ item, (TypeRef.list item).Inside type →
      ∀ value, kind (.unexpected (TypeRef.list item).text value))
    (inner : Meets kind (named schema mocks position complete type.namedType)) :
    Meets kind (ofType schema mocks position complete type) := by
  induction type with
  | named name => exact inner.orNull
  | list item ih =>
    exact ((ih (fun part inside => unfit part (.list inside)) inner).list
      (unfit item (.refl _))).orNull
  | nonNull type ih =>
    exact (ih (fun part inside => unfit part (.nonNull inside)) inner).nonNull null

end Completer

namespace Completion

variable {schema : TypeSystem} {mocks : Mocks}

theorem meets_field {kind : ResolutionError → Prop} {parent name : String} {type : TypeRef}
    {complete : FieldsCompleter}
    (inner : Completer.Meets kind
      (Completer.ofType schema mocks (.ofField parent name) complete type))
    (ruled : ∀ error, mocks.fieldValue? (.ofField parent name) = some (.error error) → kind error)
    (supplied : Option Json) (path : List PathSegment) :
    Meets kind (field schema mocks parent name type complete supplied path) := by
  unfold field
  dsimp only
  split
  · exact (inner _ path).absorb type
  · split
    · exact (inner _ path).absorb type
    · rename_i error failed
      exact (meets_fail (ruled error failed) path).absorb type
    · exact (inner _ path).absorb type

/-- A valid selected field is completed with faults only, if what is selected below it is wherever
it is valid. -/
theorem faults_ofField (executable : schema.Executable)
    (checked : mocks.rules.check schema = .ok ()) {selected : FieldSelection} {parent : String}
    {definition : FieldDef} (notTypename : selected.name ≠ "__typename")
    (declared : schema.field parent selected.name = .ok definition)
    (valid : schema.fieldErrors parent selected = [])
    (below : ∀ object definitions, schema.fieldsOf object = .ok definitions →
      schema.selectionErrors object selected.selection = [] →
      ∀ provided path, Meets (schema.Fault mocks.Raises)
        (fields schema mocks selected.selection [] object definitions provided path))
    (supplied : Option Json) (path : List PathSegment) :
    Meets (schema.Fault mocks.Raises)
      (field schema mocks parent selected.name definition.type
        (fields schema mocks selected.selection []) supplied path) := by
  have unfitList : ∀ item, (TypeRef.list item).Inside definition.type → ∀ value,
      schema.Fault mocks.Raises (.unexpected (TypeRef.list item).text value) :=
    fun item inside value => .unfit value (.field declared inside)
  refine meets_field (Completer.meets_ofType _ (.null _) unfitList ?_)
    (fun error failed => .raised (.field failed)) supplied path
  obtain ⟨type, resolved, noInput⟩ := executable.selectable declared
  have found := TypeSystem.get?_of_resolve resolved
  have same : type.name = definition.type.namedType := executable.named resolved
  have unfit : ∀ value, schema.Fault mocks.Raises (.unexpected type.name value) :=
    fun value => .unfit value (.named (same ▸ resolved))
  have drawn : type.isLeaf = true →
      ∀ random error,
        (mocks.drawLeaf (.ofField parent selected.name) type random).1 = .error error →
          schema.Fault mocks.Raises error :=
    fun leaf random error failed => Mocks.fault_of_drawLeaf executable checked resolved leaf failed
  unfold Completer.named
  rw [found]
  cases type with
  | object typeName description definitions =>
    obtain rfl : typeName = definition.type.namedType := same
    have known : schema.fieldsOf definition.type.namedType = .ok definitions := by
      simp only [TypeSystem.fieldsOf, resolved]
    have inside : schema.selectionErrors definition.type.namedType selected.selection = [] :=
      TypeSystem.selection_of_valid valid notTypename declared resolved
    exact Completer.meets_object (fun provided path => below _ _ known inside provided path) unfit
      fun error failed => Mocks.fault_of_objectSeed resolved failed
  | input typeName description members => exact absurd rfl (noInput typeName description members)
  | scalar | enum => exact Completer.meets_leaf unfit (drawn rfl)

theorem faults_fields (executable : schema.Executable) (checked : mocks.rules.check schema = .ok ())
    (selection : List FieldSelection) :
    ∀ (parent : String) (definitions : Ordered String FieldDef),
      schema.fieldsOf parent = .ok definitions → schema.selectionErrors parent selection = [] →
        ∀ provided path done, Meets (schema.Fault mocks.Raises)
          (fields schema mocks selection done parent definitions provided path) := by
  induction selection using FieldSelection.selection_induction with
  | nil => exact fun _ _ _ _ _ _ done => meets_value done
  | cons name aliasName arguments selection rest below others =>
    intro parent definitions known valid provided path done
    obtain ⟨headValid, restValid⟩ := List.append_eq_nil_iff.mp valid
    have head : ∀ path, Meets (schema.Fault mocks.Raises)
        (member schema mocks ⟨name, aliasName, arguments, selection⟩ parent definitions provided
          path) := by
      intro path
      unfold member
      split
      · exact meets_value _
      · rename_i notTypename
        obtain ⟨definition, declared⟩ := TypeSystem.field_of_valid headValid notTypename
        have found : Ordered.get? definitions name = some definition := by
          simp only [TypeSystem.field, known] at declared
          split at declared
          · rename_i present
            exact present.trans (congrArg some (Except.ok.inj declared))
          · cases declared
        rw [found]
        exact faults_ofField executable checked notTypename declared headValid
          (fun object members objectKnown inside provided path =>
            below object members objectKnown inside provided path []) _ path
    exact (head _).andThen fun value => others parent definitions known restValid provided path _

end Completion

/-- Neither rules nor handlers fail with internal errors of their own. -/
structure Engine.Regular {σ : Type} (engine : Engine σ) : Prop extends engine.mocks.Regular where
  handlers {type field : String} {handler : Handler σ} : engine.handlers.find? type field =
      some handler →
    ∀ arguments context state error,
      (handler.answer arguments context state).result = .error error → error.isInternal = false

/-- The handlers of an engine and its rules fail with these errors. -/
inductive Engine.Raises {σ : Type} (engine : Engine σ) : ResolutionError → Prop
  | handler {type field : String} {handler : Handler σ} {arguments : Ordered String Json}
      {context : Context} {state : σ} {error : ResolutionError} :
      engine.handlers.find? type field = some handler →
      (handler.answer arguments context state).result = .error error → Raises engine error
  | mocks {error : ResolutionError} : engine.mocks.Raises error → Raises engine error

theorem Engine.Regular.raises {σ : Type} {engine : Engine σ} (regular : engine.Regular)
    {error : ResolutionError} (raises : engine.Raises error) : error.isInternal = false := by
  cases raises with
  | handler found failed => exact regular.handlers found _ _ _ _ failed
  | mocks raises => exact regular.toRegular.raises raises

namespace Run

variable {σ : Type} {engine : Engine σ}

def metBy (engine : Engine σ) (field : FieldSelection) (run : Run) (world : World σ) :
    List Failure :=
  if field.name = "__typename" then []
  else
    match run.schema.field run.root field.name with
    | .error _ => []
    | .ok definition =>
      let (source, met) := run.source engine.handlers field world
      (run.complete engine.mocks field definition source met.random).failures

/-- The errors that the root fields of a selection meet, up to the first whose failure leaves no
data. -/
def met (engine : Engine σ) : List FieldSelection → Run → World σ → List Failure
  | [], _, _ => []
  | field :: rest, run, world =>
    run.metBy engine field world ++
      match run.step engine field world with
      | (.running next, after) => met engine rest next after
      | (.finished _, _) => []

/-- A root field adds the errors it meets to those of the run, or to those of the response. -/
theorem step_met (run : Run) (engine : Engine σ) (field : FieldSelection) (world : World σ) :
    (∃ next, (run.step engine field world).1 = .running next ∧
        next.failures = run.failures ++ run.metBy engine field world) ∨
      ∃ response, (run.step engine field world).1 = .finished response ∧
        response.errors.getD [] =
          (run.failures ++ run.metBy engine field world).map Failure.fieldError := by
  unfold metBy
  rcases run.step_cases engine field world with
    ⟨isTypename, stepped⟩ | ⟨notTypename, ⟨error, missing, stepped⟩ |
      ⟨definition, source, met, done, declared, sourced, completed, ends⟩⟩
  · rw [if_pos isTypename, stepped]
    exact Or.inl ⟨_, rfl, (List.append_nil _).symm⟩
  · rw [if_neg notTypename, stepped]
    simp only [missing, List.append_nil]
    exact Or.inl ⟨run, rfl, rfl⟩
  · rw [if_neg notTypename]
    simp only [declared, sourced, completed]
    rcases ends with ⟨value, -, stepped⟩ | ⟨-, stepped⟩
    · exact Or.inl ⟨_, congrArg Prod.fst stepped, rfl⟩
    · exact Or.inr ⟨_, congrArg Prod.fst stepped, Response.errors_executed _ _⟩

theorem errors_finish (engine : Engine σ) (selection : List FieldSelection) :
    ∀ (run : Run) (world : World σ), (finish engine selection run world).1.errors.getD [] =
      (run.failures ++ run.met engine selection world).map Failure.fieldError := by
  induction selection with
  | nil =>
    intro run world
    rw [met, List.append_nil]
    exact Response.errors_executed _ _
  | cons field rest ih =>
    intro run world
    have stepMet := run.step_met engine field world
    unfold finish met
    rcases stepped : run.step engine field world with ⟨progress, after⟩
    rw [stepped] at stepMet
    rcases stepMet with ⟨next, goesOn, failures⟩ | ⟨response, ends, errors⟩
    · obtain rfl : progress = .running next := goesOn
      rw [← List.append_assoc, ← failures]
      exact ih next after
    · obtain rfl : progress = .finished response := ends
      rw [List.append_nil]
      exact errors

/-- What a root field is completed from is raised by its handler, if it is an error. -/
theorem raises_of_source {run : Run} {field : FieldSelection} {world met : World σ}
    {error : ResolutionError}
    (sourced : run.source engine.handlers field world = (some (.error error), met)) :
    engine.Raises error := by
  unfold source at sourced
  split at sourced
  · cases sourced
  · split at sourced
    · rename_i handler found
      obtain ⟨failed, -⟩ := Prod.mk.inj sourced
      exact .handler found (Option.some.inj failed)
    · obtain ⟨failed, -⟩ := Prod.mk.inj sourced
      obtain ⟨value, -, impossible⟩ := Option.map_eq_some_iff.mp failed
      cases impossible

theorem fault_of_metBy {run : Run} (executable : run.schema.Executable)
    (checked : engine.mocks.rules.check run.schema = .ok ()) {field : FieldSelection}
    (valid : run.schema.fieldErrors run.root field = []) (world : World σ) :
    ∀ failure ∈ run.metBy engine field world, run.schema.Fault engine.Raises failure.error := by
  unfold metBy
  split
  · exact fun failure member => by cases member
  · rename_i notTypename
    split
    · exact fun failure member => by cases member
    · rename_i definition declared
      rcases sourced : run.source engine.handlers field world with ⟨source, met⟩
      have completed : ∀ supplied path, Completion.Meets (run.schema.Fault engine.Raises)
          (Completion.field run.schema engine.mocks run.root field.name definition.type
            (Completion.fields run.schema engine.mocks field.selection []) supplied path) :=
        fun supplied path random failure member =>
          (Completion.faults_ofField executable checked notTypename declared valid
              (fun object members known inside provided path =>
                Completion.faults_fields executable checked field.selection object members known
                  inside provided path []) supplied path random failure member).mono fun _ => .mocks
      have done : Completion.Meets (run.schema.Fault engine.Raises)
          (run.complete engine.mocks field definition source) := by
        unfold complete
        dsimp only
        split
        · exact completed none _
        · exact completed _ _
        · exact (Completion.meets_fail (.raised (raises_of_source sourced)) _).absorb _
      exact done met.random

theorem fault_of_met (selection : List FieldSelection) :
    ∀ (run : Run) (world : World σ), run.schema.Executable →
      engine.mocks.rules.check run.schema = .ok () →
      run.schema.selectionErrors run.root selection = [] →
      ∀ failure ∈ run.met engine selection world, run.schema.Fault engine.Raises failure.error := by
  induction selection with
  | nil => exact fun _ _ _ _ _ failure member => by cases member
  | cons field rest ih =>
    intro run world executable checked valid failure member
    obtain ⟨headValid, restValid⟩ := List.append_eq_nil_iff.mp valid
    unfold met at member
    rcases List.mem_append.mp member with now | later
    · exact fault_of_metBy executable checked headValid world failure now
    · rcases stepped : run.step engine field world with ⟨progress, after⟩
      rw [stepped] at later
      cases progress with
      | running next =>
        obtain ⟨schema, root, -, -⟩ := step_keeps (congrArg Prod.fst stepped)
        rw [← schema]
        exact ih next after (schema ▸ executable) (schema ▸ checked)
          (by rw [schema, root]; exact restValid) failure later
      | finished response => cases later

/-- A valid root field is not left out: the run goes on with its key, or it ends with no data. -/
theorem step_keys {run : Run} {field : FieldSelection}
    (valid : run.schema.fieldErrors run.root field = []) (world : World σ) :
    (∃ next, (run.step engine field world).1 = .running next ∧ next.schema = run.schema ∧
        next.root = run.root ∧
        ∃ value, next.data = Ordered.insert run.data field.responseKey value) ∨
      ∃ response, (run.step engine field world).1 = .finished response ∧
        response.data = some .null := by
  rcases run.step_cases engine field world with
    ⟨-, stepped⟩ | ⟨notTypename, ⟨error, missing, -⟩ | ⟨definition, source, met, done, -, -, -,
      ⟨value, -, stepped⟩ | ⟨-, stepped⟩⟩⟩
  · exact Or.inl ⟨_, congrArg Prod.fst stepped, rfl, rfl, _, rfl⟩
  · obtain ⟨definition, declared⟩ := TypeSystem.field_of_valid valid notTypename
    cases missing.symm.trans declared
  · exact Or.inl ⟨_, congrArg Prod.fst stepped, rfl, rfl, value, rfl⟩
  · exact Or.inr ⟨_, congrArg Prod.fst stepped, rfl⟩

/-- All that was done and all that is selected has its key in the data of a response, if there is
any. -/
theorem keys_finish (selection : List FieldSelection) :
    ∀ (run : Run) (world : World σ), run.schema.selectionErrors run.root selection = [] →
      ∀ members, (finish engine selection run world).1.data = some (.object members) →
        ∀ key ∈ Ordered.keys run.data ++ selection.map FieldSelection.responseKey,
          key ∈ Ordered.keys members := by
  induction selection with
  | nil =>
    intro run world valid members data key member
    cases data
    simpa using member
  | cons field rest ih =>
    intro run world valid members data key member
    obtain ⟨headValid, restValid⟩ := List.append_eq_nil_iff.mp valid
    unfold finish at data
    rcases stepped : run.step engine field world with ⟨progress, after⟩
    rw [stepped] at data
    rcases run.step_keys headValid world with
      ⟨next, goesOn, schema, root, value, inserted⟩ | ⟨response, ends, none⟩
    · rw [stepped] at goesOn
      obtain rfl : progress = .running next := goesOn
      apply ih next after (by rw [schema, root]; exact restValid) members data
      rw [inserted, Ordered.keys_insert]
      simp only [List.mem_append, List.map_cons, List.mem_cons] at member ⊢
      split <;> rename_i known
      · rcases member with before | rfl | later
        · exact Or.inl before
        · exact Or.inl known
        · exact Or.inr later
      · simp only [List.mem_append, List.mem_singleton, or_assoc]
        exact member
    · rw [stepped] at ends
      obtain rfl : progress = .finished response := ends
      cases none.symm.trans data

end Run

namespace Engine

variable {σ : Type}

/-- What becomes of an engine that is offered a schema: it takes one that its rules fit, and else
keeps its own. -/
def offer (engine : Engine σ) (schema : TypeSystem) : Engine σ :=
  (engine.reload schema).toOption.getD engine

/-- An engine that is offered schemas one after the other. -/
def offers (engine : Engine σ) (schemas : List TypeSystem) : Engine σ := schemas.foldl offer engine

theorem offer_cases (engine : Engine σ) (schema : TypeSystem) :
    (∃ error, engine.reload schema = .error error ∧ engine.offer schema = engine) ∨
      engine.mocks.rules.check schema = .ok () ∧ engine.reload schema = .ok (engine.offer schema) ∧
        engine.offer schema = { engine with schema } := by
  unfold offer reload
  cases engine.mocks.rules.check schema with
  | error error => exact Or.inl ⟨error, rfl, rfl⟩
  | ok done => exact Or.inr ⟨rfl, rfl, rfl⟩

/-- Offers change nothing of an engine but its schema, which is its first one or one of them that
the rules fit. -/
theorem offers_eq (schemas : List TypeSystem) : ∀ engine : Engine σ,
    ∃ schema, engine.offers schemas = { engine with schema } ∧
      (schema = engine.schema ∨ schema ∈ schemas ∧ engine.mocks.rules.check schema = .ok ()) := by
  induction schemas with
  | nil => exact fun engine => ⟨engine.schema, rfl, Or.inl rfl⟩
  | cons first rest ih =>
    intro engine
    obtain ⟨schema, reached, origin⟩ := ih (engine.offer first)
    rcases engine.offer_cases first with ⟨error, -, kept⟩ | ⟨fits, -, taken⟩
    · rw [kept] at reached origin
      refine ⟨schema, ?_,
        origin.imp_right fun ⟨member, fits⟩ => ⟨List.mem_cons_of_mem _ member, fits⟩⟩
      rw [offers, List.foldl_cons, kept]
      exact reached
    · rw [taken] at reached origin
      refine ⟨schema, ?_, Or.inr ?_⟩
      · rw [offers, List.foldl_cons, taken]
        exact reached
      · rcases origin with same | ⟨member, fitsLater⟩
        · rw [same]
          exact ⟨List.mem_cons_self, fits⟩
        · exact ⟨List.mem_cons_of_mem _ member, fitsLater⟩

end Engine

namespace Run

variable {σ : Type}

/-- A root field is completed with the schema that its operation began with, whatever the engine is
offered. -/
theorem step_offers (run : Run) (engine : Engine σ) (schemas : List TypeSystem)
    (field : FieldSelection) (world : World σ) :
    run.step (engine.offers schemas) field world = run.step engine field world := by
  obtain ⟨schema, reached, -⟩ := engine.offers_eq schemas
  rw [reached]
  rfl

theorem finish_offers (engine : Engine σ) (schemas : List TypeSystem)
    (selection : List FieldSelection) :
    ∀ (run : Run) (world : World σ),
      run.finish (engine.offers schemas) selection world = run.finish engine selection world := by
  induction selection with
  | nil => exact fun _ _ => rfl
  | cons field rest ih =>
    intro run world
    unfold finish
    rw [step_offers]
    rcases run.step engine field world with ⟨progress, after⟩
    cases progress with
    | running next => exact ih next after
    | finished response => rfl

/-- Completes root fields one after the other, while the engine is offered schemas before each of
them. -/
def finishAmid (engine : Engine σ) :
    List FieldSelection → List (List TypeSystem) → Run → World σ → Response × World σ
  | [], _, run, world => (run.response, world)
  | field :: rest, offered, run, world =>
    let engine := engine.offers (offered.headD [])
    match run.step engine field world with
    | (.running run, world) => finishAmid engine rest offered.tail run world
    | (.finished response, world) => (response, world)

theorem finishAmid_eq (selection : List FieldSelection) :
    ∀ (engine : Engine σ) (offered : List (List TypeSystem)) (run : Run) (world : World σ),
      run.finishAmid engine selection offered world = run.finish engine selection world := by
  induction selection with
  | nil => exact fun _ _ _ _ => rfl
  | cons field rest ih =>
    intro engine offered run world
    unfold finishAmid finish
    dsimp only
    rw [step_offers]
    rcases run.step engine field world with ⟨progress, after⟩
    cases progress with
    | running next =>
      exact (ih _ offered.tail next after).trans (finish_offers engine _ rest next after)
    | finished response => rfl

end Run

namespace Engine

variable {σ : Type}

/-- Runs an operation while the engine is offered schemas before each root field. -/
def runAmid (engine : Engine σ) (operation : Operation) (payload : Option Json)
    (offered : List (List TypeSystem)) (world : World σ) : Except Rejection Response × World σ :=
  match engine.start operation payload with
  | .error rejection => (.error rejection, world)
  | .ok (.finished response) => (.ok response, world)
  | .ok (.running run) =>
    let (response, world) := run.finishAmid engine operation.selection offered world
    (.ok response, world)

theorem runAmid_eq (engine : Engine σ) (operation : Operation) (payload : Option Json)
    (offered : List (List TypeSystem)) (world : World σ) :
    engine.runAmid operation payload offered world = engine.run operation payload world := by
  unfold runAmid run
  cases engine.start operation payload with
  | error rejection => rfl
  | ok progress =>
    cases progress with
    | finished response => rfl
    | running run => simp only [Run.finishAmid_eq]

/-- The errors that an operation meets, with their paths: the one of a failing rule of the root
type, or those of the root fields. -/
def met (engine : Engine σ) (operation : Operation) (payload : Option Json) (world : World σ) :
    List (ResolutionError × Option (List PathSegment)) :=
  let ofFields (root : String) (seed : Option (Ordered String Json)) :
      List (ResolutionError × Option (List PathSegment)) :=
    (Run.met engine operation.selection
        ⟨engine.schema, root, seed, operation.context, payload, [], []⟩ world).map fun failure =>
      (failure.error, some failure.path)
  match engine.schema.root? operation.kind with
  | none => []
  | some root =>
    match engine.mocks.objectSeed? .root root with
    | some (.error error) => [(error, none)]
    | some (.ok members) => ofFields root (some members)
    | none => ofFields root none

/-- The errors of a response are those that the operation met. -/
theorem errors_run {engine : Engine σ} {operation : Operation} {payload : Option Json}
    {world after : World σ} {response : Response}
    (executed : engine.run operation payload world = (.ok response, after)) :
    response.errors.getD [] =
      (engine.met operation payload world).map fun (error, path) =>
        ⟨error.message, path, none⟩ := by
  obtain ⟨root, known, -, ⟨error, failed, rfl, -⟩ | ⟨seed, seeded, finished⟩⟩ := run_cases executed
  · simp only [met, known, failed]
    rfl
  · have errors := Run.errors_finish engine operation.selection
      ⟨engine.schema, root, seed, operation.context, payload, [], []⟩ world
    rw [finished] at errors
    rw [errors]
    cases seed with
    | none =>
      simp only [met, known, seeded, Option.map_none, List.nil_append, List.map_map]
      rfl
    | some members =>
      simp only [met, known, seeded, Option.map_some, List.nil_append, List.map_map]
      rfl

/-- All that is selected has its key in the data of a response, if there is any. -/
theorem keys_run {engine : Engine σ} {operation : Operation} {payload : Option Json}
    {world after : World σ} {response : Response}
    (executed : engine.run operation payload world = (.ok response, after))
    {members : Ordered String Json} (data : response.data = some (.object members)) :
    ∀ field ∈ operation.selection, field.responseKey ∈ Ordered.keys members := by
  intro field member
  obtain ⟨root, -, valid, ⟨error, -, rfl, -⟩ | ⟨seed, -, finished⟩⟩ := run_cases executed
  · cases data
  · apply Run.keys_finish operation.selection
      ⟨engine.schema, root, seed, operation.context, payload, [], []⟩ world valid members
    · rw [finished]
      exact data
    · exact List.mem_map_of_mem member

theorem fault_of_met {engine : Engine σ} (executable : engine.schema.Executable)
    (checked : engine.mocks.rules.check engine.schema = .ok ()) {operation : Operation}
    {root : String} (known : engine.schema.root? operation.kind = some root)
    (valid : engine.schema.selectionErrors root operation.selection = []) (payload : Option Json)
    (world : World σ) :
    ∀ error ∈ engine.met operation payload world, engine.schema.Fault engine.Raises error.1 := by
  have ofFields : ∀ seed,
      ∀ error ∈
        (Run.met engine operation.selection
          ⟨engine.schema, root, seed, operation.context, payload, [], []⟩ world).map
        (fun failure => (failure.error, some failure.path)),
        engine.schema.Fault engine.Raises error.1 := by
    intro seed error member
    obtain ⟨failure, met, rfl⟩ := List.mem_map.mp member
    exact Run.fault_of_met operation.selection _ world executable checked valid failure met
  intro error member
  simp only [met, known] at member
  split at member
  · rename_i failed
    rw [List.mem_singleton.mp member]
    obtain ⟨fields, object⟩ := executable.roots known
    obtain ⟨type, resolved⟩ : ∃ type, engine.schema.resolve root = .ok type := by
      unfold TypeSystem.fieldsOf at object
      split at object
      · cases object
      · exact ⟨_, ‹_›⟩
      · cases object
    exact (Mocks.fault_of_objectSeed resolved failed).mono fun _ => .mocks
  · exact ofFields _ error member
  · exact ofFields _ error member

theorem regular_met {engine : Engine σ} (regular : engine.Regular)
    (executable : engine.schema.Executable)
    (checked : engine.mocks.rules.check engine.schema = .ok ()) {operation : Operation}
    {root : String} (known : engine.schema.root? operation.kind = some root)
    (valid : engine.schema.selectionErrors root operation.selection = []) (payload : Option Json)
    (world : World σ) : ∀ error ∈ engine.met operation payload world, error.1.isInternal = false :=
  fun error member =>
    (fault_of_met executable checked known valid payload world error member).regular fun _ =>
      regular.raises

end Engine

namespace Valley

def first : TypeSystem where
  query := "Query"
  mutation := none
  subscription := none
  types :=
    [("String", .scalar "String" none), ("Boolean", .scalar "Boolean" none),
      ("Query", .object "Query" none [("snow", ⟨"snow", none, .named "String", []⟩)])]
  directives := Introspection.directives

theorem first_loaded : TypeSystem.parse "type Query{snow:String}" = .ok first := rfl

def second : TypeSystem :=
  { first with
    types :=
      [("String", .scalar "String" none), ("Boolean", .scalar "Boolean" none),
          ("Height", .scalar "Height" none),
          ("Query", .object "Query" none [("snow", ⟨"snow", none, .named "Height", []⟩)])] }

theorem second_loaded : TypeSystem.parse "scalar Height type Query{snow:Height}" = .ok second := rfl

def third : TypeSystem :=
  { first with
    types :=
      [("String", .scalar "String" none), ("Boolean", .scalar "Boolean" none),
          ("State", .enum "State" none ["OPEN", "SHUT"]),
          ("Query", .object "Query" none
            [("pistes", ⟨"pistes", none, .list (.nonNull (.named "State")), []⟩)])] }

theorem third_loaded :
    TypeSystem.parse "enum State{OPEN SHUT} type Query{pistes:[State!]}" = .ok third := rfl

/-- The handler names a state that no piste of the third schema has. -/
def engine : Engine Unit :=
  ⟨first, ⟨.standard, .standard⟩,
    Handlers.register [] "Query" "pistes"
      ⟨none, fun _ _ _ => ⟨.ok (.array [.string "OPEN", .string "LOST"]), (), []⟩⟩⟩

def operation : Operation :=
  ⟨.query, none, [⟨"pistes", none, [], []⟩, ⟨"__typename", none, [], []⟩], []⟩

def world : World Unit := ⟨.ofSeed 0, (), .new⟩

def response : Response :=
  .executed (.object [("pistes", .null), ("__typename", .string "Query")])
    [⟨"Expected a value of type State, found \"LOST\"", some [.field "pistes", .index 1], none⟩]

end Valley

/-- No operation meets an internal error, whatever schemas its engine was offered before and is
offered meanwhile, and whatever schema the operation was read for. The schema of the engine always
fits its rules, one that does not is not taken, an operation is completed with the schema that it
was held against, and no root field is left out. -/
theorem Engine.no_internal_errors {σ : Type} (engine : Engine σ) (regular : engine.Regular)
    (loaded : ∃ text, TypeSystem.parse text = .ok engine.schema)
    (checked : engine.mocks.rules.check engine.schema = .ok ()) (schemas : List TypeSystem)
    (read : ∀ schema ∈ schemas, ∃ text, TypeSystem.parse text = .ok schema) :
    let current := engine.offers schemas
    engine.mocks.rules.check current.schema = .ok () ∧
      (∀ next, (∃ error, current.reload next = .error error ∧ current.offer next = current) ∨
        current.reload next = .ok (current.offer next) ∧ (current.offer next).schema = next) ∧
      ∀ operation payload world,
        (∀ offered,
            current.runAmid operation payload offered world = current.run operation payload world) ∧
          ∀ response after, current.run operation payload world = (.ok response, after) →
            response.errors.getD [] =
                (current.met operation payload world).map
                  (fun (error, path) => ⟨error.message, path, none⟩) ∧
              (∀ error ∈ current.met operation payload world, error.1.isInternal = false) ∧
              ∃ root, current.schema.root? operation.kind = some root ∧
                (∀ field ∈ operation.selection, field.name ≠ "__typename" →
                  ∃ definition, current.schema.field root field.name = .ok definition) ∧
                ∀ members, response.data = some (.object members) →
                  ∀ field ∈ operation.selection, field.responseKey ∈ Ordered.keys members := by
  intro current
  obtain ⟨schema, reached, origin⟩ := engine.offers_eq schemas
  have same : current = { engine with schema } := reached
  have fits : engine.mocks.rules.check schema = .ok () := by
    rcases origin with rfl | ⟨-, fits⟩
    · exact checked
    · exact fits
  have executable : schema.Executable := by
    have parsed : ∃ text, TypeSystem.parse text = .ok schema := by
      rcases origin with rfl | ⟨member, -⟩
      · exact loaded
      · exact read schema member
    obtain ⟨text, parsed⟩ := parsed
    exact TypeSystem.executable_of_parse parsed
  have currentRegular : Engine.Regular { engine with schema } :=
    ⟨regular.toRegular, regular.handlers⟩
  rw [same]
  refine ⟨fits, ?_, ?_⟩
  · intro next
    rcases offer_cases { engine with schema } next with refused | ⟨-, taken, after⟩
    · exact Or.inl refused
    · exact Or.inr ⟨taken, by rw [after]⟩
  · intro operation payload world
    refine ⟨fun offered => runAmid_eq _ operation payload offered world, ?_⟩
    intro response after executed
    obtain ⟨root, known, valid, -⟩ := run_cases executed
    refine ⟨errors_run executed, ?_, root, known, ?_, ?_⟩
    · exact regular_met currentRegular executable fits known valid payload world
    · intro field member notTypename
      exact TypeSystem.field_of_valid (TypeSystem.fieldErrors_of_mem valid member) notTypename
    · exact fun members data => keys_run executed data

theorem Valley.no_internal_errors_pistes :
    let current := engine.offers [second, third]
    engine.mocks.rules.check current.schema = .ok () ∧ current.schema = third ∧
      current.run operation none world = (.ok response, world) ∧
      (∀ error ∈ current.met operation none world, error.1.isInternal = false) ∧
      current.runAmid operation none [[first], [second]] world = (.ok response, world) := by
  have regular : engine.Regular := by
    refine ⟨⟨fun ruled => ?_, fun ruled => ?_⟩,
      fun found arguments context state error failed => ?_⟩
    · rename_i position error
      unfold Mocks.fieldValue? at ruled
      split at ruled <;> cases ruled
    · cases ruled
    · rename_i type field handler
      have only : handler = _ :=
        congrArg Prod.snd (List.mem_singleton.mp (Ordered.mem_of_get? found))
      rw [only] at failed
      cases failed
  obtain ⟨checked, -, runs⟩ :=
    Engine.no_internal_errors engine regular ⟨_, first_loaded⟩ rfl [second, third] (by
    intro schema member
    simp only [List.mem_cons, List.not_mem_nil, or_false] at member
    rcases member with rfl | rfl
    · exact ⟨_, second_loaded⟩
    · exact ⟨_, third_loaded⟩)
  obtain ⟨amid, executed⟩ := runs operation none world
  have ran : (engine.offers [second, third]).run operation none world = (.ok response, world) := rfl
  exact ⟨checked, rfl, ran, (executed response world ran).2.1, (amid _).trans ran⟩

end MockGraph
