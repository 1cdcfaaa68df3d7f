import MockGraph.Proofs.Execution.Leaves
set_option autoImplicit false

namespace MockGraph

/-- What the value of a field is completed from: what is supplied for it, or what the field's rule
gives. -/
inductive Mocks.Fills (mocks : Mocks) (position : Position) : Option Json → Option Json → Prop
  | supplied {value} : Fills mocks position (some value) (some value)
  | ruled {value} : mocks.fieldValue? position = some (.ok value) →
      Fills mocks position none (some value)
  | mocked : mocks.fieldValue? position = none → Fills mocks position none none

mutual

/-- A completion comes to a scalar or an enum for which a value is supplied, at a place. The
arguments are those of the completion: the position, the type and the selection, what is supplied,
the path of the value, and the generator. -/
inductive Supplies (schema : TypeSystem) (mocks : Mocks) (leafType : TypeDef) (value : Json)
    (place : List PathSegment) :
    Position → TypeRef → List FieldSelection → Option Json → List PathSegment → Random → Prop
  | leaf {position name selection random} : Ordered.get? schema.types name = some leafType →
      (∀ fields, schema.fieldsOf name ≠ .ok fields) → value ≠ .null →
      Supplies schema mocks leafType value place position (.named name) selection (some value) place
        random
  | nonNull {position type selection supplied path random} :
      Supplies schema mocks leafType value place position type selection supplied path random →
      Supplies schema mocks leafType value place position (.nonNull type) selection supplied path
        random
  | array {position item selection items path random} :
      ItemSupplies schema mocks leafType value place position item selection path
        (List.map some items) 0 random →
      Supplies schema mocks leafType value place position (.list item) selection
        (some (.array items)) path random
  | mockedArray {position item selection path random after length} :
      mocks.drawLength position item.namedType random = (length, after) →
      ItemSupplies schema mocks leafType value place position item selection path
        (List.replicate length none) 0 after →
      Supplies schema mocks leafType value place position (.list item) selection none path random
  | object {position name fields selection members path random} :
      schema.fieldsOf name = .ok fields →
      MemberSupplies schema mocks leafType value place name fields (some members) path selection
        random →
      Supplies schema mocks leafType value place position (.named name) selection
        (some (.object members)) path random
  /-- The rule of the object's type supplies its members. -/
  | seededObject {position name fields selection members path random} :
      schema.fieldsOf name = .ok fields → mocks.objectSeed? position name = some (.ok members) →
      MemberSupplies schema mocks leafType value place name fields (some members) path selection
        random →
      Supplies schema mocks leafType value place position (.named name) selection none path random
  | mockedObject {position name fields selection path random} :
      schema.fieldsOf name = .ok fields → mocks.objectSeed? position name = none →
      MemberSupplies schema mocks leafType value place name fields none path selection random →
      Supplies schema mocks leafType value place position (.named name) selection none path random

/-- One of the items from an index on is or has the value. Each is completed with the generator that
those before it leave, if these do not end the list. -/
inductive ItemSupplies (schema : TypeSystem) (mocks : Mocks) (leafType : TypeDef) (value : Json)
    (place : List PathSegment) :
    Position → TypeRef → List FieldSelection → List PathSegment → List (Option Json) → Nat →
      Random → Prop
  | here {position item selection path supplied rest index random} :
      Supplies schema mocks leafType value place position item selection supplied
        (path ++ [.index index]) random →
      ItemSupplies schema mocks leafType value place position item selection path (supplied :: rest)
        index random
  | later {position item selection path supplied rest index random first} :
      (Completion.absorb item
        (Completer.ofSelection schema mocks position selection item supplied
          (path ++ [.index index])) random).value = some first →
      ItemSupplies schema mocks leafType value place position item selection path rest (index + 1)
        (Completer.ofSelection schema mocks position selection item supplied
          (path ++ [.index index]) random).random →
      ItemSupplies schema mocks leafType value place position item selection path (supplied :: rest)
        index random

/-- One of the members that are selected on an object is or has the value. -/
inductive MemberSupplies (schema : TypeSystem) (mocks : Mocks) (leafType : TypeDef) (value : Json)
    (place : List PathSegment) :
    String → Ordered String FieldDef → Option (Ordered String Json) → List PathSegment →
      List FieldSelection → Random → Prop
  | here {parent fields provided path field rest definition given random} :
      field.name ≠ "__typename" → Ordered.get? fields field.name = some definition →
      mocks.Fills (.ofField parent field.name)
        (Option.bind provided fun members => Ordered.get? members field.name) given →
      Supplies schema mocks leafType value place (.ofField parent field.name) definition.type
        field.selection given (path ++ [.field field.responseKey]) random →
      MemberSupplies schema mocks leafType value place parent fields provided path (field :: rest)
        random
  | later {parent fields provided path field rest random first} :
      (Completion.member schema mocks field parent fields provided
        (path ++ [.field field.responseKey]) random).value = some first →
      MemberSupplies schema mocks leafType value place parent fields provided path rest
        (Completion.member schema mocks field parent fields provided
          (path ++ [.field field.responseKey]) random).random →
      MemberSupplies schema mocks leafType value place parent fields provided path (field :: rest)
        random

end

/-- One of the root fields is or has the value. Each meets the run and the world that those before
it leave. -/
inductive Run.Supplies {σ : Type} (engine : Engine σ) (leafType : TypeDef) (value : Json)
    (place : List PathSegment) : List FieldSelection → Run → World σ → Prop
  | here {field rest run world met definition supplied given} : field.name ≠ "__typename" →
      run.schema.field run.root field.name = .ok definition →
      run.source engine.handlers field world = (Option.map Except.ok supplied, met) →
      engine.mocks.Fills (.ofField run.root field.name) supplied given →
      MockGraph.Supplies run.schema engine.mocks leafType value place (.ofField run.root field.name)
        definition.type field.selection given [.field field.responseKey] met.random →
      Run.Supplies engine leafType value place (field :: rest) run world
  | later {field rest run next world met} : run.step engine field world = (.running next, met) →
      Run.Supplies engine leafType value place rest next met →
      Run.Supplies engine leafType value place (field :: rest) run world

/-- A handler, the payload of an event, a parent or a rule supplies a value for a scalar or an enum
at a place of an operation, and the operation comes to it. -/
def Engine.Supplies {σ : Type} (engine : Engine σ) (operation : Operation) (payload : Option Json)
    (world : World σ) (leafType : TypeDef) (value : Json) (place : List PathSegment) : Prop :=
  ∃ root seed, engine.schema.root? operation.kind = some root ∧
    engine.mocks.objectSeed? .root root = Option.map Except.ok seed ∧
    Run.Supplies engine leafType value place operation.selection
      ⟨engine.schema, root, seed, operation.context, payload, [], []⟩ world

/-- A rule supplies a value for a scalar or an enum at a place of a generated value, and its
generation comes to it. -/
def Mocks.Supplies (mocks : Mocks) (schema : TypeSystem) (type : TypeRef) (position : Position)
    (selection : List FieldSelection) (random : Random) (leafType : TypeDef) (value : Json)
    (place : List PathSegment) : Prop :=
  ∃ given, mocks.Fills position none given ∧
    MockGraph.Supplies schema mocks leafType value place position type selection given [] random

theorem Mocks.Fills.unique {mocks : Mocks} {position : Position}
    {supplied given given' : Option Json} (fills : mocks.Fills position supplied given)
    (other : mocks.Fills position supplied given') : given = given' := by
  cases fills with
  | supplied =>
    cases other
    rfl
  | ruled rule =>
    cases other with
    | ruled rule' =>
      cases rule.symm.trans rule'
      rfl
    | mocked unruled => cases rule.symm.trans unruled
  | mocked unruled =>
    cases other with
    | ruled rule => cases unruled.symm.trans rule
    | mocked => rfl

namespace Completion

variable {α β : Type}

theorem failures_andThen_left {first : Completion α} {next : α → Completion β} {random : Random}
    {failure : Failure} (member : failure ∈ (first random).failures) :
    failure ∈ (first.andThen next random).failures := by
  cases reached : (first random).value with
  | none =>
    rw [andThen_of_none reached]
    exact member
  | some a =>
    rw [andThen_of_some reached]
    exact List.mem_append_left _ member

theorem failures_andThen_right {first : Completion α} {next : α → Completion β} {random : Random}
    {failure : Failure} {a : α} (reached : (first random).value = some a)
    (member : failure ∈ (next a (first random).random).failures) :
    failure ∈ (first.andThen next random).failures := by
  rw [andThen_of_some reached]
  exact List.mem_append_right _ member

theorem failures_absorb (type : TypeRef) (completion : Completion Json) (random : Random) :
    (absorb type completion random).failures = (completion random).failures := by
  rw [absorb_eq]

theorem field_of_fills {schema : TypeSystem} {mocks : Mocks} {parent name : String}
    {supplied given : Option Json} (fills : mocks.Fills (.ofField parent name) supplied given)
    (type : TypeRef) (complete : FieldsCompleter) (path : List PathSegment) :
    field schema mocks parent name type complete supplied path =
      absorb type
        (Completer.ofType schema mocks (.ofField parent name) complete type given path) := by
  unfold field
  cases fills with
  | supplied => rfl
  | ruled rule => simp only [rule]
  | mocked none => simp only [none]

theorem member_of_fills {schema : TypeSystem} {mocks : Mocks} {parent : String}
    {fields : Ordered String FieldDef} {field : FieldSelection} {definition : FieldDef}
    {provided : Option (Ordered String Json)} {given : Option Json}
    (notTypename : field.name ≠ "__typename")
    (found : Ordered.get? fields field.name = some definition)
    (fills : mocks.Fills (.ofField parent field.name)
      (Option.bind provided fun members => Ordered.get? members field.name) given)
    (path : List PathSegment) :
    member schema mocks field parent fields provided path =
      absorb definition.type
        (Completer.ofSelection schema mocks (.ofField parent field.name) field.selection
          definition.type given path) := by
  cases field
  unfold member
  rw [if_neg notTypename]
  dsimp only at found
  simp only [found]
  exact field_of_fills fills _ _ _

end Completion

namespace Completer

/-- What is not null is completed below a non-null mark as without it, apart from a null that it
leads to. -/
theorem failures_nonNull {position : Position} {complete : Completer} {supplied : Option Json}
    (present : supplied ≠ some .null) {path : List PathSegment} {random : Random}
    {failure : Failure} (member : failure ∈ (complete supplied path random).failures) :
    failure ∈ (nonNull position complete supplied path random).failures := by
  unfold nonNull
  split
  · exact absurd rfl present
  · exact Completion.failures_andThen_left member

theorem orNull_of_ne {complete : Completer} {supplied : Option Json}
    (present : supplied ≠ some .null) (path : List PathSegment) :
    orNull complete supplied path = complete supplied path := by
  unfold orNull
  split
  · exact absurd rfl present
  · rfl

end Completer

section

variable {schema : TypeSystem} {mocks : Mocks} {leafType : TypeDef} {value : Json}
  {place : List PathSegment}

theorem Supplies.present {position : Position} {type : TypeRef} {selection : List FieldSelection}
    {supplied : Option Json} {path : List PathSegment} {random : Random}
    (supplies : Supplies schema mocks leafType value place position type selection supplied path
      random) : supplied ≠ some .null := by
  induction type with
  | nonNull inner ih =>
    cases supplies with
    | nonNull inside => exact ih inside
  | named =>
    cases supplies with
    | leaf _ _ present => exact fun same => present (Option.some.inj same)
    | object | seededObject | mockedObject => nofun
  | list =>
    cases supplies with
    | array | mockedArray => nofun

theorem named_of_fieldsOf {position : Position} {complete : FieldsCompleter} {name : String}
    {fields : Ordered String FieldDef} (known : schema.fieldsOf name = .ok fields) :
    Completer.named schema mocks position complete name =
      Completer.object mocks position name fields complete := by
  unfold Completer.named
  cases found : Ordered.get? schema.types name with
  | none => simp [TypeSystem.fieldsOf, TypeSystem.resolve, found] at known
  | some type =>
    cases type with
    | object typeName description own =>
      have same : own = fields := by
        simpa [TypeSystem.fieldsOf, TypeSystem.resolve, found] using known
      rw [same]
    | scalar | enum | input => simp [TypeSystem.fieldsOf, TypeSystem.resolve, found] at known

theorem named_of_leaf {position : Position} {complete : FieldsCompleter} {name : String}
    (found : Ordered.get? schema.types name = some leafType)
    (leaf : ∀ fields, schema.fieldsOf name ≠ .ok fields) :
    Completer.named schema mocks position complete name =
      Completer.leaf mocks position leafType := by
  unfold Completer.named
  rw [found]
  cases leafType with
  | object typeName description fields =>
    exact absurd (by simp [TypeSystem.fieldsOf, TypeSystem.resolve, found]) (leaf fields)
  | scalar | enum | input => rfl

-- Whatever becomes of a value around the place, none of the combinators drops an error once it is
-- met.
mutual

/-- A supplied value that stands for none is an error of the completion that comes to it. -/
theorem Supplies.failure {position : Position} {type : TypeRef} {selection : List FieldSelection}
    {supplied : Option Json} {path : List PathSegment} {random : Random} {error : ResolutionError}
    (refused : leafType.coerce value = .error error)
    (supplies : Supplies schema mocks leafType value place position type selection supplied path
      random) :
    ⟨error, place⟩ ∈
      (Completer.ofSelection schema mocks position selection type supplied path
        random).failures := by
  match supplies with
  | .leaf found leaf notNull =>
    have present : some value ≠ some .null := fun same => notNull (Option.some.inj same)
    show _ ∈ (Completer.orNull _ _ _ _).failures
    rw [Completer.orNull_of_ne present, named_of_leaf found leaf]
    show _ ∈ (Completion.ofResult place (leafType.coerce value) random).failures
    rw [refused]
    exact List.mem_singleton_self _
  | .nonNull inside => exact Completer.failures_nonNull inside.present (inside.failure refused)
  | .array inside => exact Completion.failures_andThen_left (inside.failure refused)
  | .mockedArray drawn inside =>
    show _ ∈ (Completer.list _ _ _ _ none _ _).failures
    unfold Completer.list
    simp only [drawn]
    exact Completion.failures_andThen_left (inside.failure refused)
  | .object known inside =>
    show _ ∈ (Completer.named _ _ _ _ _ _ _ _).failures
    rw [named_of_fieldsOf known]
    exact Completion.failures_andThen_left (inside.failure refused [])
  | .seededObject known seeded inside =>
    show _ ∈ (Completer.named _ _ _ _ _ _ _ _).failures
    rw [named_of_fieldsOf known]
    unfold Completer.object
    simp only [seeded]
    exact Completion.failures_andThen_left (inside.failure refused [])
  | .mockedObject known seedless inside =>
    show _ ∈ (Completer.named _ _ _ _ _ _ _ _).failures
    rw [named_of_fieldsOf known]
    unfold Completer.object
    simp only [seedless]
    exact Completion.failures_andThen_left (inside.failure refused [])

theorem ItemSupplies.failure {position : Position} {item : TypeRef}
    {selection : List FieldSelection} {supplied : List (Option Json)} {index : Nat}
    {path : List PathSegment} {random : Random} {error : ResolutionError}
    (refused : leafType.coerce value = .error error)
    (supplies : ItemSupplies schema mocks leafType value place position item selection path supplied
      index random) :
    ⟨error, place⟩ ∈
      (Completer.items (Completer.ofSelection schema mocks position selection item) item path
        supplied index random).failures := by
  match supplies with
  | .here inside =>
    refine Completion.failures_andThen_left ?_
    rw [Completion.failures_absorb]
    exact inside.failure refused
  | .later reached inside =>
    refine Completion.failures_andThen_right reached (Completion.failures_andThen_left ?_)
    rw [Completion.absorb_random]
    exact inside.failure refused

theorem MemberSupplies.failure {parent : String} {fields : Ordered String FieldDef}
    {provided : Option (Ordered String Json)} {path : List PathSegment}
    {selection : List FieldSelection} {random : Random} {error : ResolutionError}
    (refused : leafType.coerce value = .error error)
    (supplies : MemberSupplies schema mocks leafType value place parent fields provided path
      selection random) (done : Ordered String Json) :
    ⟨error, place⟩ ∈
      (Completion.fields schema mocks selection done parent fields provided path
        random).failures := by
  match supplies with
  | .here notTypename found fills inside =>
    refine Completion.failures_andThen_left ?_
    rw [Completion.member_of_fills notTypename found fills, Completion.failures_absorb]
    exact inside.failure refused
  | .later reached inside =>
    exact Completion.failures_andThen_right reached (inside.failure refused _)

end

end

namespace Run

variable {σ : Type} {engine : Engine σ}

theorem fieldError_mem_executed {failures : List Failure} {failure : Failure}
    (failed : failure ∈ failures) (data : Json) :
    failure.fieldError ∈
      (Response.executed data (failures.map Failure.fieldError)).errors.getD [] := by
  rw [Response.errors_executed]
  exact List.mem_map_of_mem failed

theorem fieldError_of_failure (engine : Engine σ) (selection : List FieldSelection)
    {failure : Failure} :
    ∀ (run : Run) (world : World σ), failure ∈ run.failures →
      failure.fieldError ∈ (finish engine selection run world).1.errors.getD [] := by
  induction selection with
  | nil =>
    intro run world failed
    exact fieldError_mem_executed failed _
  | cons field rest ih =>
    intro run world failed
    unfold finish
    rcases run.step_cases engine field world with
      ⟨-, stepped⟩ | ⟨-, ⟨error, -, stepped⟩ | ⟨definition, source, met, done, -, -, -,
        ⟨value, -, stepped⟩ | ⟨-, stepped⟩⟩⟩
    · rw [stepped]
      exact ih _ _ failed
    · rw [stepped]
      exact ih _ _ failed
    · rw [stepped]
      exact ih _ _ (List.mem_append_left _ failed)
    · rw [stepped]
      exact fieldError_mem_executed (List.mem_append_left _ failed) _

/-- Without an error of its source, a root field is completed as any other field. -/
theorem complete_of_supplied (run : Run) (mocks : Mocks) (field : FieldSelection)
    (definition : FieldDef) (supplied : Option Json) :
    run.complete mocks field definition (supplied.map .ok) =
      Completion.field run.schema mocks run.root field.name definition.type
        (Completion.fields run.schema mocks field.selection []) supplied
        [.field field.responseKey] := by
  cases supplied <;> rfl

/-- What fails when a root field is completed is an error of the response. -/
theorem fieldError_of_complete {field : FieldSelection} (rest : List FieldSelection) {run : Run}
    {world met : World σ} {definition : FieldDef} {source : Option (Except ResolutionError Json)}
    {failure : Failure} (notTypename : field.name ≠ "__typename")
    (declared : run.schema.field run.root field.name = .ok definition)
    (sourced : run.source engine.handlers field world = (source, met))
    (failed : failure ∈ (run.complete engine.mocks field definition source met.random).failures) :
    failure.fieldError ∈ (finish engine (field :: rest) run world).1.errors.getD [] := by
  unfold finish
  rcases run.step_cases engine field world with
    ⟨isTypename, -⟩ | ⟨-, ⟨_, missing, -⟩ | ⟨_, _, _, done, known, taken, completed,
      ⟨value, -, stepped⟩ | ⟨-, stepped⟩⟩⟩
  · exact absurd isTypename notTypename
  · cases declared.symm.trans missing
  · cases declared.symm.trans known
    cases sourced.symm.trans taken
    rw [completed] at failed
    rw [stepped]
    exact fieldError_of_failure engine rest _ _ (List.mem_append_right _ failed)
  · cases declared.symm.trans known
    cases sourced.symm.trans taken
    rw [completed] at failed
    rw [stepped]
    exact fieldError_mem_executed (List.mem_append_right _ failed) _

/-- A supplied value that stands for none is an error of the response. -/
theorem Supplies.fieldError {leafType : TypeDef} {value : Json} {place : List PathSegment}
    {selection : List FieldSelection} {run : Run} {world : World σ} {error : ResolutionError}
    (supplies : Run.Supplies engine leafType value place selection run world)
    (refused : leafType.coerce value = .error error) :
    Failure.fieldError ⟨error, place⟩ ∈ (finish engine selection run world).1.errors.getD [] := by
  induction supplies with
  | @here field rest run world met definition supplied given notTypename declared sourced fills
      inside =>
    have failed : ⟨error, place⟩ ∈
        (run.complete engine.mocks field definition (supplied.map .ok) met.random).failures := by
      rw [complete_of_supplied, Completion.field_of_fills fills, Completion.failures_absorb]
      exact inside.failure refused
    exact fieldError_of_complete rest notTypename declared sourced failed
  | later stepped _ ih =>
    unfold finish
    rw [stepped]
    exact ih

end Run

namespace Mocks

variable {mocks : Mocks} {schema : TypeSystem} {type : TypeRef} {position : Position}
  {selection : List FieldSelection} {random : Random}

/-- What a position generates from what its rule gives, or from nothing. -/
def generateFrom (mocks : Mocks) (schema : TypeSystem) (type : TypeRef) (position : Position)
    (selection : List FieldSelection) (random : Random) (supplied : Option Json) :
    Except ResolutionError Json × Random :=
  let inner := Completer.ofSelection schema mocks position selection type supplied [] random
  match inner.failures with
  | failure :: _ => (.error failure.error, inner.random)
  | [] => (inner.value.elim (.error (.internal .lostNull)) .ok, inner.random)

theorem generate_of_fills {given : Option Json} (fills : mocks.Fills position none given) :
    mocks.generate schema type position selection random =
      mocks.generateFrom schema type position selection random given := by
  unfold generate
  cases fills with
  | ruled ruled | mocked ruled =>
    split <;> rename_i other <;> cases ruled.symm.trans other
    rfl

/-- A value is generated from what the rule of the position gives, without any error. -/
theorem completed_of_generate {value : Json}
    (success : (mocks.generate schema type position selection random).1 = .ok value) :
    ∃ given, mocks.Fills position none given ∧
      (Completer.ofSelection schema mocks position selection type given [] random).failures = [] ∧
      (Completer.ofSelection schema mocks position selection type given []
        random).value = some value := by
  have finished : ∀ {given : Option Json}, mocks.Fills position none given →
      (Completer.ofSelection schema mocks position selection type given [] random).failures = [] ∧
        (Completer.ofSelection schema mocks position selection type given []
          random).value = some value := by
    intro given fills
    rw [generate_of_fills fills, generateFrom] at success
    split at success
    · cases success
    · rename_i unfailed
      refine ⟨unfailed, ?_⟩
      cases reached : (Completer.ofSelection schema mocks position selection type given []
        random).value with
      | none =>
        rw [reached] at success
        cases success
      | some completed =>
        rw [reached] at success
        exact congrArg some (Except.ok.inj success)
  cases ruled : mocks.fieldValue? position with
  | none => exact ⟨none, .mocked ruled, finished (.mocked ruled)⟩
  | some result =>
    cases result with
    | ok given => exact ⟨some given, .ruled ruled, finished (.ruled ruled)⟩
    | error error =>
      simp only [generate, ruled] at success
      cases success

theorem generate_leavesStand (keeps : mocks.rules.KeepsBuiltIns) {value : Json}
    (success : (mocks.generate schema type position selection random).1 = .ok value) :
    LeavesStand schema mocks position (MembersStand schema mocks selection) type value := by
  obtain ⟨given, -, -, reached⟩ := completed_of_generate success
  refine yields_leavesStand keeps ?_ type given [] random value reached
  intro name fields known provided path
  exact yields_membersStand keeps selection [] name fields provided path _ known nofun fun _ same =>
    same

/-- Nothing is generated where a value is supplied that stands for none. -/
theorem generate_of_supplies {leafType : TypeDef} {value : Json} {place : List PathSegment}
    {error : ResolutionError}
    (supplies : mocks.Supplies schema type position selection random leafType value place)
    (refused : leafType.coerce value = .error error) :
    ∃ first, (mocks.generate schema type position selection random).1 = .error first := by
  obtain ⟨given, fills, supplies⟩ := supplies
  cases generated : (mocks.generate schema type position selection random).1 with
  | error first => exact ⟨first, rfl⟩
  | ok result =>
    obtain ⟨given', fills', none, -⟩ := completed_of_generate generated
    cases fills.unique fills'
    have failed := supplies.failure refused
    rw [none] at failed
    cases failed

end Mocks

namespace Resort

/-- Rules that give the state of a lift and all integers a text. -/
def careless : Engine Unit :=
  ⟨schema, ⟨(MockRules.standard.withField "Lift" "open" (.constant (.string "no"))).withType "Int"
    (.constant (.string "many")), .standard⟩, []⟩

def question : Operation :=
  ⟨.query, none, [⟨"resort", none, [], [⟨"lifts", none, [], [⟨"open", none, [], []⟩]⟩]⟩,
      ⟨"other", none, [], []⟩], []⟩

/-- A lift whose state is no truth value, and one whose state the rule gives. -/
def lifts : Json := .object [("lifts", .array [.object [("open", .string "yes")], .object []])]

def answer : Response :=
  .executed
    (.object
      [("resort",
        .object [("lifts", .array [.object [("open", .null)], .object [("open", .null)]])]),
        ("other", .string "many")])
    [⟨"Expected a value of type Boolean, found \"yes\"",
      some [.field "resort", .field "lifts", .index 0, .field "open"], none⟩,
      ⟨"Expected a value of type Boolean, found \"no\"",
        some [.field "resort", .field "lifts", .index 1, .field "open"], none⟩]

end Resort

/-- What a scalar or an enum in a response or in a generated value holds is of the domain, or it is
what the rule of its type gives. Any other value that is supplied for it, and that the type does not
take, is an error at its place, and nothing is generated. -/
theorem Engine.run_leaves_stand {σ : Type} (engine : Engine σ)
    (keeps : engine.mocks.rules.KeepsBuiltIns) :
    (∀ (operation : Operation) (payload : Option Json) (world after : World σ)
        (response : Response), engine.run operation payload world = (.ok response, after) →
        (∃ root data, engine.schema.root? operation.kind = some root ∧ response.data = some data ∧
            RootStands engine.schema engine.mocks root operation.selection data) ∧
          ∀ leafType value place, engine.Supplies operation payload world leafType value place →
            ¬ leafType.Takes value →
            (FieldError.new (ResolutionError.unexpected leafType.name value).message).withPath
                place ∈ response.errors.getD []) ∧
      ∀ (type : TypeRef) (position : Position) (selection : List FieldSelection) (random : Random),
        let result := (engine.mocks.generate engine.schema type position selection random).1
        (∀ value, result = .ok value → LeavesStand engine.schema engine.mocks position
          (MembersStand engine.schema engine.mocks selection) type value) ∧
        ∀ leafType value place,
          engine.mocks.Supplies engine.schema type position selection random leafType value place →
            ¬ leafType.Takes value → ∃ error, result = .error error := by
  refine ⟨fun operation payload world after response executed => ?_,
    fun type position selection random =>
      ⟨fun value success => Mocks.generate_leavesStand keeps success,
        fun leafType value place supplies foreign =>
          Mocks.generate_of_supplies supplies (TypeDef.coerce_of_not_takes foreign)⟩⟩
  obtain ⟨root, found, -, ⟨error, failed, rfl, -⟩ | ⟨seed, seeded, finished⟩⟩ := run_cases executed
  · refine ⟨⟨root, .null, found, rfl, Or.inl rfl⟩, ?_⟩
    rintro leafType value place ⟨root', seed, found', seeded, -⟩ foreign
    cases found.symm.trans found'
    rw [failed] at seeded
    cases seed <;> cases seeded
  · obtain rfl : _ = response := congrArg Prod.fst finished
    constructor
    · rcases Run.finish_stands engine keeps operation.selection
        ⟨engine.schema, root, seed, operation.context, payload, [], []⟩ world _ nofun fun _ same =>
        same with lost | ⟨members, data, stand⟩
      · exact ⟨root, .null, found, lost, Or.inl rfl⟩
      · exact ⟨root, .object members, found, data, Or.inr ⟨members, rfl, stand⟩⟩
    · rintro leafType value place ⟨root', seed', found', seeded', supplies⟩ foreign
      cases found.symm.trans found'
      have same : seed = seed' := by
        have both := seeded.symm.trans seeded'
        cases seed <;> cases seed' <;> cases both <;> rfl
      cases same
      exact supplies.fieldError (TypeDef.coerce_of_not_takes foreign)

theorem Resort.run_leaves_stand_lifts :
    (∃ root data, schema.root? .query = some root ∧ answer.data = some data ∧
        RootStands schema careless.mocks root question.selection data) ∧
      ⟨"Expected a value of type Boolean, found \"yes\"",
          some [.field "resort", .field "lifts", .index 0, .field "open"], none⟩ ∈
        answer.errors.getD [] ∧
      LeavesStand schema careless.mocks (.ofField "Query" "other")
        (MembersStand schema careless.mocks []) (.named "Int") (.string "many") ∧
      ∃ error,
        (careless.mocks.generate schema (.named "Boolean") (.ofField "Lift" "open") []
          world.random).1 = .error error := by
  have keeps : careless.mocks.rules.KeepsBuiltIns := fun _ _ _ found => found
  have foreign : ∀ text, ¬ TypeDef.Takes (.scalar "Boolean" none) (.string text) := by
    rintro text (inDomain | ⟨description, n, identifier, -⟩)
    · exact absurd inDomain.of_text (by decide)
    · exact absurd (TypeDef.scalar.inj identifier).1 (by decide)
  have supplied : ∀ position path text random, Supplies schema careless.mocks
      (.scalar "Boolean" none) (.string text) path position (.named "Boolean") []
      (some (.string text)) path random := by
    intro position path text random
    have scalar : ∀ fields, schema.fieldsOf "Boolean" ≠ .ok fields := by
      rintro fields ⟨⟩
    exact .leaf rfl scalar nofun
  have lifted :
      careless.Supplies question (some lifts) world (.scalar "Boolean" none) (.string "yes")
        [.field "resort", .field "lifts", .index 0, .field "open"] :=
    ⟨"Query", none, rfl, rfl, .here (by decide) rfl rfl .supplied
      (.nonNull (.object rfl
        (.here (by decide) rfl .supplied
          (.array (.here (.object rfl (.here (by decide) rfl .supplied (supplied _ _ _ _))))))))⟩
  have ruled :
      careless.mocks.Supplies schema (.named "Boolean") (.ofField "Lift" "open") [] world.random
        (.scalar "Boolean" none) (.string "no") [] :=
    ⟨some (.string "no"), .ruled rfl, supplied _ _ _ _⟩
  obtain ⟨runs, generates⟩ := Engine.run_leaves_stand careless keeps
  obtain ⟨stands, errors⟩ := runs question (some lifts) world world answer rfl
  exact ⟨stands, errors _ _ _ lifted (foreign "yes"),
    (generates (.named "Int") (.ofField "Query" "other") [] world.random).1 (.string "many") rfl,
    (generates (.named "Boolean") (.ofField "Lift" "open") [] world.random).2 _ _ _ ruled
      (foreign "no")⟩

/-- The rule of a type is not held against it: rules that fit the schema give an integer a text. -/
theorem Resort.type_rule_unchecked :
    careless.mocks.rules.check schema = .ok () ∧ careless.mocks.rules.KeepsBuiltIns ∧
      schema.field "Query" "other" = .ok ⟨"other", none, .named "Int", []⟩ ∧
      Ordered.get? schema.types "Int" = some (.scalar "Int" none) ∧
      (careless.execute ⟨.query, none, [⟨"other", none, [], []⟩], []⟩ world).1 =
        .ok ⟨some (.object [("other", .string "many")]), none⟩ ∧
      ¬ InDomain (.scalar "Int" none) (.string "many") :=
  ⟨rfl, fun _ _ _ found => found, rfl, rfl, rfl,
    fun inDomain => absurd inDomain.of_text (by decide)⟩

end MockGraph
