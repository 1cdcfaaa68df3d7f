import MockGraph.Proofs.Execution.Supplied
set_option autoImplicit false

namespace MockGraph

/-- What the members of an object are looked for in: the object that is supplied, or what the rule
of its type gives. -/
inductive Mocks.Provides (mocks : Mocks) (position : Position) (type : String) :
    Option Json → Option (Ordered String Json) → Prop
  | supplied {members} : Provides mocks position type (some (.object members)) (some members)
  | seeded {members} : mocks.objectSeed? position type = some (.ok members) →
      Provides mocks position type none (some members)
  | mocked : mocks.objectSeed? position type = none → Provides mocks position type none none

/-- A field that is completed on an object. -/
structure Visit where
  /-- The field whose value the object is or lies in, if it is not the root. -/
  position : Position
  parent : String
  /-- The object, if anything supplies it. -/
  supplied : Option Json
  /-- What the members of the object are looked for in. -/
  provided : Option (Ordered String Json)
  path : List PathSegment
  field : FieldSelection
  definition : FieldDef
  random : Random

namespace Visit

def place (visit : Visit) : List PathSegment := visit.path ++ [.field visit.field.responseKey]

def completion (visit : Visit) (schema : TypeSystem) (mocks : Mocks) : Completion Json :=
  Completion.field schema mocks visit.parent visit.field.name visit.definition.type
    (Completion.fields schema mocks visit.field.selection [])
    (visit.provided.bind fun members => Ordered.get? members visit.field.name) visit.place

/-- The completion of the field from a value, or from the error that there is instead. -/
def completedFrom (visit : Visit) (schema : TypeSystem) (mocks : Mocks) :
    Except ResolutionError Json → Completion Json
  | .ok value =>
    Completion.absorb visit.definition.type
      (Completer.ofSelection schema mocks (.ofField visit.parent visit.field.name)
        visit.field.selection visit.definition.type (some value) visit.place)
  | .error error => Completion.absorb visit.definition.type (Completion.fail error visit.place)

end Visit

mutual

/-- A completion comes to a field. The arguments are those of the completion: the position, the type
and the selection, what is supplied, the path of the value, and the generator. -/
inductive Visits (schema : TypeSystem) (mocks : Mocks) (visit : Visit) :
    Position → TypeRef → List FieldSelection → Option Json → List PathSegment → Random → Prop
  | nonNull {position type selection supplied path random} : supplied ≠ some .null →
      Visits schema mocks visit position type selection supplied path random →
      Visits schema mocks visit position (.nonNull type) selection supplied path random
  | array {position item selection items path random} :
      ItemVisits schema mocks visit position item selection path (List.map some items) 0 random →
      Visits schema mocks visit position (.list item) selection (some (.array items)) path random
  | mockedArray {position item selection path random after length} :
      mocks.drawLength position item.namedType random = (length, after) →
      ItemVisits schema mocks visit position item selection path (List.replicate length none) 0
        after → Visits schema mocks visit position (.list item) selection none path random
  | object {position name fields selection supplied provided path random} :
      schema.fieldsOf name = .ok fields → mocks.Provides position name supplied provided →
      MemberVisits schema mocks visit position supplied name fields provided path selection random →
      Visits schema mocks visit position (.named name) selection supplied path random

/-- The completion of one of the items from an index on comes to the field. Each is completed with
the generator that those before it leave, if these do not end the list. -/
inductive ItemVisits (schema : TypeSystem) (mocks : Mocks) (visit : Visit) :
    Position → TypeRef → List FieldSelection → List PathSegment → List (Option Json) → Nat →
      Random → Prop
  | here {position item selection path supplied rest index random} :
      Visits schema mocks visit position item selection supplied (path ++ [.index index]) random →
      ItemVisits schema mocks visit position item selection path (supplied :: rest) index random
  | later {position item selection path supplied rest index random first} :
      (Completion.absorb item
        (Completer.ofSelection schema mocks position selection item supplied
          (path ++ [.index index])) random).value = some first →
      ItemVisits schema mocks visit position item selection path rest (index + 1)
        (Completer.ofSelection schema mocks position selection item supplied
          (path ++ [.index index]) random).random →
      ItemVisits schema mocks visit position item selection path (supplied :: rest) index random

/-- The field is one of those that are selected on an object, or the completion of one of them comes
to it. -/
inductive MemberVisits (schema : TypeSystem) (mocks : Mocks) (visit : Visit) :
    Position → Option Json → String → Ordered String FieldDef → Option (Ordered String Json) →
      List PathSegment → List FieldSelection → Random → Prop
  | here {fields rest} : visit.field.name ≠ "__typename" →
      Ordered.get? fields visit.field.name = some visit.definition →
      MemberVisits schema mocks visit visit.position visit.supplied visit.parent fields
        visit.provided visit.path (visit.field :: rest) visit.random
  | inside {position supplied parent fields provided path field rest definition given random} :
      field.name ≠ "__typename" → Ordered.get? fields field.name = some definition →
      mocks.Fills (.ofField parent field.name)
        (Option.bind provided fun members => Ordered.get? members field.name) given →
      Visits schema mocks visit (.ofField parent field.name) definition.type field.selection given
        (path ++ [.field field.responseKey]) random →
      MemberVisits schema mocks visit position supplied parent fields provided path (field :: rest)
        random
  | later {position supplied parent fields provided path field rest random first} :
      (Completion.member schema mocks field parent fields provided
        (path ++ [.field field.responseKey]) random).value = some first →
      MemberVisits schema mocks visit position supplied parent fields provided path rest
        (Completion.member schema mocks field parent fields provided
          (path ++ [.field field.responseKey]) random).random →
      MemberVisits schema mocks visit position supplied parent fields provided path (field :: rest)
        random

end

/-- A run comes to a field: it is one of the root fields, or the completion of one of them comes to
it. Each root field meets the run and the world that those before it leave. -/
inductive Run.Visits {σ : Type} (engine : Engine σ) (visit : Visit) :
    List FieldSelection → Run → World σ → Prop
  | here {field rest run world definition} : field.name ≠ "__typename" →
      run.schema.field run.root field.name = .ok definition →
      visit = ⟨.root, run.root, none, run.seed, [], field, definition, world.random⟩ →
      Run.Visits engine visit (field :: rest) run world
  | inside {field rest run world met definition supplied given} : field.name ≠ "__typename" →
      run.schema.field run.root field.name = .ok definition →
      run.source engine.handlers field world = (Option.map Except.ok supplied, met) →
      engine.mocks.Fills (.ofField run.root field.name) supplied given →
      MockGraph.Visits run.schema engine.mocks visit (.ofField run.root field.name) definition.type
        field.selection given [.field field.responseKey] met.random →
      Run.Visits engine visit (field :: rest) run world
  | later {field rest run next world met} :
      run.step engine field world = (.running next, met) → Run.Visits engine visit rest next met →
      Run.Visits engine visit (field :: rest) run world

/-- An operation comes to a field. -/
def Engine.Visits {σ : Type} (engine : Engine σ) (operation : Operation) (world : World σ)
    (visit : Visit) : Prop :=
  ∃ root seed, engine.schema.root? operation.kind = some root ∧
    engine.mocks.objectSeed? .root root = Option.map Except.ok seed ∧
    Run.Visits engine visit operation.selection
      ⟨engine.schema, root, seed, operation.context, none, [], []⟩ world

section

variable {schema : TypeSystem} {mocks : Mocks} {visit : Visit}

theorem Visit.member_eq {fields : Ordered String FieldDef} (named : visit.field.name ≠ "__typename")
    (found : Ordered.get? fields visit.field.name = some visit.definition) :
    Completion.member schema mocks visit.field visit.parent fields visit.provided
      (visit.path ++ [.field visit.field.responseKey]) = visit.completion schema mocks := by
  obtain ⟨position, parent, supplied, provided, path, ⟨name, aliasName, arguments, selection⟩,
      definition, random⟩ := visit
  unfold Completion.member
  dsimp only at named found ⊢
  rw [if_neg named, found]
  rfl

theorem Completer.object_of_provides {position : Position} {name : String}
    {fields : Ordered String FieldDef} {complete : FieldsCompleter} {supplied : Option Json}
    {provided : Option (Ordered String Json)}
    (provides : mocks.Provides position name supplied provided) (path : List PathSegment) :
    object mocks position name fields complete supplied path =
      (complete name fields provided path).andThen fun members => .value (.object members) := by
  unfold object
  cases provides with
  | supplied => rfl
  | seeded seeded => simp only [seeded]
  | mocked seedless => simp only [seedless]

mutual

/-- Where a completion comes to a field, it looks for it in the object that is supplied, or in what
the rule of the object's type gives. -/
theorem Visits.provides {position : Position} {type : TypeRef} {selection : List FieldSelection}
    {supplied : Option Json} {path : List PathSegment} {random : Random}
    (visits : Visits schema mocks visit position type selection supplied path random) :
    mocks.Provides visit.position visit.parent visit.supplied visit.provided := by
  match visits with
  | .nonNull _ inside => exact inside.provides
  | .array inside => exact inside.provides
  | .mockedArray _ inside => exact inside.provides
  | .object _ provides inside => exact inside.provides provides

theorem ItemVisits.provides {position : Position} {item : TypeRef} {selection : List FieldSelection}
    {supplied : List (Option Json)} {index : Nat} {path : List PathSegment} {random : Random}
    (visits : ItemVisits schema mocks visit position item selection path supplied index random) :
    mocks.Provides visit.position visit.parent visit.supplied visit.provided := by
  match visits with
  | .here inside => exact inside.provides
  | .later _ inside => exact inside.provides

theorem MemberVisits.provides {position : Position} {supplied : Option Json} {parent : String}
    {fields : Ordered String FieldDef} {provided : Option (Ordered String Json)}
    {path : List PathSegment} {selection : List FieldSelection} {random : Random}
    (visits : MemberVisits schema mocks visit position supplied parent fields provided path
      selection random) (provides : mocks.Provides position parent supplied provided) :
    mocks.Provides visit.position visit.parent visit.supplied visit.provided := by
  match visits with
  | .here _ _ => exact provides
  | .inside _ _ _ inside => exact inside.provides
  | .later _ inside => exact inside.provides provides

end

-- As for supplied leaves: none of the combinators drops an error once it is met.
mutual

/-- The errors of a field are errors of the completion that comes to it. -/
theorem Visits.failures {position : Position} {type : TypeRef} {selection : List FieldSelection}
    {supplied : Option Json} {path : List PathSegment} {random : Random} {failure : Failure}
    (failed : failure ∈ (visit.completion schema mocks visit.random).failures)
    (visits : Visits schema mocks visit position type selection supplied path random) :
    failure ∈
      (Completer.ofSelection schema mocks position selection type supplied path
        random).failures := by
  match visits with
  | .nonNull present inside => exact Completer.failures_nonNull present (inside.failures failed)
  | .array inside => exact Completion.failures_andThen_left (inside.failures failed)
  | .mockedArray drawn inside =>
    show _ ∈ (Completer.list _ _ _ _ none _ _).failures
    unfold Completer.list
    simp only [drawn]
    exact Completion.failures_andThen_left (inside.failures failed)
  | .object known provides inside =>
    have present : supplied ≠ some .null := by
      rintro rfl
      cases provides
    show _ ∈ (Completer.orNull _ _ _ _).failures
    rw [Completer.orNull_of_ne present, named_of_fieldsOf known,
      Completer.object_of_provides provides]
    exact Completion.failures_andThen_left (inside.failures failed [])

theorem ItemVisits.failures {position : Position} {item : TypeRef} {selection : List FieldSelection}
    {supplied : List (Option Json)} {index : Nat} {path : List PathSegment} {random : Random}
    {failure : Failure} (failed : failure ∈ (visit.completion schema mocks visit.random).failures)
    (visits : ItemVisits schema mocks visit position item selection path supplied index random) :
    failure ∈
      (Completer.items (Completer.ofSelection schema mocks position selection item) item path
        supplied index random).failures := by
  match visits with
  | .here inside =>
    refine Completion.failures_andThen_left ?_
    rw [Completion.failures_absorb]
    exact inside.failures failed
  | .later reached inside =>
    refine Completion.failures_andThen_right reached (Completion.failures_andThen_left ?_)
    rw [Completion.absorb_random]
    exact inside.failures failed

theorem MemberVisits.failures {position : Position} {supplied : Option Json} {parent : String}
    {fields : Ordered String FieldDef} {provided : Option (Ordered String Json)}
    {path : List PathSegment} {selection : List FieldSelection} {random : Random}
    {failure : Failure} (failed : failure ∈ (visit.completion schema mocks visit.random).failures)
    (visits : MemberVisits schema mocks visit position supplied parent fields provided path
      selection random) (done : Ordered String Json) :
    failure ∈
      (Completion.fields schema mocks selection done parent fields provided path
        random).failures := by
  match visits with
  | .here named found =>
    refine Completion.failures_andThen_left ?_
    rw [Visit.member_eq named found]
    exact failed
  | .inside named found fills inside =>
    refine Completion.failures_andThen_left ?_
    rw [Completion.member_of_fills named found fills, Completion.failures_absorb]
    exact inside.failures failed
  | .later reached inside =>
    exact Completion.failures_andThen_right reached (inside.failures failed _)

end

/-- A field with a rule of its own is completed from the member that there is for it, or else from
what its rule gives. -/
theorem Visit.completion_of_ruled {produce : Position → Except ResolutionError Json}
    (ruled : mocks.rules.ruleForField? visit.parent visit.field.name = some (.value produce)) :
    visit.completion schema mocks = visit.completedFrom schema mocks
      ((visit.provided.bind fun members => Ordered.get? members visit.field.name).elim
        (produce (.ofField visit.parent visit.field.name)) .ok) := by
  have rule : mocks.fieldValue? (.ofField visit.parent visit.field.name) =
      some (produce (.ofField visit.parent visit.field.name)) := by
    rw [Mocks.fieldValue?, Position.ofField, Position.target?]
    dsimp only
    rw [ruled]
  unfold Visit.completion
  cases visit.provided.bind fun members => Ordered.get? members visit.field.name with
  | some value => rfl
  | none =>
    rw [Option.elim]
    cases produced : produce (.ofField visit.parent visit.field.name) with
    | ok value =>
      rw [produced] at rule
      rw [Completion.field_of_fills (.ruled rule)]
      rfl
    | error error =>
      rw [produced] at rule
      unfold Completion.field
      simp only [rule]
      rfl

end

namespace Run

variable {σ : Type} {engine : Engine σ} {visit : Visit} {selection : List FieldSelection}
  {run : Run} {world : World σ}

/-- The members that root fields are looked for in are those that the rule of the root type
gives. -/
theorem Visits.provides (visits : Run.Visits engine visit selection run world)
    (seeded : engine.mocks.objectSeed? .root run.root = run.seed.map .ok) :
    engine.mocks.Provides visit.position visit.parent visit.supplied visit.provided := by
  induction visits with
  | @here _ _ run _ _ _ _ same =>
    subst same
    cases given : run.seed with
    | none =>
      rw [given] at seeded
      exact .mocked seeded
    | some members =>
      rw [given] at seeded
      exact .seeded seeded
  | inside _ _ _ _ inside => exact inside.provides
  | later stepped _ ih =>
    obtain ⟨-, root, seed, -⟩ := step_keeps (congrArg Prod.fst stepped)
    exact ih (by rw [root, seed]; exact seeded)

theorem payload_step {next : Run} {met : World σ} {field : FieldSelection}
    (unpaid : run.payload = none) (stepped : run.step engine field world = (.running next, met)) :
    next.payload = none := by
  rcases run.step_cases engine field world with ⟨-, same⟩ | ⟨-,
      ⟨error, -, same⟩ | ⟨definition, source, _, done, -, -, -, ⟨value, -, same⟩ | ⟨-, same⟩⟩⟩ <;>
    cases stepped.symm.trans same
  · exact unpaid
  · exact unpaid
  · rfl

/-- The errors of a field that the run comes to are errors of the response. -/
theorem Visits.fieldError (visits : Run.Visits engine visit selection run world)
    (unhandled : ∀ root field, engine.handlers.find? root field = none)
    (unpaid : run.payload = none) {failure : Failure}
    (failed : failure ∈ (visit.completion run.schema engine.mocks visit.random).failures) :
    failure.fieldError ∈ (finish engine selection run world).1.errors.getD [] := by
  induction visits with
  | @here field rest run world definition named declared same =>
    have sourced : run.source engine.handlers field world =
        ((run.seed.bind fun members => Ordered.get? members field.name).map .ok, world) := by
      rw [source, unpaid]
      dsimp only
      rw [unhandled]
    apply fieldError_of_complete rest named declared sourced
    rw [complete_of_supplied]
    rw [same] at failed
    exact failed
  | @inside field rest run world met definition supplied given named declared sourced fills
      inside =>
    apply fieldError_of_complete rest named declared sourced
    rw [complete_of_supplied, Completion.field_of_fills fills, Completion.failures_absorb]
    exact inside.failures failed
  | later stepped _ ih =>
    have next := ih (payload_step unpaid stepped)
    rw [(step_keeps (congrArg Prod.fst stepped)).1] at next
    unfold finish
    rw [stepped]
    exact next failed

end Run

/-- Wherever an operation comes to a field with a rule of its own, on an object that nothing
supplies, the field is completed from what its rule gives, or from the error that the rule ends
with, whatever rules there are for types. The one exception is a rule of the object's own type that
gives the field a member: that member is taken. Its errors are errors of the response. -/
theorem Engine.field_rule_decides {σ : Type} (engine : Engine σ)
    (unhandled : ∀ root field, engine.handlers.find? root field = none) (operation : Operation)
    (world after : World σ) (response : Response)
    (executed : engine.execute operation world = (.ok response, after)) (visit : Visit)
    (visits : engine.Visits operation world visit) (unsupplied : visit.supplied = none)
    (produce : Position → Except ResolutionError Json)
    (ruled : engine.mocks.rules.ruleForField? visit.parent visit.field.name =
      some (.value produce)) :
    let completion := visit.completion engine.schema engine.mocks
    let seed := engine.mocks.objectSeed? visit.position visit.parent
    ((∀ members, seed = some (.ok members) → Ordered.get? members visit.field.name = none) →
      completion = visit.completedFrom engine.schema engine.mocks
        (produce (.ofField visit.parent visit.field.name))) ∧
    (∀ members value, seed = some (.ok members) →
        Ordered.get? members visit.field.name = some value →
        completion = visit.completedFrom engine.schema engine.mocks (.ok value)) ∧
    ∀ failure ∈ (completion visit.random).failures,
      failure.fieldError ∈ response.errors.getD [] := by
  intro completion seed
  obtain ⟨root, given, known, seeded, visits⟩ := visits
  have provides := visits.provides seeded
  rw [unsupplied] at provides
  have decided : completion = _ := Visit.completion_of_ruled ruled
  refine ⟨?_, ?_, ?_⟩
  · intro lacks
    cases looked : visit.provided with
    | none =>
      rw [looked] at decided
      exact decided
    | some members =>
      rw [looked] at provides decided
      cases provides with
      | seeded gives =>
        rw [Option.bind_some, lacks members gives] at decided
        exact decided
  · intro members value gives has
    cases looked : visit.provided with
    | none =>
      rw [looked] at provides
      cases provides with
      | mocked seedless => cases seedless.symm.trans gives
    | some others =>
      rw [looked] at provides decided
      cases provides with
      | seeded same =>
        cases same.symm.trans gives
        rw [Option.bind_some, has] at decided
        exact decided
  · intro failure failed
    obtain ⟨root', known', -, ⟨error, fails, -, -⟩ | ⟨seed', seeded', finished⟩⟩ :=
      run_cases executed
    · cases known.symm.trans known'
      rw [fails] at seeded
      cases given <;> cases seeded
    · cases known.symm.trans known'
      obtain rfl := Option.map_injective (fun _ _ => Except.ok.inj) (seeded.symm.trans seeded')
      obtain rfl : _ = response := congrArg Prod.fst finished
      exact visits.fieldError unhandled rfl failed

namespace Resort

/-- Rules that give the name of the resort, all texts, and a resort without lifts. -/
def named : Engine Unit :=
  ⟨schema,
    ⟨((MockRules.standard.withField "Resort" "name" (.constant (.string "Snowbird"))).withType
        "String" (.constant (.string "Alta"))).withType "Resort"
      (.constant (.object [("lifts", .array [])])), .standard⟩, []⟩

/-- Rules that give the name of the resort, and a resort of another name. -/
def renamed : Engine Unit :=
  ⟨schema,
    ⟨(MockRules.standard.withField "Resort" "name" (.constant (.string "Snowbird"))).withType
      "Resort" (.constant (.object [("name", .string "Alta")])), .standard⟩, []⟩

def asksName : Operation := ⟨.query, none, [⟨"resort", none, [], [⟨"name", none, [], []⟩]⟩], []⟩

/-- The name of a resort with these members. -/
def visit (members : Ordered String Json) : Visit :=
  ⟨.ofField "Query" "resort", "Resort", none, some members, [.field "resort"],
    ⟨"name", none, [], []⟩, ⟨"name", none, .named "String", []⟩, world.random⟩

private theorem unsourced : ((none, world) : Option (Except ResolutionError Json) × World Unit) =
    ((none : Option Json).map .ok, world) := rfl

theorem visits_named : named.Visits asksName world (visit [("lifts", .array [])]) := by
  have mocked : named.mocks.Fills (.ofField "Query" "resort") none none := .mocked rfl
  refine ⟨"Query", none, rfl, rfl, .inside (by decide) rfl unsourced mocked ?_⟩
  exact .nonNull nofun (.object rfl (.seeded rfl) (.here (by decide) rfl))

theorem visits_renamed : renamed.Visits asksName world (visit [("name", .string "Alta")]) := by
  have mocked : renamed.mocks.Fills (.ofField "Query" "resort") none none := .mocked rfl
  refine ⟨"Query", none, rfl, rfl, .inside (by decide) rfl unsourced mocked ?_⟩
  exact .nonNull nofun (.object rfl (.seeded rfl) (.here (by decide) rfl))

/-- The resort is named by the rule of its field, whatever the rules of all texts and of resorts
give. -/
theorem field_rule_decides_named :
    (∀ root field, named.handlers.find? root field = none) ∧
      named.Visits asksName world (visit [("lifts", .array [])]) ∧
      named.mocks.rules.ruleForField? "Resort" "name" = some (.constant (.string "Snowbird")) ∧
      (visit [("lifts", .array [])]).completion named.schema named.mocks =
        (visit [("lifts", .array [])]).completedFrom named.schema named.mocks
          (.ok (.string "Snowbird")) := by
  have unhandled : ∀ root field, named.handlers.find? root field = none := fun _ _ => rfl
  have executed : named.execute asksName world =
      (.ok (.executed (.object [("resort", .object [("name", .string "Snowbird")])]) []), world) :=
    rfl
  obtain ⟨decides, -, -⟩ :=
    named.field_rule_decides unhandled asksName world world _ executed _ visits_named rfl
      (fun _ => .ok (.string "Snowbird")) rfl
  refine ⟨unhandled, visits_named, rfl, decides ?_⟩
  rintro members ⟨⟩
  rfl

/-- A rule for resorts takes a resort's name from the rule of that field. -/
theorem field_rule_passed_over :
    renamed.mocks.rules.check schema = .ok () ∧
      (∀ root field, renamed.handlers.find? root field = none) ∧
      renamed.Visits asksName world (visit [("name", .string "Alta")]) ∧
      renamed.mocks.rules.ruleForField? "Resort" "name" = some (.constant (.string "Snowbird")) ∧
      (visit [("name", .string "Alta")]).completion schema renamed.mocks =
        (visit [("name", .string "Alta")]).completedFrom schema renamed.mocks
          (.ok (.string "Alta")) ∧
      (renamed.execute asksName world).1 =
        .ok (.executed (.object [("resort", .object [("name", .string "Alta")])]) []) :=
  ⟨rfl, fun _ _ => rfl, visits_renamed, rfl, rfl, rfl⟩

end Resort

end MockGraph
