import MockGraph.Execution.Completion
import MockGraph.Execution.Handler
import MockGraph.Execution.Validation
import MockGraph.Subscription.Channel
set_option autoImplicit false

namespace MockGraph

/-- All that operations run on, apart from what they change. -/
structure Engine (σ : Type) where
  schema : TypeSystem
  mocks : Mocks
  handlers : Handlers σ

/-- What operations change: the generator, the state of the handlers, and the channel they publish
to. -/
structure World (σ : Type) where
  random : Random
  state : σ
  channel : Channel

/-- Why an operation does not run. -/
structure Rejection where
  errors : List ValidationError
deriving DecidableEq, Inhabited, Repr

namespace Rejection

def message (rejection : Rejection) : String :=
  "operation failed validation (" ++ toString rejection.errors.length ++ " error(s))"

def response (rejection : Rejection) : Response :=
  .ofErrors (rejection.errors.map ValidationError.fieldError)

end Rejection

def Failure.fieldError (failure : Failure) : FieldError :=
  (FieldError.new failure.error.message).withPath failure.path

/-- An operation between two root fields. The schema is the one it started with. -/
structure Run where
  schema : TypeSystem
  root : String
  /-- The members that the rule of the root type gives. -/
  seed : Option (Ordered String Json)
  context : Context
  /-- The payload of an event, until a field takes it. -/
  payload : Option Json
  data : Ordered String Json
  failures : List Failure

/-- A run goes on or has its response. -/
inductive Progress where
  | running (run : Run)
  | finished (response : Response)

namespace Run

variable {σ : Type}

/-- The response when all root fields are done. -/
def response (run : Run) : Response :=
  .executed (.object run.data) (run.failures.map Failure.fieldError)

/-- The response when a root field failed that may not be null. -/
def nullResponse (run : Run) : Response := .executed .null (run.failures.map Failure.fieldError)

/-- The handler that a root field is going to call. -/
def handler? (run : Run) (handlers : Handlers σ) (field : FieldSelection) : Option (Handler σ) :=
  if field.name = "__typename" || run.payload.isSome then none
  else
    match run.schema.field run.root field.name with
    | .error _ => none
    | .ok _ => handlers.find? run.root field.name

/-- Where the value of a root field comes from: nothing supplies it, or something does, which may
fail. A handler is called here. -/
def source (run : Run) (handlers : Handlers σ) (field : FieldSelection) (world : World σ) :
    Option (Except ResolutionError Json) × World σ :=
  match run.payload with
  | some payload => (some (.ok payload), world)
  | none =>
    match handlers.find? run.root field.name with
    | some handler =>
      let reply := handler.answer field.arguments run.context world.state
      (some reply.result,
        { world with state := reply.state, channel := world.channel.publishAll reply.events })
    | none => ((run.seed.bind fun members => Ordered.get? members field.name).map .ok, world)

/-- Completes the value of a root field from its source. -/
def complete (run : Run) (mocks : Mocks) (field : FieldSelection) (definition : FieldDef)
    (source : Option (Except ResolutionError Json)) : Completion Json :=
  let path := [PathSegment.field field.responseKey]
  let finish (supplied : Option Json) : Completion Json :=
    Completion.field run.schema mocks run.root field.name definition.type
      (Completion.fields run.schema mocks field.selection []) supplied path
  match source with
  | none => finish none
  | some (.ok value) => finish (some value)
  | some (.error error) => Completion.absorb definition.type (Completion.fail error path)

def step (run : Run) (engine : Engine σ) (field : FieldSelection) (world : World σ) :
    Progress × World σ :=
  let key := field.responseKey
  if field.name = "__typename" then
    (.running { run with data := Ordered.insert run.data key (.string run.root) }, world)
  else
    match run.schema.field run.root field.name with
    | .error _ => (.running run, world)
    | .ok definition =>
      let (source, world) := run.source engine.handlers field world
      let done := run.complete engine.mocks field definition source world.random
      let world := { world with random := done.random }
      let run := { run with payload := none, failures := run.failures ++ done.failures }
      match done.value with
      | some value => (.running { run with data := Ordered.insert run.data key value }, world)
      | none => (.finished run.nullResponse, world)

/-- All that one root field can do: it is the name of the type, or the type does not have it, or it
is completed from its source, and the run goes on with its value or ends without one. -/
theorem step_cases (run : Run) (engine : Engine σ) (field : FieldSelection) (world : World σ) :
    (field.name = "__typename" ∧
        run.step engine field world =
          (.running { run with
            data := Ordered.insert run.data field.responseKey (.string run.root) }, world)) ∨
      field.name ≠ "__typename" ∧
        ((∃ error, run.schema.field run.root field.name = .error error ∧
            run.step engine field world = (.running run, world)) ∨
          ∃ definition source met done, run.schema.field run.root field.name = .ok definition ∧
            run.source engine.handlers field world = (source, met) ∧
            run.complete engine.mocks field definition source met.random = done ∧
            let next := { run with payload := none, failures := run.failures ++ done.failures }
            ((∃ value, done.value = some value ∧ run.step engine field world =
                (.running { next with data := Ordered.insert run.data field.responseKey value },
                  { met with random := done.random })) ∨
              done.value = none ∧ run.step engine field world =
                (.finished next.nullResponse, { met with random := done.random }))) := by
  unfold step
  dsimp only
  by_cases isTypename : field.name = "__typename"
  · exact Or.inl ⟨isTypename, by rw [if_pos isTypename]⟩
  · refine Or.inr ⟨isTypename, ?_⟩
    rw [if_neg isTypename]
    cases declared : run.schema.field run.root field.name with
    | error error => exact Or.inl ⟨error, rfl, rfl⟩
    | ok definition =>
      rcases sourced : run.source engine.handlers field world with ⟨source, met⟩
      refine Or.inr ⟨definition, source, met, _, rfl, rfl, rfl, ?_⟩
      cases reached : (run.complete engine.mocks field definition source met.random).value with
      | some value => exact Or.inl ⟨value, rfl, by simp only [reached]⟩
      | none => exact Or.inr ⟨rfl, by simp only [reached]⟩

/-- All fields of an operation are completed with the schema, on the type and in the context that it
began with. -/
theorem step_keeps {run next : Run} {engine : Engine σ} {field : FieldSelection} {world : World σ}
    (stepped : (run.step engine field world).1 = .running next) :
    next.schema = run.schema ∧ next.root = run.root ∧ next.seed = run.seed ∧
      next.context = run.context := by
  rcases run.step_cases engine field world with
    ⟨-, typename⟩ | ⟨-, ⟨error, -, skipped⟩ | ⟨definition, source, met, done, -, -, -,
      ⟨value, -, completed⟩ | ⟨-, ended⟩⟩⟩
  · rw [typename] at stepped
    cases stepped
    exact ⟨rfl, rfl, rfl, rfl⟩
  · rw [skipped] at stepped
    cases stepped
    exact ⟨rfl, rfl, rfl, rfl⟩
  · rw [completed] at stepped
    cases stepped
    exact ⟨rfl, rfl, rfl, rfl⟩
  · rw [ended] at stepped
    cases stepped

/-- Completes root fields one after the other, up to the first whose failure leaves no data. -/
def finish (engine : Engine σ) : List FieldSelection → Run → World σ → Response × World σ
  | [], run, world => (run.response, world)
  | field :: rest, run, world =>
    match run.step engine field world with
    | (.running run, world) => finish engine rest run world
    | (.finished response, world) => (response, world)

end Run

namespace Engine

variable {σ : Type}

/-- Checks an operation and prepares its run. A failing rule of the root type ends it at once. -/
def start (engine : Engine σ) (operation : Operation) (payload : Option Json) :
    Except Rejection Progress :=
  match engine.schema.root? operation.kind with
  | none => .error ⟨[.unsupportedOperation operation.kind]⟩
  | some root =>
    match engine.schema.selectionErrors root operation.selection with
    | [] =>
      let run (seed : Option (Ordered String Json)) : Run :=
        ⟨engine.schema, root, seed, operation.context, payload, [], []⟩
      match engine.mocks.objectSeed? .root root with
      | some (.error error) => .ok (.finished (.executed .null [.new error.message]))
      | some (.ok members) => .ok (.running (run (some members)))
      | none => .ok (.running (run none))
    | errors => .error ⟨errors⟩

/-- An operation that is not rejected fits the schema. It ends at once with the error of a failing
rule of the root type, or a run over its selection begins. -/
theorem start_cases {engine : Engine σ} {operation : Operation} {payload : Option Json}
    {progress : Progress} (started : engine.start operation payload = .ok progress) :
    ∃ root, engine.schema.root? operation.kind = some root ∧
      engine.schema.selectionErrors root operation.selection = [] ∧
      ((∃ error, engine.mocks.objectSeed? .root root = some (.error error) ∧
          progress = .finished (.executed .null [.new error.message])) ∨
        ∃ seed, engine.mocks.objectSeed? .root root = seed.map .ok ∧
          progress = .running ⟨engine.schema, root, seed, operation.context, payload, [], []⟩) := by
  unfold start at started
  cases found : engine.schema.root? operation.kind with
  | none => simp [found] at started
  | some root =>
    simp only [found] at started
    cases errors : engine.schema.selectionErrors root operation.selection with
    | cons error others => simp [errors] at started
    | nil =>
      simp only [errors] at started
      refine ⟨root, rfl, errors, ?_⟩
      cases seeded : engine.mocks.objectSeed? .root root with
      | none =>
        simp only [seeded, Except.ok.injEq] at started
        exact Or.inr ⟨none, rfl, started.symm⟩
      | some seed =>
        cases seed with
        | error error =>
          simp only [seeded, Except.ok.injEq] at started
          exact Or.inl ⟨error, rfl, started.symm⟩
        | ok members =>
          simp only [seeded, Except.ok.injEq] at started
          exact Or.inr ⟨some members, rfl, started.symm⟩

/-- An operation that fits the schema, and that no rule ends, begins its run. -/
theorem start_of_seeded {engine : Engine σ} {operation : Operation} {root : String}
    {seed : Option (Ordered String Json)} (known : engine.schema.root? operation.kind = some root)
    (valid : engine.schema.selectionErrors root operation.selection = [])
    (seeded : engine.mocks.objectSeed? .root root = seed.map .ok) (payload : Option Json) :
    engine.start operation payload =
      .ok (.running ⟨engine.schema, root, seed, operation.context, payload, [], []⟩) := by
  unfold start
  cases seed <;> simp only [known, valid, seeded, Option.map]

/-- Runs an operation to its end without waiting at any gate. -/
def run (engine : Engine σ) (operation : Operation) (payload : Option Json) (world : World σ) :
    Except Rejection Response × World σ :=
  match engine.start operation payload with
  | .error rejection => (.error rejection, world)
  | .ok (.finished response) => (.ok response, world)
  | .ok (.running run) =>
    let (response, world) := run.finish engine operation.selection world
    (.ok response, world)

/-- An operation that is not rejected fits the schema. Its response is that of a failing rule of the
root type, or that of a run over the whole selection. -/
theorem run_cases {engine : Engine σ} {operation : Operation} {payload : Option Json}
    {world after : World σ} {response : Response}
    (executed : engine.run operation payload world = (.ok response, after)) :
    ∃ root, engine.schema.root? operation.kind = some root ∧
      engine.schema.selectionErrors root operation.selection = [] ∧
      ((∃ error, engine.mocks.objectSeed? .root root = some (.error error) ∧
          response = .executed .null [.new error.message] ∧ after = world) ∨
        ∃ seed, engine.mocks.objectSeed? .root root = seed.map .ok ∧
          Run.finish engine operation.selection
              ⟨engine.schema, root, seed, operation.context, payload, [], []⟩ world =
            (response, after)) := by
  unfold run at executed
  cases started : engine.start operation payload with
  | error rejection => simp [started] at executed
  | ok progress =>
    obtain ⟨root, known, valid, ⟨error, seeded, rfl⟩ | ⟨seed, seeded, rfl⟩⟩ := start_cases started
    · simp only [started, Prod.mk.injEq, Except.ok.injEq] at executed
      exact ⟨root, known, valid, Or.inl ⟨error, seeded, executed.1.symm, executed.2.symm⟩⟩
    · simp only [started, Prod.mk.injEq, Except.ok.injEq] at executed
      exact ⟨root, known, valid, Or.inr ⟨seed, seeded, Prod.ext executed.1 executed.2⟩⟩

theorem run_of_started {engine : Engine σ} {operation : Operation} {payload : Option Json}
    {run : Run} (started : engine.start operation payload = .ok (.running run)) (world : World σ) :
    engine.run operation payload world =
      (.ok (run.finish engine operation.selection world).1,
        (run.finish engine operation.selection world).2) := by
  rw [Engine.run, started]

/-- Runs a query or a mutation, or a subscription without an event. -/
def execute (engine : Engine σ) (operation : Operation) (world : World σ) :
    Except Rejection Response × World σ :=
  engine.run operation none world

/-- Runs a subscription with the payload of an event as the value of its root field. -/
def executeEvent (engine : Engine σ) (operation : Operation) (payload : Json) (world : World σ) :
    Except Rejection Response × World σ :=
  engine.run operation (some payload) world

/-- Replaces the schema, if the mock rules fit the new one. -/
def reload (engine : Engine σ) (schema : TypeSystem) : Except SchemaError (Engine σ) :=
  match engine.mocks.rules.check schema with
  | .error error => .error error
  | .ok () => .ok { engine with schema }

end Engine

/-- The response of a run, also of one that was rejected. -/
def responseOfRun : Except Rejection Response → Response
  | .ok response => response
  | .error rejection => rejection.response

end MockGraph
