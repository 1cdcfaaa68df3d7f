import MockGraph.Execution.Run
import MockGraph.Execution.Script
import MockGraph.Schema.Introspection
set_option autoImplicit false

namespace MockGraph

variable {σ : Type}

/-- A call of the handler with a key, for an operation. -/
structure RecordedCall where
  key : String
  arguments : Ordered String Json
  context : Context

/-- A handler that answers as before, and writes down each call. -/
def Handler.recording (key : String) (handler : Handler σ) : Handler (σ × List RecordedCall) where
  gate := handler.gate
  answer arguments context met :=
    let reply := handler.answer arguments context met.1
    ⟨reply.result, (reply.state, met.2 ++ [⟨key, arguments, context⟩]), reply.events⟩

def Handlers.recording (handlers : Handlers σ) : Handlers (σ × List RecordedCall) :=
  handlers.map fun entry => (entry.1, entry.2.recording entry.1)

/-- The engine in which all handlers write down their calls. -/
def Engine.recording (engine : Engine σ) : Engine (σ × List RecordedCall) where
  schema := engine.schema
  mocks := engine.mocks
  handlers := engine.handlers.recording

def World.recorded (world : World σ) (calls : List RecordedCall) :
    World (σ × List RecordedCall) where
  random := world.random
  state := (world.state, calls)
  channel := world.channel

/-- The calls for root fields, in order, with the arguments of each. The first field takes the
payload of an event, if there is one. The name of the type is no field. -/
def Handlers.callsFor (handlers : Handlers σ) (root : String) (context : Context)
    (payload : Option Json) (fields : List FieldSelection) : List RecordedCall :=
  ((fields.filter fun field => field.name ≠ "__typename").drop
      (if payload.isSome then 1 else 0)).flatMap fun field =>
    ((handlers.find? root field.name).map fun _ =>
      ⟨Handlers.key root field.name, field.arguments, context⟩).toList

theorem Handlers.find?_recording (handlers : Handlers σ) (type field : String) :
    handlers.recording.find? type field =
      (handlers.find? type field).map (Handler.recording (key type field)) := by
  unfold find? recording
  induction handlers with
  | nil => rfl
  | cons entry rest ih =>
    obtain ⟨entryKey, handler⟩ := entry
    rw [List.map_cons, Ordered.get?, Ordered.get?]
    split
    · rename_i same
      rw [Option.map_some, same]
    · exact ih

namespace Handlers

variable (handlers : Handlers σ) (root : String) (context : Context) (payload : Option Json)
  {field : FieldSelection} (rest : List FieldSelection)

theorem callsFor_nil : handlers.callsFor root context payload [] = [] := by
  rw [callsFor, List.filter_nil, List.drop_nil, List.flatMap_nil]

theorem callsFor_typename (named : field.name = "__typename") :
    handlers.callsFor root context payload (field :: rest) =
      handlers.callsFor root context payload rest := by
  rw [callsFor, List.filter_cons_of_neg (by simp [named]), callsFor]

/-- The first field takes the payload, so there is none for those after it. -/
theorem callsFor_cons (named : field.name ≠ "__typename") :
    handlers.callsFor root context payload (field :: rest) =
      handlers.callsFor root context payload [field] ++
        handlers.callsFor root context none rest := by
  have kept : ∀ fields : List FieldSelection,
      (field :: fields).filter (fun field => field.name ≠ "__typename") =
        field :: fields.filter fun field => field.name ≠ "__typename" :=
    fun fields => List.filter_cons_of_pos (by simpa using named)
  rw [callsFor, callsFor, callsFor, kept, kept]
  cases payload with
  | none =>
    simp only [Option.isSome_none, Bool.false_eq_true, if_false, List.drop_zero, List.filter_nil,
      List.flatMap_cons, List.flatMap_nil, List.append_nil]
  | some value => rfl

end Handlers

namespace Run

/-- The failure of a root field leaves no data: there is no value for it, and it may not be null. -/
def Fatal (run : Run) (engine : Engine σ) (field : FieldSelection) (world : World σ) : Prop :=
  field.name ≠ "__typename" ∧
    ∃ definition source met, run.schema.field run.root field.name = .ok definition ∧
      run.source engine.handlers field world = (source, met) ∧
      (run.complete engine.mocks field definition source met.random).value = none

/-- The root fields that a run comes to, those that it does not, and its response. It goes on up to
the first field whose failure leaves no data. -/
inductive Reaches (engine : Engine σ) :
    Run → World σ → List FieldSelection → List FieldSelection → Response → Prop
  | done {run world} : Reaches engine run world [] [] run.response
  | passed {run world field next after reached rest response} : ¬ run.Fatal engine field world →
      run.step engine field world = (.running next, after) →
      Reaches engine next after reached rest response →
      Reaches engine run world (field :: reached) rest response
  | fatal {run world field rest errors after} : run.Fatal engine field world →
      run.step engine field world = (.finished (.executed .null errors), after) →
      Reaches engine run world [field] rest (.executed .null errors)

/-- A source is the same with handlers that record, and a handler that is called is recorded. -/
theorem source_recording (run : Run) (handlers : Handlers σ) {field : FieldSelection}
    (world : World σ) (calls : List RecordedCall) (named : field.name ≠ "__typename") :
    run.source handlers.recording field (world.recorded calls) =
      ((run.source handlers field world).1,
        (run.source handlers field world).2.recorded
          (calls ++ handlers.callsFor run.root run.context run.payload [field])) := by
  have kept : [field].filter (fun field => field.name ≠ "__typename") = [field] :=
    List.filter_cons_of_pos (by simpa using named)
  rw [Handlers.callsFor, kept]
  unfold source
  rw [handlers.find?_recording]
  cases run.payload with
  | some payload =>
    show _ = (_, world.recorded (calls ++ []))
    rw [List.append_nil]
  | none =>
    rw [Option.isSome_none, if_neg Bool.false_ne_true, List.drop_zero, List.flatMap_singleton]
    cases handlers.find? run.root field.name with
    | none =>
      show _ = (_, world.recorded (calls ++ []))
      rw [List.append_nil]
      rfl
    | some handler => rfl

/-- A step is the same with handlers that record, and what it calls is recorded. -/
theorem step_recording (run : Run) (engine : Engine σ) {field : FieldSelection} (world : World σ)
    (calls : List RecordedCall)
    (known : field.name = "__typename" ∨
      ∃ definition, run.schema.field run.root field.name = .ok definition) :
    run.step engine.recording field (world.recorded calls) =
      ((run.step engine field world).1,
        (run.step engine field world).2.recorded
          (calls ++ engine.handlers.callsFor run.root run.context run.payload [field])) := by
  unfold step
  by_cases named : field.name = "__typename"
  · rw [if_pos named, if_pos named, Handlers.callsFor_typename _ _ _ _ _ named,
      Handlers.callsFor_nil, List.append_nil]
  · obtain ⟨definition, declared⟩ := known.resolve_left named
    rw [if_neg named, if_neg named, declared]
    dsimp only
    have sourced := run.source_recording engine.handlers world calls named
    rw [show engine.recording.handlers = engine.handlers.recording from rfl, sourced]
    rcases run.source engine.handlers field world with ⟨source, met⟩
    have same : ∀ calls,
        run.complete engine.recording.mocks field definition source (met.recorded calls).random =
          run.complete engine.mocks field definition source met.random := fun _ => rfl
    rw [same]
    rcases run.complete engine.mocks field definition source met.random with
      ⟨value, failures, random⟩
    cases value with
    | some value => rfl
    | none => rfl

/-- A run that goes on has lost nothing, and only the name of the type leaves the payload for the
next field. -/
theorem of_step_running {run next : Run} {engine : Engine σ} {field : FieldSelection}
    {world after : World σ} (stepped : run.step engine field world = (.running next, after))
    (known : field.name = "__typename" ∨
      ∃ definition, run.schema.field run.root field.name = .ok definition) :
    ¬ run.Fatal engine field world ∧
      (field.name = "__typename" ∧ next.payload = run.payload ∨
        field.name ≠ "__typename" ∧ next.payload = none) := by
  rcases run.step_cases engine field world with ⟨isTypename, typename⟩ | ⟨named,
    ⟨error, undeclared, -⟩ | ⟨definition, source, met, done, declared, sourced, completed,
      ⟨value, reached, passes⟩ | ⟨-, ended⟩⟩⟩
  · cases stepped.symm.trans typename
    exact ⟨fun fatal => fatal.1 isTypename, Or.inl ⟨isTypename, rfl⟩⟩
  · obtain ⟨definition, declared⟩ := known.resolve_left named
    cases undeclared.symm.trans declared
  · cases stepped.symm.trans passes
    refine ⟨?_, Or.inr ⟨named, rfl⟩⟩
    rintro ⟨-, _, _, _, declaredAgain, sourcedAgain, lost⟩
    cases declared.symm.trans declaredAgain
    cases sourced.symm.trans sourcedAgain
    rw [completed, reached] at lost
    cases lost
  · cases stepped.symm.trans ended

/-- A run that ends with a field has lost its value, and all data with it. -/
theorem of_step_finished {run : Run} {engine : Engine σ} {field : FieldSelection}
    {world after : World σ} {response : Response}
    (stepped : run.step engine field world = (.finished response, after)) :
    run.Fatal engine field world ∧ ∃ errors, response = .executed .null errors := by
  rcases run.step_cases engine field world with ⟨-, typename⟩ | ⟨named, ⟨error, -, skipped⟩ |
    ⟨definition, source, met, done, declared, sourced, completed,
      ⟨value, -, passes⟩ | ⟨lost, ended⟩⟩⟩
  · cases stepped.symm.trans typename
  · cases stepped.symm.trans skipped
  · cases stepped.symm.trans passes
  · cases stepped.symm.trans ended
    exact ⟨⟨named, definition, source, met, declared, sourced, by rw [completed]; exact lost⟩, _,
      rfl⟩

/-- A run is the same with handlers that record. Recorded are the calls for the fields that it comes
to. -/
theorem finish_recording (engine : Engine σ) (selection : List FieldSelection) (run : Run)
    (world : World σ) (calls : List RecordedCall)
    (known : ∀ field ∈ selection, field.name = "__typename" ∨
      ∃ definition, run.schema.field run.root field.name = .ok definition) :
    ∃ reached rest, selection = reached ++ rest ∧
      run.Reaches engine world reached rest (run.finish engine selection world).1 ∧
      run.finish engine.recording selection (world.recorded calls) =
        ((run.finish engine selection world).1,
          (run.finish engine selection world).2.recorded
            (calls ++ engine.handlers.callsFor run.root run.context run.payload reached)) := by
  induction selection generalizing run world calls with
  | nil =>
    refine ⟨[], [], rfl, .done, ?_⟩
    rw [Handlers.callsFor_nil, List.append_nil]
    rfl
  | cons field rest ih =>
    have first := known field List.mem_cons_self
    rw [finish, finish, run.step_recording engine world calls first]
    rcases stepped : run.step engine field world with ⟨progress, after⟩
    cases progress with
    | finished response =>
      obtain ⟨fatal, errors, rfl⟩ := of_step_finished stepped
      exact ⟨[field], rest, rfl, .fatal fatal stepped, rfl⟩
    | running next =>
      obtain ⟨passed, payload⟩ := of_step_running stepped first
      obtain ⟨schema, root, -, context⟩ := step_keeps (congrArg Prod.fst stepped)
      obtain ⟨reached, others, split, reaches, recorded⟩ :=
        ih next after (calls ++ engine.handlers.callsFor run.root run.context run.payload [field])
          (fun other member =>
            by rw [schema, root]; exact known other (List.mem_cons_of_mem _ member))
      refine ⟨field :: reached, others, by rw [split, List.cons_append],
        .passed passed stepped reaches, ?_⟩
      -- `__typename` leaves the payload to the fields after it, every other field takes it
      have together : engine.handlers.callsFor run.root run.context run.payload (field :: reached) =
          engine.handlers.callsFor run.root run.context run.payload [field] ++
            engine.handlers.callsFor run.root run.context next.payload reached := by
        rcases payload with ⟨named, kept⟩ | ⟨named, taken⟩
        · rw [Handlers.callsFor_typename _ _ _ _ _ named,
            Handlers.callsFor_typename _ _ _ _ _ named, Handlers.callsFor_nil, List.nil_append,
            kept]
        · rw [Handlers.callsFor_cons _ _ _ _ _ named, taken]
      rw [root, context] at recorded
      rw [together, ← List.append_assoc]
      exact recorded

end Run

namespace Engine

/-- The calls that the handlers write down while an operation runs. -/
def record (engine : Engine σ) (operation : Operation) (payload : Option Json) (world : World σ) :
    List RecordedCall :=
  (engine.recording.run operation payload (world.recorded [])).2.state.2

/-- An operation does not begin to run if there is no root type, it does not fit, or the rule of the
root type fails. -/
theorem ended_of_unseeded {engine : Engine σ} {operation : Operation} {payload : Option Json}
    (unseeded : ∀ (root : String) (seed : Option (Ordered String Json)),
      engine.schema.root? operation.kind = some root →
        engine.schema.selectionErrors root operation.selection = [] →
        engine.mocks.objectSeed? .root root ≠ seed.map .ok) :
    ∀ run, engine.start operation payload ≠ .ok (.running run) := by
  intro run started
  obtain ⟨root, known, valid, ⟨error, -, impossible⟩ | ⟨seed, seeded, -⟩⟩ := start_cases started
  · cases impossible
  · exact unseeded root seed known valid seeded

/-- An operation that does not begin to run calls no handler. -/
theorem record_of_ended {engine : Engine σ} {operation : Operation} {payload : Option Json}
    (ended : ∀ run, engine.start operation payload ≠ .ok (.running run)) (world : World σ) :
    engine.recording.run operation payload (world.recorded []) =
        ((engine.run operation payload world).1,
          (engine.run operation payload world).2.recorded []) ∧
      engine.record operation payload world = [] := by
  have same : engine.recording.start operation payload = engine.start operation payload := rfl
  rw [record, run, run, same]
  cases started : engine.start operation payload with
  | error rejection => exact ⟨rfl, rfl⟩
  | ok progress =>
    cases progress with
    | finished response => exact ⟨rfl, rfl⟩
    | running run => exact absurd started (ended run)

/-- An operation that begins to run calls the handlers for the root fields that the run comes to. -/
theorem record_of_running {engine : Engine σ} {operation : Operation} {payload : Option Json}
    {root : String} {seed : Option (Ordered String Json)}
    (valid : engine.schema.selectionErrors root operation.selection = [])
    (started : engine.start operation payload =
      .ok (.running ⟨engine.schema, root, seed, operation.context, payload, [], []⟩))
    (world : World σ) :
    ∃ reached rest response, operation.selection = reached ++ rest ∧
      (engine.run operation payload world).1 = .ok response ∧
      Run.Reaches engine ⟨engine.schema, root, seed, operation.context, payload, [], []⟩ world
        reached rest response ∧
      engine.record operation payload world =
        engine.handlers.callsFor root operation.context payload reached ∧
      engine.recording.run operation payload (world.recorded []) =
        ((engine.run operation payload world).1,
          (engine.run operation payload world).2.recorded
            (engine.record operation payload world)) := by
  have known : ∀ field ∈ operation.selection, field.name = "__typename" ∨
      ∃ definition, engine.schema.field root field.name = .ok definition := by
    intro field member
    by_cases named : field.name = "__typename"
    · exact Or.inl named
    · exact Or.inr (TypeSystem.field_of_valid (TypeSystem.fieldErrors_of_mem valid member) named)
  obtain ⟨reached, rest, split, reaches, recorded⟩ :=
    Run.finish_recording engine operation.selection
      ⟨engine.schema, root, seed, operation.context, payload, [], []⟩ world [] known
  have startedRecording : engine.recording.start operation payload = _ := started
  rw [List.nil_append] at recorded
  rw [record, run_of_started started, run_of_started startedRecording, recorded]
  exact ⟨reached, rest, _, split, rfl, reaches, rfl, rfl⟩

/-- An operation runs as before with handlers that record. None is called for an operation that is
rejected, or that the rule of the root type ends. Otherwise the handlers are called for the root
fields, each with its own arguments, up to the first field whose failure leaves no data. The field
that takes the payload calls none. Every call gets the kind, the name and the variables of the
operation. -/
theorem run_records (engine : Engine σ) (operation : Operation) (payload : Option Json)
    (world : World σ) :
    engine.recording.run operation payload (world.recorded []) =
        ((engine.run operation payload world).1,
          (engine.run operation payload world).2.recorded (engine.record operation payload world)) ∧
      (engine.schema.root? operation.kind = none → engine.record operation payload world = []) ∧
      ∀ root, engine.schema.root? operation.kind = some root →
        (engine.schema.selectionErrors root operation.selection ≠ [] →
            engine.record operation payload world = []) ∧
          (∀ error, engine.mocks.objectSeed? .root root = some (.error error) →
            engine.record operation payload world = []) ∧
          ∀ seed, engine.schema.selectionErrors root operation.selection = [] →
            engine.mocks.objectSeed? .root root = seed.map .ok →
            ∃ reached rest response, operation.selection = reached ++ rest ∧
              (engine.run operation payload world).1 = .ok response ∧
              Run.Reaches engine ⟨engine.schema, root, seed,
                ⟨operation.kind, operation.name, operation.bindings⟩, payload, [], []⟩ world reached
                rest response ∧
              engine.record operation payload world =
                engine.handlers.callsFor root ⟨operation.kind, operation.name, operation.bindings⟩
                  payload reached := by
  refine ⟨?_, fun rootless => (record_of_ended (ended_of_unseeded ?_) world).2,
    fun root known =>
      ⟨fun invalid => (record_of_ended (ended_of_unseeded ?_) world).2,
        fun error failing => (record_of_ended (ended_of_unseeded ?_) world).2,
        fun seed valid seeded => ?_⟩⟩
  · by_cases begins : ∃ run, engine.start operation payload = .ok (.running run)
    · obtain ⟨run, started⟩ := begins
      obtain ⟨root, -, valid, ⟨error, -, impossible⟩ | ⟨seed, -, same⟩⟩ := start_cases started
      · cases impossible
      · rw [same] at started
        obtain ⟨-, -, -, -, -, -, -, recorded⟩ := record_of_running valid started world
        exact recorded
    · obtain ⟨recorded, none⟩ := record_of_ended (not_exists.mp begins) world
      rw [none]
      exact recorded
  · intro root seed known
    cases rootless.symm.trans known
  · intro other seed knownToo valid
    cases known.symm.trans knownToo
    exact absurd valid invalid
  · intro other seed knownToo _ seeded
    cases known.symm.trans knownToo
    rw [failing] at seeded
    cases seed <;> cases seeded
  · obtain ⟨reached, rest, response, split, answered, reaches, record, -⟩ :=
      record_of_running valid (start_of_seeded known valid seeded payload) world
    exact ⟨reached, rest, response, split, answered, reaches, record⟩

end Engine

namespace Tow

/-- A lift is opened, closed and counted. It has to be possible to close it. -/
def schema : TypeSystem where
  query := "Query"
  mutation := some "Mutation"
  subscription := none
  types :=
    [("Query", .object "Query" none [("lifts", ⟨"lifts", none, .named "Int", []⟩)]),
      ("Mutation", .object "Mutation" none
        [("open", ⟨"open", none, .named "Int", [("lift", ⟨"lift", none, .named "Int", none⟩)]⟩),
          ("close", ⟨"close", none, .nonNull (.named "Boolean"), []⟩),
          ("count", ⟨"count", none, .named "Int", []⟩)]), ("Int", .scalar "Int" none),
      ("Boolean", .scalar "Boolean" none)]
  directives := Introspection.directives

/-- A handler of a field, and what it does. -/
def script (type field : String) (does : String × Json) : Script :=
  ⟨.object [("type", .string type), ("field", .string field), does]⟩

def handlers : Handlers Script.Calls :=
  Script.handlers [script "Mutation" "open" ("echo", .string "lift"),
    script "Mutation" "close" ("fail", .string "stuck"),
    script "Mutation" "count" ("count", .bool true),
    script "Query" "__typename" ("value", .string "Lifts")]

def engine (rules : MockRules) : Engine Script.Calls := ⟨schema, ⟨rules, .standard⟩, handlers⟩

def world : World Script.Calls := ⟨.ofSeed 0, [], .new⟩

def mutation : Operation :=
  ⟨.mutation, some "day", [⟨"open", none, [("lift", .ofNat 2)], []⟩, ⟨"__typename", none, [], []⟩,
    ⟨"close", none, [], []⟩, ⟨"count", none, [], []⟩], [("lift", .ofNat 2)]⟩

def day : Context := ⟨.mutation, some "day", [("lift", .ofNat 2)]⟩

def stuck : MockRules :=
  MockRules.standard.withType "Mutation" (.value fun _ => .error (.custom "stuck"))

/-- The lift is opened and not closed, so it is not counted either. -/
theorem run_records_mutation :
    (engine .standard).schema.root? .subscription = none ∧
      (engine .standard).record { mutation with kind := .subscription } none world = [] ∧
      (engine .standard).schema.selectionErrors "Query" mutation.selection ≠ [] ∧
      (engine .standard).record { mutation with kind := .query } none world = [] ∧
      (engine stuck).mocks.objectSeed? .root "Mutation" = some (.error (.custom "stuck")) ∧
      (engine stuck).record mutation none world = [] ∧
      (engine .standard).schema.selectionErrors "Mutation" mutation.selection = [] ∧
      (engine .standard).mocks.objectSeed? .root "Mutation" =
        (none : Option (Ordered String Json)).map .ok ∧
      (∃ reached rest response, mutation.selection = reached ++ rest ∧
        ((engine .standard).run mutation none world).1 = .ok response ∧
        Run.Reaches (engine .standard) ⟨schema, "Mutation", none, day, none, [], []⟩ world reached
          rest response ∧
        (engine .standard).record mutation none world =
          handlers.callsFor "Mutation" day none reached) ∧
      (engine .standard).record mutation none world =
        [⟨"Mutation.open", [("lift", .ofNat 2)], day⟩, ⟨"Mutation.close", [], day⟩] := by
  have unknown : (engine .standard).schema.selectionErrors "Query" mutation.selection ≠ [] := nofun
  exact ⟨rfl,
    ((engine .standard).run_records { mutation with kind := .subscription } none world).2.1 rfl,
    unknown,
    (((engine .standard).run_records { mutation with kind := .query } none world).2.2 "Query" rfl).1
      unknown, rfl, (((engine stuck).run_records mutation none world).2.2 "Mutation" rfl).2.1 _ rfl,
    rfl, rfl,
    (((engine .standard).run_records mutation none world).2.2 "Mutation" rfl).2.2 none rfl rfl, rfl⟩

/-- A handler for the name of the root type is never called. -/
theorem typename_unrecorded :
    (handlers.find? "Query" "__typename").isSome = true ∧
      (engine .standard).schema.root? .query = some "Query" ∧
      (engine .standard).schema.selectionErrors "Query" [⟨"__typename", none, [], []⟩] = [] ∧
      ((engine .standard).run ⟨.query, none, [⟨"__typename", none, [], []⟩], []⟩ none world).1 =
        .ok (.executed (.object [("__typename", .string "Query")]) []) ∧
      (engine .standard).record ⟨.query, none, [⟨"__typename", none, [], []⟩], []⟩ none
        world = [] :=
  ⟨rfl, rfl, rfl, rfl, rfl⟩

end Tow

end MockGraph
