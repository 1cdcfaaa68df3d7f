import MockGraph.Proofs.Execution.Generation
import MockGraph.Proofs.Execution.Internal
import MockGraph.Proofs.Server.Events
import MockGraph.Wire.Message
set_option autoImplicit false

namespace MockGraph

variable {σ : Type}

/-- The completion of a reply to a field of a root type. -/
def Exchange.completion (exchange : Exchange σ) (schema : TypeSystem) (mocks : Mocks)
    (root : String) (definition : FieldDef) : Completion Json :=
  let field := exchange.call.field
  match exchange.reply.result with
  | .ok value => Completion.field schema mocks root field.name definition.type
      (Completion.fields schema mocks field.selection []) (some value) [.field field.responseKey]
  | .error error =>
    Completion.absorb definition.type (Completion.fail error [.field field.responseKey])

/-- A response tells of the completion under a key: it has the errors of the completion and no
others there, and without a value it has no data. -/
structure Response.TellsOf (response : Response) (key : String) (done : Completed Json) : Prop where
  reports : ∀ failure ∈ done.failures, failure.fieldError ∈ response.errors.getD []
  only : ∀ error ∈ response.errors.getD [], ∀ path, error.path = some path → [.field key] <+: path →
    ∃ failure ∈ done.failures, failure.fieldError = error
  lost : done.value = none → response.data = some .null

namespace HandlerCall

theorem exchanges_append (context : Context) (calls others : List (HandlerCall σ)) (met : σ) :
    exchanges context (calls ++ others) met =
      exchanges context calls met ++
        exchanges context others (Exchange.leave met (exchanges context calls met)) := by
  induction calls generalizing met with
  | nil => rfl
  | cons call rest ih =>
    rw [List.cons_append, exchanges, exchanges, ih]
    rfl

/-- What each reply keeps of the state is kept by all of them. -/
theorem leave_keeps {kept : σ → Prop} {context : Context} {calls : List (HandlerCall σ)} {met : σ}
    (keeps : ∀ exchange ∈ exchanges context calls met, kept exchange.met →
      kept exchange.reply.state) (now : kept met) :
    kept (Exchange.leave met (exchanges context calls met)) := by
  induction calls generalizing met with
  | nil => exact now
  | cons call rest ih =>
    have next := keeps _ List.mem_cons_self now
    exact ih (fun exchange member => keeps exchange (List.mem_cons_of_mem _ member)) next

end HandlerCall

namespace Run

variable {engine : Engine σ}

theorem prefix_of_metBy {field : FieldSelection} {run : Run} {world : World σ} {failure : Failure}
    (met : failure ∈ run.metBy engine field world) :
    [.field field.responseKey] <+: failure.path := by
  -- What is completed at the path of the key could as well be completed at no path.
  have completed : ∀ {supplied : Option Json} {definition : FieldDef} {random : Random},
      failure ∈
          (Completion.field run.schema engine.mocks run.root field.name definition.type
            (Completion.fields run.schema engine.mocks field.selection []) supplied
            [.field field.responseKey] random).failures →
        [.field field.responseKey] <+: failure.path := by
    intro supplied definition random failed
    have portable :
        Completion.Portable engine.mocks
          (Completion.field run.schema engine.mocks run.root field.name definition.type
            (Completion.fields run.schema engine.mocks field.selection []) supplied) :=
      Completion.portable_field (Completion.portable_fields field.selection []) _ _ _ _
    have moved := portable.below [.field field.responseKey] [] random
    rw [List.append_nil] at moved
    rw [moved] at failed
    obtain ⟨inner, -, rfl⟩ := List.mem_map.mp failed
    exact List.prefix_append _ _
  unfold metBy at met
  split at met
  · cases met
  · split at met
    · cases met
    · rename_i definition _
      rcases sourced : run.source engine.handlers field world with ⟨source, after⟩
      simp only [sourced] at met
      match source with
      | none => exact completed met
      | some (.ok value) => exact completed met
      | some (.error error) =>
        change failure ∈ (Completion.absorb definition.type _ after.random).failures at met
        rw [Completion.failures_absorb] at met
        obtain rfl := List.mem_singleton.mp met
        exact List.prefix_rfl

theorem prefix_of_met (selection : List FieldSelection) {failure : Failure} :
    ∀ (run : Run) (world : World σ), failure ∈ run.met engine selection world →
      ∃ field ∈ selection, [.field field.responseKey] <+: failure.path := by
  induction selection with
  | nil => exact fun _ _ met => by cases met
  | cons field rest ih =>
    intro run world met
    rw [Run.met] at met
    rcases List.mem_append.mp met with now | later
    · exact ⟨field, List.mem_cons_self, prefix_of_metBy now⟩
    · rcases stepped : run.step engine field world with ⟨progress, after⟩
      rw [stepped] at later
      cases progress with
      | running next =>
        obtain ⟨other, inside, below⟩ := ih next after later
        exact ⟨other, List.mem_cons_of_mem _ inside, below⟩
      | finished response => cases later

theorem key_of_prefix {key other : String} {path : List PathSegment} (here : [.field key] <+: path)
    (there : [.field other] <+: path) : key = other := by
  obtain ⟨_, rfl⟩ := here
  obtain ⟨_, same⟩ := there
  injection same with same
  injection same with same
  exact same.symm

/-- A field that calls a handler is completed from its reply. -/
theorem source_of_call? {run : Run} {field : FieldSelection} {call : HandlerCall σ}
    (world : World σ) (called : run.call? engine.handlers field = some call) :
    ∃ met : World σ, run.source engine.handlers field world =
      (some (call.handler.answer field.arguments run.context world.state).result, met) := by
  obtain ⟨-, -, -, found⟩ := call?_eq_some called
  have unpaid : run.payload = none := by
    unfold call? handler? at called
    cases paid : run.payload with
    | none => rfl
    | some payload => simp [paid] at called
  unfold source
  rw [unpaid]
  dsimp only
  rw [found]
  exact ⟨_, rfl⟩

/-- The reply to the next field is completed, and the response tells of it. -/
theorem tellsOf_next {field : FieldSelection} {rest : List FieldSelection} {run : Run}
    {world : World σ} {call : HandlerCall σ}
    (distinct : ((field :: rest).map FieldSelection.responseKey).Nodup)
    (apart : ∀ failure ∈ run.failures, ¬ [.field field.responseKey] <+: failure.path)
    (called : run.call? engine.handlers field = some call) :
    let exchange : Exchange σ :=
      ⟨call, world.state, call.handler.answer call.field.arguments run.context world.state⟩
    ∃ definition random, run.schema.field run.root exchange.call.field.name = .ok definition ∧
      (finish engine (field :: rest) run world).1.TellsOf exchange.call.field.responseKey
        (exchange.completion run.schema engine.mocks run.root definition random) := by
  intro exchange
  obtain ⟨same, named, ⟨definition, declared⟩, -⟩ := call?_eq_some called
  obtain ⟨met, sourced⟩ := source_of_call? world called
  rw [← same] at sourced
  have completed : run.complete engine.mocks call.field definition (some exchange.reply.result) =
      exchange.completion run.schema engine.mocks run.root definition := by
    unfold complete Exchange.completion
    cases exchange.reply.result <;> rfl
  subst same
  refine ⟨definition, met.random, declared, ?_, ?_, ?_⟩
  · intro failure failed
    rw [← completed] at failed
    exact fieldError_of_complete rest named declared sourced failed
  · intro error reported path located below
    rw [errors_finish] at reported
    obtain ⟨failure, happened, rfl⟩ := List.mem_map.mp reported
    obtain rfl := Option.some.inj located
    refine ⟨failure, ?_, rfl⟩
    rcases List.mem_append.mp happened with before | after
    · exact absurd below (apart failure before)
    · rw [Run.met] at after
      rcases List.mem_append.mp after with now | later
      · unfold metBy at now
        simp only [named, if_false, declared, sourced] at now
        rw [← completed]
        exact now
      · rcases stepped : run.step engine call.field world with ⟨progress, after⟩
        rw [stepped] at later
        cases progress with
        | running next =>
          obtain ⟨other, inside, there⟩ := prefix_of_met rest next after later
          rw [List.map_cons, List.nodup_cons, key_of_prefix below there] at distinct
          exact absurd (List.mem_map_of_mem inside) distinct.1
        | finished response => cases later
  · intro lost
    rw [← completed] at lost
    unfold finish
    rcases run.step_cases engine call.field world with
      ⟨isTypename, -⟩ | ⟨-, ⟨_, missing, -⟩ | ⟨_, _, _, done, known, taken, ends,
        ⟨value, reached, -⟩ | ⟨-, stepped⟩⟩⟩
    · exact absurd isTypename named
    · cases declared.symm.trans missing
    · cases declared.symm.trans known
      cases sourced.symm.trans taken
      rw [← ends, lost] at reached
      cases reached
    · rw [stepped]
      rfl

/-- A response tells of all replies. The induction is on the fields that are left: the errors of
those before are not at their keys. -/
theorem tellsOf_exchanges (selection : List FieldSelection) : ∀ (run : Run) (world : World σ),
    (selection.map FieldSelection.responseKey).Nodup →
    (∀ failure ∈ run.failures, ∀ field ∈ selection, ¬ [.field field.responseKey] <+: failure.path) →
    ∀ exchange ∈ HandlerCall.exchanges run.context (run.calls engine selection world) world.state,
      ∃ definition random, run.schema.field run.root exchange.call.field.name = .ok definition ∧
        (finish engine selection run world).1.TellsOf exchange.call.field.responseKey
          (exchange.completion run.schema engine.mocks run.root definition random) := by
  induction selection with
  | nil => exact fun _ _ _ _ _ member => by cases member
  | cons field rest ih =>
    intro run world distinct apart exchange member
    rw [calls, HandlerCall.exchanges_append] at member
    rcases List.mem_append.mp member with now | later
    · cases called : run.call? engine.handlers field with
      | none =>
        rw [called] at now
        cases now
      | some call =>
        rw [called] at now
        obtain rfl := List.mem_singleton.mp now
        exact tellsOf_next distinct
          (fun failure failed => apart failure failed field List.mem_cons_self) called
    · have performed := run.step_performs engine field world
      have failures := run.step_met engine field world
      rcases stepped : run.step engine field world with ⟨progress, after⟩
      rw [stepped] at later performed failures
      rw [World.handled, World.handled, HandlerCall.foldl_perform] at performed
      have left : after.state =
          Exchange.leave world.state
            (HandlerCall.exchanges run.context (run.call? engine.handlers field).toList
              world.state) := congrArg Prod.fst performed
      rw [← left] at later
      cases progress with
      | finished response => cases later
      | running next =>
        obtain ⟨schema, root, -, context⟩ := step_keeps (congrArg Prod.fst stepped)
        rw [← context] at later
        rcases failures with ⟨_, ⟨⟩, failures⟩ | ⟨_, ⟨⟩, -⟩
        have told := ih next after (List.nodup_cons.mp distinct).2 ?_ exchange later
        · rw [schema, root] at told
          unfold finish
          rw [stepped]
          exact told
        · intro failure failed other inside below
          rw [failures] at failed
          rcases List.mem_append.mp failed with before | now
          · exact apart failure before other (List.mem_cons_of_mem _ inside) below
          · rw [List.map_cons, List.nodup_cons,
              key_of_prefix (prefix_of_metBy now) below] at distinct
            exact distinct.1 (List.mem_map_of_mem inside)

end Run

namespace Engine

variable {engine : Engine σ} {operation : Operation} {world after : World σ} {response : Response}

/-- What an operation and its handlers tell each other. -/
def exchanges (engine : Engine σ) (operation : Operation) (world : World σ) : List (Exchange σ) :=
  HandlerCall.exchanges operation.context (engine.calls operation world) world.state

/-- The state after an operation is the one that its last reply leaves, and what its replies publish
is queued. -/
theorem handled_execute (engine : Engine σ) (operation : Operation) (world : World σ) :
    (engine.execute operation world).2.handled =
      (Exchange.leave world.state (engine.exchanges operation world),
        world.channel.publishAll (Exchange.published (engine.exchanges operation world))) :=
  (engine.execute_performs operation world).1.trans (HandlerCall.foldl_perform _ _ _ _)

/-- A reply is that of the handler for a field of the root type that was selected. -/
theorem exchange_cases {exchange : Exchange σ}
    (member : exchange ∈ engine.exchanges operation world) :
    ∃ root, engine.schema.root? operation.kind = some root ∧
      engine.schema.selectionErrors root operation.selection = [] ∧
      exchange.call.field ∈ operation.selection ∧ exchange.call.field.name ≠ "__typename" ∧
      engine.handlers.find? root exchange.call.field.name = some exchange.call.handler ∧
      exchange.reply =
        exchange.call.handler.answer exchange.call.field.arguments operation.context
          exchange.met := by
  obtain ⟨called, replied⟩ := HandlerCall.mem_exchanges member
  unfold calls at called
  split at called
  · rename_i run started
    obtain ⟨root, known, valid, ⟨error, -, impossible⟩ | ⟨seed, -, same⟩⟩ := start_cases started
    · cases impossible
    · cases same
      obtain ⟨inside, named, -, found⟩ := Run.mem_calls called
      exact ⟨root, known, valid, inside, named, found, replied⟩
  · cases called

theorem tellsOf_execute (executed : engine.execute operation world = (.ok response, after))
    (distinct : (operation.selection.map FieldSelection.responseKey).Nodup) {exchange : Exchange σ}
    (member : exchange ∈ engine.exchanges operation world) {root : String}
    (known : engine.schema.root? operation.kind = some root) :
    ∃ definition random, engine.schema.field root exchange.call.field.name = .ok definition ∧
      response.TellsOf exchange.call.field.responseKey
        (exchange.completion engine.schema engine.mocks root definition random) := by
  unfold execute Engine.run at executed
  unfold exchanges calls at member
  cases started : engine.start operation none with
  | error rejection =>
    rw [started] at member
    cases member
  | ok progress =>
    cases progress with
    | finished _ =>
      rw [started] at member
      cases member
    | running run =>
      rw [started] at member executed
      obtain ⟨_, there, -, ⟨error, -, impossible⟩ | ⟨seed, -, same⟩⟩ := start_cases started
      · cases impossible
      cases same
      cases known.symm.trans there
      obtain rfl := Except.ok.inj (congrArg Prod.fst executed)
      exact Run.tellsOf_exchanges operation.selection
        ⟨engine.schema, root, seed, operation.context, none, [], []⟩ world distinct
        (List.forall_mem_nil _) exchange member

/-- The handler of the first field that is selected is called at once, if no rule of the root type
fails. -/
theorem exchange_of_first {root : String} {field : FieldSelection} {rest : List FieldSelection}
    {handler : Handler σ} (known : engine.schema.root? operation.kind = some root)
    (valid : engine.schema.selectionErrors root operation.selection = [])
    (seeded : ∀ error, engine.mocks.objectSeed? .root root ≠ some (.error error))
    (selects : operation.selection = field :: rest) (named : field.name ≠ "__typename")
    (found : engine.handlers.find? root field.name = some handler) :
    ⟨⟨field, handler⟩, world.state, handler.answer field.arguments operation.context world.state⟩ ∈
      engine.exchanges operation world := by
  have first : ∀ seed, (⟨engine.schema, root, seed, operation.context, none, [], []⟩ : Run).call?
      engine.handlers field = some ⟨field, handler⟩ := by
    intro seed
    rw [selects] at valid
    obtain ⟨definition, declared⟩ :=
      TypeSystem.field_of_valid (TypeSystem.fieldErrors_of_mem valid List.mem_cons_self) named
    simp [Run.call?, Run.handler?, named, declared, found]
  unfold exchanges calls start
  simp only [known, valid]
  cases given : engine.mocks.objectSeed? .root root with
  | none =>
    simp only [selects, Run.calls, first]
    exact List.mem_cons_self
  | some seed =>
    cases seed with
    | error error => exact absurd given (seeded error)
    | ok members =>
      simp only [selects, Run.calls, first]
      exact List.mem_cons_self

end Engine

/-- An operation that was executed for a request, and the world that it met. -/
structure Execution (σ : Type) where
  request : Request
  operation : Operation
  world : World σ

namespace Engine

/-- Executes the operations of requests one after the other. A request that is not accepted does
nothing. -/
def serve (engine : Engine σ) : List Request → World σ → List (Execution σ) × World σ
  | [], world => ([], world)
  | request :: rest, world =>
    match engine.schema.parseOperation request.query request.operationName request.bindings with
    | .error _ => engine.serve rest world
    | .ok operation =>
      let (later, last) := engine.serve rest (engine.execute operation world).2
      (⟨request, operation, world⟩ :: later, last)

/-- What handlers and operations tell each other while requests are served. -/
def told (engine : Engine σ) (executions : List (Execution σ)) : List (Exchange σ) :=
  executions.flatMap fun execution => engine.exchanges execution.operation execution.world

theorem parsed_of_mem_serve {engine : Engine σ} (requests : List Request)
    {execution : Execution σ} :
    ∀ world : World σ, execution ∈ (engine.serve requests world).1 →
      execution.request ∈ requests ∧
        engine.schema.parseOperation execution.request.query execution.request.operationName
            execution.request.bindings = .ok execution.operation := by
  induction requests with
  | nil => exact fun _ member => by cases member
  | cons request rest ih =>
    intro world member
    rw [serve] at member
    split at member
    · obtain ⟨inside, parsed⟩ := ih world member
      exact ⟨List.mem_cons_of_mem _ inside, parsed⟩
    · rename_i operation parsed
      rcases List.mem_cons.mp member with rfl | later
      · exact ⟨List.mem_cons_self, parsed⟩
      · obtain ⟨inside, parsed⟩ := ih _ later
        exact ⟨List.mem_cons_of_mem _ inside, parsed⟩

/-- The state after requests is the one that the last reply leaves, and what was published is
queued. -/
theorem handled_serve (engine : Engine σ) (requests : List Request) :
    ∀ world : World σ, (engine.serve requests world).2.handled =
      (Exchange.leave world.state (engine.told (engine.serve requests world).1),
        world.channel.publishAll
          (Exchange.published (engine.told (engine.serve requests world).1))) := by
  induction requests with
  | nil => exact fun _ => rfl
  | cons request rest ih =>
    intro world
    rw [serve]
    split
    · exact ih world
    · rename_i operation _
      have now := engine.handled_execute operation world
      have later := ih (engine.execute operation world).2
      rw [World.handled] at now
      obtain ⟨state, channel⟩ := Prod.mk.inj now
      rw [state, channel] at later
      refine later.trans ?_
      simp only [told, List.flatMap_cons, Exchange.leave, Exchange.published, List.foldl_append,
        List.flatMap_append, Channel.publishAll]

/-- What each reply keeps of the state is kept while requests are served. -/
theorem keeps_serve {engine : Engine σ} {kept : σ → Prop} (requests : List Request) :
    ∀ world : World σ,
      (∀ execution ∈ (engine.serve requests world).1,
          ∀ exchange ∈ engine.exchanges execution.operation execution.world, kept exchange.met →
            kept exchange.reply.state) → kept world.state →
        kept (engine.serve requests world).2.state := by
  induction requests with
  | nil => exact fun _ _ now => now
  | cons request rest ih =>
    intro world keeps now
    rw [serve] at keeps ⊢
    split at keeps
    · exact ih world keeps now
    · rename_i operation _
      apply ih _ fun execution member => keeps execution (List.mem_cons_of_mem _ member)
      have state : (engine.execute operation world).2.state = _ :=
        congrArg Prod.fst (engine.handled_execute operation world)
      rw [state]
      exact HandlerCall.leave_keeps (keeps _ List.mem_cons_self) now

end Engine

end MockGraph
