import MockGraph.Proofs.Execution.Recording
import MockGraph.Proofs.Execution.Supplied
import MockGraph.Proofs.Operation.SingleRoot
import MockGraph.Proofs.Subscription.Delivery
set_option autoImplicit false

namespace MockGraph

variable {σ : Type}

/-- The completion of a root field from the payload of an event. -/
def Engine.payloadCompletion (engine : Engine σ) (root : String) (field : FieldSelection)
    (definition : FieldDef) (payload : Json) : Completion Json :=
  Completion.absorb definition.type
    (Completer.ofSelection engine.schema engine.mocks (.ofField root field.name) field.selection
      definition.type (some payload) [.field field.responseKey])

/-- The data of a response with one root field: an object with its key alone, or null. -/
def FieldSelection.dataOf (field : FieldSelection) (value : Option Json) : Json :=
  value.elim .null fun value => .object [(field.responseKey, value)]

/-- What becomes of an event for a subscription with one root field. -/
inductive Engine.Evaluates (engine : Engine σ) (operation : Operation) (field : FieldSelection)
    (payload : Json) (world : World σ) : Except Rejection Response × World σ → Prop
  | rejected {rejection} : engine.start operation (some payload) = .error rejection →
      Evaluates engine operation field payload world (.error rejection, world)
  /-- The rule for the values of the root type fails. -/
  | ruledOut {root error} : engine.schema.root? operation.kind = some root →
      engine.mocks.objectSeed? .root root = some (.error error) →
      Evaluates engine operation field payload world
        (.ok (.executed .null [.new error.message]), world)
  | completed {root definition done} : engine.schema.root? operation.kind = some root →
      engine.schema.field root field.name = .ok definition →
      engine.payloadCompletion root field definition payload world.random = done →
      Evaluates engine operation field payload world
        (.ok (.executed (field.dataOf done.value) (done.failures.map Failure.fieldError)),
          { world with random := done.random })

/-- A run that has a payload for its one root field completes the payload. -/
theorem Run.finish_of_payload {engine : Engine σ} {root : String} {field : FieldSelection}
    {definition : FieldDef} (named : field.name ≠ "__typename")
    (declared : engine.schema.field root field.name = .ok definition)
    (seed : Option (Ordered String Json)) (context : Context) (payload : Json) (world : World σ) :
    finish engine [field] ⟨engine.schema, root, seed, context, some payload, [], []⟩ world =
      (.executed
        (field.dataOf (engine.payloadCompletion root field definition payload world.random).value)
        ((engine.payloadCompletion root field definition payload world.random).failures.map
          Failure.fieldError),
        { world with
          random :=
            (engine.payloadCompletion root field definition payload world.random).random }) := by
  let run : Run := ⟨engine.schema, root, seed, context, some payload, [], []⟩
  have completes : run.complete engine.mocks field definition (some (.ok payload)) =
      engine.payloadCompletion root field definition payload :=
    (run.complete_of_supplied engine.mocks field definition (some payload)).trans
      (Completion.field_of_fills .supplied _ _ _)
  show finish engine [field] run world = _
  unfold finish
  rcases run.step_cases engine field world with
    ⟨isTypename, -⟩ | ⟨-, ⟨_, missing, -⟩ | ⟨_, _, _, done, known, taken, completed,
      ⟨value, reached, stepped⟩ | ⟨lost, stepped⟩⟩⟩
  · exact absurd isTypename named
  · cases declared.symm.trans missing
  · cases declared.symm.trans known
    cases taken
    rw [completes] at completed
    rw [stepped, completed, reached]
    rfl
  · cases declared.symm.trans known
    cases taken
    rw [completes] at completed
    rw [stepped, completed, lost]
    rfl

/-- An event is rejected, or the rule of the root type fails, or its payload is completed as the
value of the field. -/
theorem Engine.evaluates_executeEvent (engine : Engine σ) {operation : Operation}
    {field : FieldSelection} (single : operation.selection = [field])
    (named : field.name ≠ "__typename") (payload : Json) (world : World σ) :
    engine.Evaluates operation field payload world
      (engine.executeEvent operation payload world) := by
  unfold executeEvent
  cases started : engine.start operation (some payload) with
  | error rejection =>
    rw [Engine.run, started]
    exact .rejected started
  | ok progress =>
    obtain ⟨root, known, valid, ⟨error, seeded, rfl⟩ | ⟨seed, seeded, rfl⟩⟩ := start_cases started
    · rw [Engine.run, started]
      exact .ruledOut known seeded
    · rw [single] at valid
      obtain ⟨definition, declared⟩ := TypeSystem.field_of_valid
        (TypeSystem.fieldErrors_of_mem valid List.mem_cons_self) named
      rw [run_of_started started, single, Run.finish_of_payload named declared]
      exact .completed known declared rfl

/-- No handler is called for the field that takes the payload. -/
theorem Engine.record_of_payload (engine : Engine σ) {operation : Operation}
    {field : FieldSelection} (single : operation.selection = [field]) (payload : Json)
    (world : World σ) : engine.record operation (some payload) world = [] := by
  by_cases running : ∃ run, engine.start operation (some payload) = .ok (.running run)
  · obtain ⟨run, started⟩ := running
    obtain ⟨root, -, valid, ⟨_, -, impossible⟩ | ⟨seed, -, same⟩⟩ := start_cases started
    · cases impossible
    · cases same
      obtain ⟨reached, rest, _, split, -, -, recorded, -⟩ := record_of_running valid started world
      have short : reached.length ≤ 1 := by
        have whole := congrArg List.length (split.symm.trans single)
        rw [List.length_append, List.length_singleton] at whole
        omega
      rw [recorded, Handlers.callsFor, Option.isSome_some, if_pos rfl,
        List.drop_eq_nil_of_le (Nat.le_trans (List.length_filter_le _ _) short), List.flatMap_nil]
  · exact (record_of_ended (fun run started => running ⟨run, started⟩) world).2

/-- The handlers of an engine play no part in an event for one root field, and what they change
stays as it is. -/
theorem Engine.executeEvent_handlers (engine : Engine σ) {operation : Operation}
    {field : FieldSelection} (single : operation.selection = [field])
    (named : field.name ≠ "__typename") (payload : Json) (world : World σ) (handlers : Handlers σ) :
    { engine with handlers }.executeEvent operation payload world =
        engine.executeEvent operation payload world ∧
      (engine.executeEvent operation payload world).2.state = world.state ∧
      (engine.executeEvent operation payload world).2.channel = world.channel := by
  have same : { engine with handlers }.start operation (some payload) =
      engine.start operation (some payload) := rfl
  cases started : engine.start operation (some payload) with
  | error rejection =>
    rw [executeEvent, executeEvent, Engine.run, Engine.run, same, started]
    exact ⟨rfl, rfl, rfl⟩
  | ok progress =>
    obtain ⟨root, -, valid, ⟨error, -, rfl⟩ | ⟨seed, -, rfl⟩⟩ := start_cases started
    · rw [executeEvent, executeEvent, Engine.run, Engine.run, same, started]
      exact ⟨rfl, rfl, rfl⟩
    · rw [single] at valid
      obtain ⟨definition, declared⟩ := TypeSystem.field_of_valid
        (TypeSystem.fieldErrors_of_mem valid List.mem_cons_self) named
      have declaredThere : { engine with handlers }.schema.field root field.name = .ok definition :=
        declared
      rw [executeEvent, executeEvent, run_of_started started, run_of_started (same.trans started),
        single, Run.finish_of_payload named declared seed operation.context payload world,
        Run.finish_of_payload named declaredThere seed operation.context payload world]
      exact ⟨rfl, rfl, rfl⟩

/-- A registration of a subscription that a text was accepted for, with whatever schema there was
then. -/
structure Registration.Parsed (registration : Registration) : Prop where
  kind : registration.operation.kind = .subscription
  accepted :
      ∃ (schema : TypeSystem) (text : String) (name : Option String)
        (provided : Option (Ordered String Json)),
        schema.parseOperation text name provided = .ok registration.operation
  rootField : registration.rootField = registration.operation.rootFieldName?.getD ""

/-- Only operations that a text was accepted for are registered. -/
def Call.Accepted : Call σ → Prop
  | register _ _ _ operation =>
    ∃ (schema : TypeSystem) (text : String) (name : Option String)
      (provided : Option (Ordered String Json)),
      schema.parseOperation text name provided = .ok operation
  | _ => True

theorem Registration.Parsed.single {registration : Registration} (parsed : registration.Parsed) :
    ∃ field, registration.operation.selection = [field] ∧ registration.rootField = field.name ∧
      field.name ≠ "__typename" := by
  obtain ⟨kind, ⟨schema, text, name, provided, accepted⟩, rootField⟩ := parsed
  obtain ⟨field, single, plain⟩ := TypeSystem.selection_of_subscription accepted kind
  refine ⟨field, single, ?_, ?_⟩
  · rw [rootField, Operation.rootFieldName?, single]
    rfl
  · intro isTypename
    rw [isTypename] at plain
    exact plain List.mem_cons_self

namespace Registry

/-- What is registered is a subscription under the name of its first field. -/
theorem parsed_of_register {registry next : Registry} {connection : ConnectionId} {sink : SinkId}
    {operationId : String} {operation : Operation} {registration : Registration}
    (accepted :
      ∃ (schema : TypeSystem) (text : String) (name : Option String)
        (provided : Option (Ordered String Json)),
        schema.parseOperation text name provided = .ok operation)
    (opened : registry.register connection sink operationId operation = (.ok registration, next)) :
    registration.operation = operation ∧ registration.Parsed := by
  have kind : operation.kind = .subscription := by
    by_contra other
    rw [register, if_pos other] at opened
    cases opened
  rcases register_cases registry connection sink operationId operation with
    ⟨error, refused⟩ | ⟨known, after, registered, -, -, -, -, rfl, rootField⟩
  · cases opened.symm.trans refused
  · cases opened.symm.trans registered
    exact ⟨rfl, kind, accepted, rootField⟩

/-- Whatever calls there were, all open registrations are of subscriptions that were accepted. -/
theorem parsed_run (calls : List (Call σ)) : ∀ registry : Registry, Consistent registry →
    (∀ registration ∈ registry.registered, registration.Parsed) → (∀ call ∈ calls, call.Accepted) →
      ∀ registration ∈ (registry.run calls).registry.registered, registration.Parsed := by
  induction calls with
  | nil => exact fun registry _ parsed _ => parsed
  | cons call rest ih =>
    intro registry consistent parsed accepted
    have changes := consistent.changes call
    refine ih _ changes.consistent ?_ fun later member =>
      accepted later (List.mem_cons_of_mem _ member)
    intro registration member
    rw [changes.registered] at member
    rcases List.mem_append.mp member with kept | opened
    · exact parsed registration (List.mem_filter.mp kept).1
    · cases call with
      | register connection sink operationId operation =>
        rw [act] at opened
        cases result : registry.register connection sink operationId operation with
        | mk outcome next =>
          rw [result] at opened
          cases outcome with
          | error error => cases opened
          | ok known =>
            obtain rfl := List.mem_singleton.mp opened
            exact (parsed_of_register (accepted _ List.mem_cons_self) result).2
      | unregister | unregisterOperation | purge | publish => cases opened

/-- Handlers play no part when an event is delivered to subscriptions, and what they change stays as
it is. -/
theorem deliver_handlers (engine : Engine σ) (handlers : Handlers σ) (sinks : SinkId → SinkState)
    (event : Event) (registrations : List Registration) :
    ∀ world : World σ, (∀ registration ∈ registrations, registration.Parsed) →
      deliver { engine with handlers } sinks event registrations world =
          deliver engine sinks event registrations world ∧
        (deliver engine sinks event registrations world).2.state = world.state ∧
        (deliver engine sinks event registrations world).2.channel = world.channel := by
  induction registrations with
  | nil => exact fun world _ => ⟨rfl, rfl, rfl⟩
  | cons registration rest ih =>
    intro world parsed
    have offered : ∀ sink, registration.offer event ⟨{ engine with handlers }, sink, world⟩ =
        registration.offer event ⟨engine, sink, world⟩ ∧
        (registration.offer event ⟨engine, sink, world⟩).2.state = world.state ∧
        (registration.offer event ⟨engine, sink, world⟩).2.channel = world.channel := by
      intro sink
      obtain ⟨field, single, -, named⟩ := (parsed registration List.mem_cons_self).single
      obtain ⟨same, state, channel⟩ :=
        engine.executeEvent_handlers single named event.payload world handlers
      unfold Registration.offer
      dsimp only
      rw [same]
      split
      · exact ⟨rfl, rfl, rfl⟩
      · split <;> exact ⟨rfl, state, channel⟩
    obtain ⟨same, state, channel⟩ := offered (sinks registration.sink)
    unfold deliver
    rw [same]
    generalize registration.offer event ⟨engine, sinks registration.sink, world⟩ =
      offer at state channel ⊢
    obtain ⟨delivery, next⟩ := offer
    obtain ⟨sameRest, stateRest, channelRest⟩ :=
      ih next fun other member => parsed other (List.mem_cons_of_mem _ member)
    dsimp only at state channel ⊢
    rw [sameRest, stateRest, channelRest]
    exact ⟨rfl, state, channel⟩

end Registry

/-- Publishing calls no handler. A subscription that was accepted has one root field, under whose
name it is registered. An event for it is rejected, or ended by the failing rule of the root type,
or completed as the value of that field, with whatever schema, rules and handlers there are by then;
and what is delivered to the registrations that any calls leave open is the same with any
handlers. -/
theorem Registry.events_call_no_handler {σ : Type} :
    (∀ (schema : TypeSystem) (text : String) (name : Option String)
        (provided : Option (Ordered String Json)) (operation : Operation),
        schema.parseOperation text name provided = .ok operation → operation.kind = .subscription →
          ∃ field, operation.selection = [field] ∧
            field.name ∉ ["__typename", "__schema", "__type"] ∧
            (∀ (registry next : Registry) (connection : ConnectionId) (sink : SinkId)
              (operationId : String) (registration : Registration),
              registry.register connection sink operationId operation = (.ok registration, next) →
                registration.operation = operation ∧ registration.rootField = field.name) ∧
            ∀ (engine : Engine σ) (payload : Json) (world : World σ),
              engine.record operation (some payload) world = [] ∧
                engine.Evaluates operation field payload world
                  (engine.executeEvent operation payload world)) ∧
      ∀ calls : List (Call σ), (∀ call ∈ calls, call.Accepted) →
        ∀ (engine : Engine σ) (handlers : Handlers σ) (sinks : SinkId → SinkState) (event : Event)
          (world : World σ),
          let registry := (Registry.empty.run calls).registry
          registry.publish { engine with handlers } sinks event world =
              registry.publish engine sinks event world ∧
            (registry.publish engine sinks event world).2.state = world.state ∧
            (registry.publish engine sinks event world).2.channel = world.channel := by
  refine ⟨fun schema text name provided operation accepted kind => ?_,
    fun calls accepted engine handlers sinks event world => ?_⟩
  · obtain ⟨field, single, plain⟩ := TypeSystem.selection_of_subscription accepted kind
    have named : field.name ≠ "__typename" := by
      intro isTypename
      rw [isTypename] at plain
      exact plain List.mem_cons_self
    refine ⟨field, single, plain,
      fun registry next connection sink operationId registration opened => ?_,
      fun engine payload world => ⟨?_, ?_⟩⟩
    · obtain ⟨rfl, parsed⟩ := parsed_of_register ⟨schema, text, name, provided, accepted⟩ opened
      refine ⟨rfl, ?_⟩
      rw [parsed.rootField, Operation.rootFieldName?, single]
      rfl
    · exact engine.record_of_payload single payload world
    · exact engine.evaluates_executeEvent single named payload world
  · have parsed := parsed_run calls Registry.empty .empty nofun accepted
    exact deliver_handlers engine handlers sinks event _ world parsed

namespace Cableway

open Syntax

/-- How many ride, and how many there are. -/
def schema : TypeSystem where
  query := "Query"
  mutation := none
  subscription := some "Subscription"
  types :=
    [("Query", .object "Query" none [("cabins", ⟨"cabins", none, .named "Int", []⟩)]),
      ("Subscription",
        .object "Subscription" none [("riders", ⟨"riders", none, .named "Int", []⟩)]),
      ("Int", .scalar "Int" none)]
  directives := Introspection.directives

def definition : OperationDefinition :=
  ⟨.subscription, none, [], [], [.field (some "now") "riders" [] [] []]⟩

def document : Document := ⟨[definition], []⟩

def field : FieldSelection := ⟨"riders", some "now", [], []⟩

def operation : Operation := ⟨.subscription, none, [field], []⟩

/-- A handler of the subscription's field, which counts its calls. -/
def handlers : Handlers Nat :=
  Handlers.register [] "Subscription" "riders" ⟨none, fun _ _ calls => ⟨.ok .null, calls + 1, []⟩⟩

def engine (rules : MockRules) : Engine Nat := ⟨schema, ⟨rules, .standard⟩, handlers⟩

def world : World Nat := ⟨.ofSeed 0, 0, .new⟩

theorem accepted : schema.parseOperation "subscription{now:riders}" none none = .ok operation := by
  have read : Document.parse? "subscription{now:riders}" = some document := rfl
  have sound : schema.documentSound document = true :=
    TypeSystem.documentSound_of_leaf rfl rfl rfl rfl rfl
  have lowered : schema.lowerOperation document definition [] = operation :=
    TypeSystem.lowerOperation_of_leaf rfl rfl rfl rfl
  rw [← lowered]
  exact TypeSystem.parseOperation_of_sound read sound rfl rfl

def watches : List (Call Nat) := [.register ⟨1⟩ ⟨1⟩ "riders" operation]

theorem events_call_no_handler_riders :
    schema.parseOperation "subscription{now:riders}" none none = .ok operation ∧
      operation.kind = .subscription ∧
      (engine .standard).record operation (some (.ofNat 8)) world = [] ∧
      (engine .standard).Evaluates operation field (.ofNat 8) world
        (.ok (.executed (.object [("now", .ofNat 8)]) []), world) ∧
      (∀ call ∈ watches, call.Accepted) ∧
      (Registry.empty.run watches).registry.publish (engine .standard) (fun _ => .accepting)
          ⟨"riders", .ofNat 8⟩ world =
        (Registry.empty.run watches).registry.publish ⟨schema, ⟨.standard, .standard⟩, []⟩
          (fun _ => .accepting) ⟨"riders", .ofNat 8⟩ world := by
  have called : ∀ call ∈ watches, call.Accepted := by
    intro call member
    obtain rfl := List.mem_singleton.mp member
    exact ⟨schema, _, none, none, accepted⟩
  obtain ⟨events, publishes⟩ := @Registry.events_call_no_handler Nat
  obtain ⟨field', single, -, -, evaluates⟩ := events schema _ none none operation accepted rfl
  obtain rfl : field = field' := (List.cons.inj single).1
  obtain ⟨uncalled, evaluated⟩ := evaluates (engine .standard) (.ofNat 8) world
  refine ⟨accepted, rfl, uncalled, evaluated, called, ?_⟩
  exact ((publishes watches called (engine .standard) [] _ _ world).1).symm

/-- Where the rule of the subscription type fails, the operation is not rejected, and yet the
payload is not completed. -/
theorem payload_passed_over :
    let ruled :=
      engine (MockRules.standard.withType "Subscription"
        (.value fun _ => .error (.custom "closed")))
    schema.parseOperation "subscription{now:riders}" none none = .ok operation ∧
      operation.kind = .subscription ∧ ruled.mocks.rules.check schema = .ok () ∧
      ruled.executeEvent operation (.ofNat 8) world =
        (.ok (.executed .null [.new "closed"]), world) ∧
      ruled.payloadCompletion "Subscription" field ⟨"riders", none, .named "Int", []⟩ (.ofNat 8)
          world.random = ⟨some (.ofNat 8), [], world.random⟩ :=
  ⟨accepted, rfl, rfl, rfl, rfl⟩

end Cableway

end MockGraph
