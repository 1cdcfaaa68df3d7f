import MockGraph.Proofs.Server.Lifecycle
import MockGraph.Proofs.Server.Unread
set_option autoImplicit false

namespace MockGraph

namespace Server

variable {σ : Type} {server : Server σ} {connection : ConnectionId} {id : String}

/-- A call of a client is answered by one error. Nothing else comes of it, at once or later. -/
structure Rejects (connection : ConnectionId) (id : String) (errors : List FieldError)
    (before after : Server σ) : Prop where
  queued : gained connection before after = [.error id errors]
  others : ∀ other ≠ connection, gained other before after = []
  /-- No task is added, nothing is registered, and no handler is called. -/
  rest : after = before.withConnections after.connections
  phase : ∀ other, after.phase? other = before.phase? other
  later : ∀ actions other, log other after actions = log other before actions

theorem rejects_send (housed : Housed server) (isOpen : server.phase? connection = some .open)
    (errors : List FieldError) :
    Rejects connection id errors server (server.send connection (.error id errors)) := by
  have unread : ∀ known : Connection, (known.send (.error id errors)).unread = known.unread := by
    intro known
    unfold Connection.send
    split <;> rfl
  refine ⟨?_, ?_, rfl, (idle_send server connection _).phase, ?_⟩
  · rw [gained, outbox_send isOpen (by decide) (housed.attached connection), List.drop_left]
  · intro other different
    rcases queues_send server connection other (.error id errors) with refused | ⟨-, same, -⟩
    · exact gained_eq refused
    · exact absurd same.symm different
  · intro actions other
    exact log_alike housed (Connections.alike_adjust unread server.connections connection) actions
      other

/-- An operation whose text is not rejected has a task of its own, and no message is queued for it
yet. -/
theorem handle_start_of_parsed {request : Request} {operation : Operation}
    (isOpen : server.phase? connection = some .open)
    (parsed : server.engine.schema.parseOperation request.query request.operationName
      request.bindings = .ok operation) :
    server.act (.handle connection (.start id request)) =
      (server.spawn (if operation.kind = .subscription then .register connection id operation
        else .query connection id (.queued operation))).2 := by
  rw [act, handle, startOperation, isOpen, parsed]
  rfl

theorem handle_start_of_refused {request : Request} {error : ValidationError}
    (isOpen : server.phase? connection = some .open)
    (refused : server.engine.schema.parseOperation request.query request.operationName
      request.bindings = .error error) :
    server.act (.handle connection (.start id request)) =
      server.send connection (.error id [error.fieldError]) := by
  rw [act, handle, startOperation, isOpen, refused]
  rfl

/-- The errors of an operation are its result, if it is rejected when it is about to run. -/
theorem advance_rejected {task : TaskId} {operation : Operation} {rejection : Rejection}
    (found : Ordered.get? server.tasks task = some (.query connection id (.queued operation)))
    (rejected : server.engine.start operation none = .error rejection) :
    server.act (.advance task) =
      ((server.send connection (.next id rejection.response)).send connection (.complete id)).finish
        task := by
  rw [act, advance, found]
  dsimp only [Job.isWaiting]
  rw [resumeJob, Job.resume, rejected]
  rfl

/-- An operation that is rejected when it is about to run has its errors as its result and is
complete. No handler is called, and nothing is registered. -/
structure ConcludesRejected (connection : ConnectionId) (id : String) (response : Response)
    (task : TaskId) (before after : Server σ) : Prop where
  queued : gained connection before after =
    if before.phase? connection = some .closed then [] else [.next id response, .complete id]
  world : after.world = before.world
  registry : after.registry = before.registry
  phase : ∀ other, after.phase? other = before.phase? other
  gone : Ordered.get? after.tasks task = none

theorem concludes_rejected {task : TaskId} {operation : Operation} {rejection : Rejection}
    (housed : Housed server) (known : server.phase? connection ≠ none)
    (found : Ordered.get? server.tasks task = some (.query connection id (.queued operation)))
    (rejected : server.engine.start operation none = .error rejection) :
    ConcludesRejected connection id rejection.response task server
      (server.act (.advance task)) := by
  have result :
      ((server.send connection (.next id rejection.response)).send connection (.complete id)).outbox
        connection = _ := outbox_result housed (.refl server) rfl known
  have sent := (idle_send server connection (.next id rejection.response)).trans
    (idle_send _ connection (.complete id))
  rw [advance_rejected found rejected]
  refine ⟨?_, rfl, rfl, sent.phase, ?_⟩
  · exact (congrArg (List.drop _) result).trans List.drop_left
  · rw [get?_finish, if_pos rfl]

/-- A registration whose operation is rejected gets the errors at each event on its root field. -/
theorem offer_rejected {registration : Registration} {event : Event} {turn : Turn σ}
    {rejection : Rejection} (field : registration.rootField = event.field)
    (accepting : turn.sink = .accepting)
    (rejected : turn.engine.start registration.operation (some event.payload) = .error rejection) :
    registration.offer event turn =
      (some ⟨registration.id, registration.sink, .next registration.operationId rejection.response⟩,
        turn.world) := by
  have executed : turn.engine.executeEvent registration.operation event.payload turn.world =
      (.error rejection, turn.world) := by
    rw [Engine.executeEvent, Engine.run, rejected]
  simp [Registration.offer, field, accepting, executed, responseOfRun]

theorem deliver_rejected {engine : Engine σ} {sinks : SinkId → SinkState} {event : Event}
    {registrations : List Registration} (world : World σ) {registration : Registration}
    {rejection : Rejection} (member : registration ∈ registrations)
    (field : registration.rootField = event.field)
    (accepting : sinks registration.sink = .accepting)
    (rejected : engine.start registration.operation (some event.payload) = .error rejection) :
    (⟨registration.id, registration.sink, .next registration.operationId rejection.response⟩ :
        Delivery) ∈ (Registry.deliver engine sinks event registrations world).1 := by
  induction registrations generalizing world with
  | nil => cases member
  | cons first rest ih =>
    unfold Registry.deliver
    dsimp only
    rw [List.mem_append]
    rcases List.mem_cons.mp member with same | later
    · left
      rw [← same, offer_rejected field accepting rejected]
      exact List.mem_singleton.mpr rfl
    · exact Or.inr (ih _ later)

theorem accepting_iff (housed : Housed server) (connection : ConnectionId) :
    server.sinkState (sinkOf connection) = .accepting ↔ server.phase? connection = some .open := by
  have attached := housed.attached connection
  have same : server.connection? ⟨(sinkOf connection).number⟩ = server.connection? connection := rfl
  unfold sinkState phase?
  rw [same]
  cases found : server.connection? connection with
  | none => simp
  | some known =>
    rw [found, Option.map_some, ne_eq, Option.some.injEq, Bool.not_eq_false] at attached
    simp [Connection.acceptsEvents, attached]

theorem outbox_deliver (isOpen : server.phase? connection = some .open)
    (attached : (server.connection? connection).map (·.attached) ≠ some false)
    (message : ServerMessage) :
    (server.adjust connection (·.deliver message)).outbox connection =
      server.outbox connection ++ [message] := by
  obtain ⟨known, present, phase⟩ := Option.map_eq_some_iff.mp isOpen
  have accepts : known.acceptsEvents = true := by
    rw [present, Option.map_some, ne_eq, Option.some.injEq, Bool.not_eq_false] at attached
    simp [Connection.acceptsEvents, phase, attached]
  rw [outbox, connection?_adjust, if_pos rfl, outbox, present]
  simp [Connection.deliver, accepts, Connection.queue]

/-- An open connection takes all events that are for it, in order. -/
theorem outbox_deliveries (deliveries : List Delivery)
    (isOpen : server.phase? connection = some .open)
    (attached : (server.connection? connection).map (·.attached) ≠ some false) :
    (deliveries.foldl
          (fun server delivery => server.adjust ⟨delivery.sink.number⟩ (·.deliver delivery.message))
          server).outbox connection =
      server.outbox connection ++
        (deliveries.filter (·.sink = sinkOf connection)).map (·.message) := by
  induction deliveries generalizing server with
  | nil => exact (List.append_nil _).symm
  | cons delivery rest ih =>
    have idle := idle_deliver server ⟨delivery.sink.number⟩ delivery.message
    have others := ih ((idle.phase connection).trans isOpen) (by rw [idle.attached]; exact attached)
    rw [List.foldl_cons, others, List.filter_cons]
    by_cases here : delivery.sink = sinkOf connection
    · have now :
          (server.adjust ⟨delivery.sink.number⟩ (·.deliver delivery.message)).outbox connection =
            server.outbox connection ++ [delivery.message] := by
        rw [here]
        exact outbox_deliver isOpen attached delivery.message
      rw [now, if_pos (decide_eq_true here), List.append_assoc]
      rfl
    · have elsewhere : (⟨delivery.sink.number⟩ : ConnectionId) ≠ connection := by
        rintro rfl
        exact here rfl
      have now :
          (server.adjust ⟨delivery.sink.number⟩ (·.deliver delivery.message)).outbox connection =
            server.outbox connection := by
        rw [outbox, connection?_adjust, if_neg elsewhere, outbox]
      rw [now, if_neg (by simpa using here)]

/-- What an event puts in front of a client whose registration is rejected. -/
theorem gained_rejected {registration : Registration} {event : Event} {rejection : Rejection}
    (housed : Housed server) (addressed : Addressed server)
    (member : registration ∈ server.registry.registered)
    (isOpen : server.phase? registration.connection = some .open)
    (field : registration.rootField = event.field)
    (rejected : server.engine.start registration.operation (some event.payload) =
      .error rejection) :
    .next registration.operationId rejection.response ∈
      gained registration.connection server (server.act (.publish event)) := by
  have attached := housed.attached registration.connection
  have sink := addressed registration member
  have accepting : server.sinkState registration.sink = .accepting := by
    rw [sink]
    exact (accepting_iff housed registration.connection).mpr isOpen
  rw [act, publish]
  -- Handlers of registrations before this one change the world, but not whether this one is
  -- rejected.
  rcases published : server.registry.publish server.engine server.sinkState event server.world with
    ⟨deliveries, world⟩
  have same :
      (Registry.deliver server.engine server.sinkState event server.registry.registered
        server.world).1 = deliveries := congrArg Prod.fst published
  have delivered := deliver_rejected server.world member field accepting rejected
  rw [same] at delivered
  let met : Server σ := { server with world }
  have stillOpen : met.phase? registration.connection = some .open := isOpen
  have queued := outbox_deliveries deliveries stillOpen attached
  have all : gained registration.connection server _ =
      (deliveries.filter (·.sink = sinkOf registration.connection)).map (·.message) :=
    (congrArg (List.drop _) queued).trans List.drop_left
  rw [all]
  exact List.mem_map.mpr ⟨_, List.mem_filter.mpr ⟨delivered, decide_eq_true sink⟩, rfl⟩

/-- A subscription is registered without a look at what it selects. -/
theorem registered_of_register {task : TaskId} {operation : Operation}
    (consistent : server.registry.Consistent)
    (found : Ordered.get? server.tasks task = some (.register connection id operation))
    (subscription : operation.kind = .subscription)
    (unused : id ∉ server.registry.operations connection) :
    ∃ registration ∈ (server.act (.advance task)).registry.registered,
      registration.connection = connection ∧ registration.operationId = id ∧
        registration.operation = operation := by
  have absent : Ordered.contains (server.registry.operationsOf connection) id = false := by
    rw [Ordered.contains, (Ordered.get?_eq_none_iff _ _).mpr unused]
    rfl
  rcases server.registry.register_cases connection (sinkOf connection) id operation with
    ⟨error, refused⟩ | ⟨registration, next, taken, opens, owner, -, named, kept, -⟩
  · simp [Registry.register, subscription, absent] at refused
  · have after : (server.act (.advance task)).registry = next := by
      rw [act, advance, found]
      dsimp only
      rw [registerSubscription, taken]
      dsimp only
      split <;> rfl
    refine ⟨registration, ?_, owner, named, kept⟩
    rw [after, consistent.registered_opens opens]
    exact List.mem_append_right _ (List.mem_singleton.mpr rfl)

theorem known_run (housed : Housed server) (known : server.phase? connection ≠ none)
    (actions : List Action) :
    Housed (server.run actions) ∧ (server.run actions).phase? connection ≠ none := by
  induction actions generalizing server with
  | nil => exact ⟨housed, known⟩
  | cons action rest ih => exact ih (housed.act action) (known_act housed action known)

/-- What the text of an operation is rejected for is reported by one error, and nothing else comes
of it. What it is rejected for when it is about to run is its result: a query or a mutation is
complete with it, and a subscription is registered and has it again at each event. -/
theorem run_reports_rejection (engine : Engine σ) (world : World σ) (drainTimeout : Nat)
    (front : List Action) (connection : ConnectionId) (id : String) (request : Request)
    (isOpen : ((start engine world drainTimeout).run front).phase? connection = some .open) :
    let server := (start engine world drainTimeout).run front
    let after := server.act (.handle connection (.start id request))
    let parsed :=
      server.engine.schema.parseOperation request.query request.operationName request.bindings
    (∀ error, parsed = .error error → Rejects connection id [error.fieldError] server after) ∧
    ∀ operation, parsed = .ok operation →
      after =
        (server.spawn (if operation.kind = .subscription then .register connection id operation
          else .query connection id (.queued operation))).2 ∧
      ∀ later, let ready := after.run later
        (∀ task operation rejection,
            Ordered.get? ready.tasks task = some (.query connection id (.queued operation)) →
              ready.engine.start operation none = .error rejection →
              ConcludesRejected connection id rejection.response task ready
                (ready.act (.advance task))) ∧
        (∀ task operation,
            Ordered.get? ready.tasks task = some (.register connection id operation) →
              operation.kind = .subscription → id ∉ ready.registry.operations connection →
              ∃ registration ∈ (ready.act (.advance task)).registry.registered,
                registration.connection = connection ∧ registration.operationId = id ∧
                  registration.operation = operation) ∧
        ∀ registration ∈ ready.registry.registered, registration.connection = connection →
          ready.phase? connection = some .open →
          ∀ event rejection, registration.rootField = event.field →
            ready.engine.start registration.operation (some event.payload) = .error rejection →
            .next registration.operationId rejection.response ∈
                gained connection ready (ready.act (.publish event)) ∧
              (ready.act (.publish event)).registry = ready.registry := by
  intro server after parsed
  -- All that is used of what came before are the invariants of runs.
  have swept : Swept server := (swept_start engine world drainTimeout).run front
  have addressed : Addressed server :=
    (addressed_start engine world drainTimeout).run (swept_start engine world drainTimeout) front
  refine ⟨?_, ?_⟩
  · intro error refused
    have replied : after = server.send connection (.error id [error.fieldError]) :=
      handle_start_of_refused isOpen refused
    rw [replied]
    exact rejects_send swept.housed isOpen _
  · intro operation taken
    refine ⟨handle_start_of_parsed isOpen taken, ?_⟩
    intro later ready
    have housed : Housed after := swept.housed.moves (moves_act server _)
    have known : after.phase? connection ≠ none := by
      apply known_act swept.housed
      rw [isOpen]
      nofun
    obtain ⟨readyHoused, readyKnown⟩ := known_run housed known later
    have readyConsistent : ready.registry.Consistent := ((swept.act _).run later).consistent
    have readyAddressed : Addressed ready :=
      (addressed.act swept.consistent _).run (swept.act _) later
    refine ⟨?_, ?_, ?_⟩
    · intro task operation rejection found rejected
      exact concludes_rejected readyHoused readyKnown found rejected
    · intro task operation found subscription unused
      exact registered_of_register readyConsistent found subscription unused
    · intro registration member here isOpen event rejection field rejected
      subst here
      exact ⟨gained_rejected readyHoused readyAddressed member isOpen field rejected,
        registry_publish ready event⟩

end Server

namespace Piste

open Server Syntax

/-- A piste and whether it is groomed. -/
def schema : TypeSystem where
  query := "Query"
  mutation := none
  subscription := none
  types :=
    [("Query", .object "Query" none [("piste", ⟨"piste", none, .named "Piste", []⟩)]),
      ("Piste", .object "Piste" none [("groomed", ⟨"groomed", none, .named "Boolean", []⟩)]),
      ("Boolean", .scalar "Boolean" none)]
  directives := Introspection.directives

def engine : Engine Unit := ⟨schema, ⟨MockRules.standard, .standard⟩, []⟩

def world : World Unit := ⟨.ofSeed 0, (), .new⟩

/-- All that is selected on the piste is skipped. -/
def request : Request := ⟨"{piste{groomed@skip(if:true)}}", none, none⟩

def selection : List Selection :=
  [.field none "piste" [] [] [.field none "groomed" [] [⟨"skip", [("if", .bool true)]⟩] []]]

def definition : OperationDefinition := ⟨.query, none, [], [], selection⟩

def document : Document := ⟨[definition], []⟩

def operation : Operation := ⟨.query, none, [⟨"piste", none, [], []⟩], []⟩

def rejection : Rejection := ⟨[.missingSelection "piste" "Piste"]⟩

theorem sound : schema.documentSound document = true := by
  have selected : schema.selectionSound [] [] "Query" selection = true := by
    simp [selection, TypeSystem.selectionSound]
    decide
  have merged : TypeSystem.mergeable [] 3 selection = true := by
    simp [selection, TypeSystem.mergeable, TypeSystem.levelFields, TypeSystem.distinctKeys]
  have sound : schema.operationSound document definition = true := by
    show (_ && schema.selectionSound [] [] "Query" selection &&
      TypeSystem.mergeable [] 3 selection) = true
    rw [selected, merged]
    decide
  show (_ && (schema.operationSound document definition && true)) = true
  rw [sound]
  decide

theorem parsed :
    schema.parseOperation request.query request.operationName request.bindings = .ok operation := by
  have read : Document.parse? request.query = some document := rfl
  have lowered : schema.lowerOperation document definition [] = operation := by
    simp [document, definition, selection, TypeSystem.lowerOperation, lowerSelection]
    rfl
  rw [← lowered]
  exact TypeSystem.parseOperation_of_sound read sound rfl rfl

theorem rejected : engine.start operation none = .error rejection := rfl

def opened : Server Unit := (start engine world 1000).run [.openConnection]

def begun : Server Unit := (opened.spawn (.query ⟨1⟩ "x" (.queued operation))).2

theorem begun_eq : opened.act (.handle ⟨1⟩ (.start "x" request)) = begun := by
  have isOpen : opened.phase? ⟨1⟩ = some .open := rfl
  exact handle_start_of_parsed isOpen parsed

/-- What is wrong with an operation may be its result: no error is queued, and it is complete. -/
theorem rejection_as_result :
    engine.start operation none = .error rejection ∧
      log ⟨1⟩ (start engine world 1000)
          [.openConnection, .handle ⟨1⟩ (.start "x" request), .advance ⟨0⟩] =
        [.started "x", .queued (.next "x" rejection.response), .queued (.complete "x")] := by
  refine ⟨rejected, ?_⟩
  show log ⟨1⟩ opened [.handle ⟨1⟩ (.start "x" request), .advance ⟨0⟩] = _
  rw [log, begun_eq]
  rfl

def garbled : Request := ⟨"piste", none, none⟩

theorem run_reports_rejection_queued :
    opened.phase? ⟨1⟩ = some .open ∧
      gained ⟨1⟩ opened (opened.act (.handle ⟨1⟩ (.start "x" garbled))) =
        [.error "x" [ValidationError.invalidDocument.fieldError]] ∧
      gained ⟨1⟩ begun (begun.act (.advance ⟨0⟩)) =
        [.next "x" rejection.response, .complete "x"] := by
  have isOpen : opened.phase? ⟨1⟩ = some .open := rfl
  refine ⟨isOpen, ?_, ?_⟩
  · have refused :=
      (run_reports_rejection engine world 1000 [.openConnection] ⟨1⟩ "x" garbled isOpen).1
    exact (refused .invalidDocument rfl).queued
  · obtain ⟨-, later⟩ :=
      (run_reports_rejection engine world 1000 [.openConnection] ⟨1⟩ "x" request isOpen).2 operation
        parsed
    have concludes := (later []).1 ⟨0⟩ operation rejection
    have ready :
        ((start engine world 1000).run [.openConnection]).act
          (.handle ⟨1⟩ (.start "x" request)) = begun := begun_eq
    rw [ready] at concludes
    exact (concludes rfl rejected).queued

end Piste

end MockGraph
