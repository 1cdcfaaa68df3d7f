import MockGraph.Proofs.Server.Invariant
import MockGraph.Proofs.Subscription.Delivery
set_option autoImplicit false

namespace MockGraph

namespace Server

variable {σ : Type} {server before middle after : Server σ} {connection : ConnectionId}
  {messages : List ServerMessage}

/-- Messages go to the end of what is queued on a connection, and a closed one takes none. -/
structure Queues (connection : ConnectionId) (before after : Server σ)
    (messages : List ServerMessage) : Prop where
  outbox : after.outbox connection = before.outbox connection ++ messages
  closed : before.phase? connection = some .closed → messages = []

theorem Queues.nothing (same : after.outbox connection = before.outbox connection) :
    Queues connection before after [] := ⟨same.trans (List.append_nil _).symm, fun _ => rfl⟩

theorem Queues.trans {others : List ServerMessage}
    (first : Queues connection before middle messages)
    (second : Queues connection middle after others)
    (phase : middle.phase? connection = before.phase? connection) :
    Queues connection before after (messages ++ others) := by
  refine ⟨?_, ?_⟩
  · rw [second.outbox, first.outbox, List.append_assoc]
  · intro closed
    rw [first.closed closed, second.closed (phase.trans closed)]
    rfl

theorem outbox_adjust (server : Server σ) (id connection : ConnectionId)
    {change : Connection → Connection} (same : ∀ known, (change known).outbox = known.outbox) :
    (server.adjust id change).outbox connection = server.outbox connection := by
  rw [outbox, connection?_adjust]
  split
  · rw [Option.map_map, Function.comp_def, funext same]
    rfl
  · rfl

theorem outbox_markClosed (server : Server σ) (id connection : ConnectionId) :
    (server.markClosed id).outbox connection = server.outbox connection :=
  outbox_adjust server id connection fun _ => rfl

theorem outbox_beginClosing (server : Server σ) (id connection : ConnectionId) :
    (server.adjust id (·.beginClosing)).outbox connection = server.outbox connection := by
  refine outbox_adjust server id connection fun known => ?_
  unfold Connection.beginClosing
  split <;> rfl

theorem outbox_foldl {α : Type} (items : List α) {step : Server σ → α → Server σ}
    (same : ∀ server item, (step server item).outbox connection = server.outbox connection)
    (server : Server σ) :
    (items.foldl step server).outbox connection = server.outbox connection := by
  induction items generalizing server with
  | nil => rfl
  | cons item rest ih => exact (ih (step server item)).trans (same server item)

/-- A change that queues a message on the connection that it is for, if that takes it. -/
theorem queues_adjust (server : Server σ) (id connection : ConnectionId) (message : ServerMessage)
    (takes : Connection → Bool) (notClosed : ∀ known, takes known = true → known.phase ≠ .closed) :
    let after := server.adjust id fun known => if takes known then known.queue message else known
    Queues connection server after [] ∨ Queues connection server after [message] ∧ id = connection ∧
      ∃ known, server.connection? connection = some known ∧ takes known = true := by
  intro after
  by_cases same : id = connection
  · subst same
    have outbox : after.outbox id = ((server.connection? id).map fun known =>
        if takes known then known.outbox ++ [message] else known.outbox).getD [] := by
      rw [Server.outbox, connection?_adjust, if_pos rfl, Option.map_map]
      congr 2
      funext known
      rw [Function.comp_apply]
      split <;> rfl
    cases found : server.connection? id with
    | none => exact Or.inl (.nothing (by rw [outbox, Server.outbox, found]; rfl))
    | some known =>
      cases taken : takes known with
      | false => exact Or.inl (.nothing (by rw [outbox, Server.outbox, found]; simp [taken]))
      | true =>
        refine Or.inr
          ⟨⟨by rw [outbox, Server.outbox, found]; simp [taken], ?_⟩, rfl, known, rfl, taken⟩
        intro closed
        rw [phase?, found, Option.map_some, Option.some.injEq] at closed
        exact absurd closed (notClosed known taken)
  · refine Or.inl (.nothing ?_)
    rw [outbox, connection?_adjust, if_neg same, outbox]

theorem queues_send (server : Server σ) (id connection : ConnectionId) (message : ServerMessage) :
    Queues connection server (server.send id message) [] ∨
      Queues connection server (server.send id message) [message] ∧ id = connection ∧
        server.phase? connection ≠ none := by
  refine (queues_adjust server id connection message Connection.accepts ?_).imp_right ?_
  · intro known accepts closed
    simp [Connection.accepts, closed] at accepts
  · rintro ⟨queues, here, known, found, -⟩
    refine ⟨queues, here, ?_⟩
    rw [phase?, found]
    exact Option.some_ne_none _

theorem queues_deliver (server : Server σ) (id connection : ConnectionId)
    (message : ServerMessage) :
    Queues connection server (server.adjust id (·.deliver message)) [] ∨
      Queues connection server (server.adjust id (·.deliver message)) [message] ∧ id = connection ∧
        server.phase? connection = some .open := by
  refine (queues_adjust server id connection message Connection.acceptsEvents ?_).imp_right ?_
  · intro known accepts closed
    simp [Connection.acceptsEvents, closed] at accepts
  · rintro ⟨queues, here, known, found, accepts⟩
    simp only [Connection.acceptsEvents, Bool.and_eq_true, decide_eq_true_eq] at accepts
    exact ⟨queues, here, by rw [phase?, found, Option.map_some, accepts.1]⟩

theorem queues_foldl {α : Type} (items : List α) (step : Server σ → α → Server σ)
    (sent : α → ServerMessage → Prop) (phase : Option Phase)
    (idle : ∀ server item, Idle server (step server item))
    (each : ∀ server item, server.phase? connection = phase →
      ∃ messages, Queues connection server (step server item) messages ∧
        ∀ message ∈ messages, sent item message) (server : Server σ)
    (same : server.phase? connection = phase) :
    ∃ messages, Queues connection server (items.foldl step server) messages ∧
      ∀ message ∈ messages, ∃ item ∈ items, sent item message := by
  induction items generalizing server with
  | nil => exact ⟨[], .nothing rfl, nofun⟩
  | cons item rest ih =>
    have stays := (idle server item).phase connection
    obtain ⟨first, queuesFirst, sentFirst⟩ := each server item same
    obtain ⟨others, queuesOthers, sentOthers⟩ := ih (step server item) (stays.trans same)
    refine ⟨first ++ others, queuesFirst.trans queuesOthers stays, ?_⟩
    intro message member
    rcases List.mem_append.mp member with now | later
    · exact ⟨item, List.mem_cons_self, sentFirst message now⟩
    · obtain ⟨other, inside, sent⟩ := sentOthers message later
      exact ⟨other, List.mem_cons_of_mem _ inside, sent⟩

/-- What a registration gets of an event is for its sink and under its name. -/
theorem mem_deliver {engine : Engine σ} {sinks : SinkId → SinkState} {event : Event}
    {registrations : List Registration} {world : World σ} {delivery : Delivery}
    (member : delivery ∈ (Registry.deliver engine sinks event registrations world).1) :
    ∃ registration ∈ registrations, delivery.sink = registration.sink ∧
      ∃ response, delivery.message = .next registration.operationId response := by
  induction registrations generalizing world with
  | nil => cases member
  | cons registration rest ih =>
    let turn : Turn σ := ⟨engine, sinks registration.sink, world⟩
    change delivery ∈ (registration.offer event turn).1.toList ++
      (Registry.deliver engine sinks event rest (registration.offer event turn).2).1 at member
    rcases List.mem_append.mp member with now | later
    · refine ⟨registration, List.mem_cons_self, ?_⟩
      have offered : (registration.offer event turn).1 = some delivery := Option.mem_toList.mp now
      rw [registration.offer_eq event fun _ => turn] at offered
      obtain ⟨message, sent, rfl⟩ := Option.map_eq_some_iff.mp offered
      unfold Call.messageFor at sent
      dsimp only at sent
      split at sent
      · exact ⟨rfl, _, (Option.some.inj sent).symm⟩
      · cases sent
    · obtain ⟨other, inside, same⟩ := ih later
      exact ⟨other, List.mem_cons_of_mem _ inside, same⟩

/-- An event is queued for the registrations of a connection that is open. -/
theorem queues_publish (server : Server σ) (event : Event) (connection : ConnectionId) :
    ∃ messages, Queues connection server (server.publish event).2 messages ∧
      ∀ message ∈ messages, server.phase? connection = some .open ∧
        ∃ registration ∈ server.registry.registered, registration.sink = sinkOf connection ∧
          ∃ response, message = .next registration.operationId response := by
  unfold publish
  rcases published : server.registry.publish server.engine server.sinkState event server.world with
    ⟨deliveries, world⟩
  have known : ∀ delivery ∈ deliveries, ∃ registration ∈ server.registry.registered,
      delivery.sink = registration.sink ∧
        ∃ response, delivery.message = .next registration.operationId response := by
    intro delivery member
    have delivered := congrArg Prod.fst published
    dsimp only at delivered
    rw [← delivered] at member
    exact mem_deliver member
  have each : ∀ (other : Server σ) (delivery : Delivery),
      other.phase? connection = server.phase? connection →
        ∃ messages,
          Queues connection other (other.adjust ⟨delivery.sink.number⟩ (·.deliver delivery.message))
              messages ∧ ∀ message ∈ messages, server.phase? connection = some .open ∧
            delivery.sink = sinkOf connection ∧ message = delivery.message := by
    intro other delivery same
    rcases queues_deliver other ⟨delivery.sink.number⟩ connection delivery.message with
      refused | ⟨queues, here, isOpen⟩
    · exact ⟨[], refused, nofun⟩
    · refine ⟨_, queues, fun message member =>
        ⟨same.symm.trans isOpen, ?_, List.mem_singleton.mp member⟩⟩
      rw [← here]
      rfl
  obtain ⟨messages, queues, sent⟩ :=
    queues_foldl deliveries _ _ (server.phase? connection)
      (fun server delivery => idle_deliver server ⟨delivery.sink.number⟩ delivery.message) each
      { server with world } rfl
  refine ⟨messages, ⟨queues.outbox, queues.closed⟩, fun message member => ?_⟩
  obtain ⟨delivery, inside, isOpen, here, rfl⟩ := sent message member
  obtain ⟨registration, registered, sink, response, next⟩ := known delivery inside
  exact ⟨isOpen, registration, registered, sink.symm.trans here, response, next⟩

/-- A message by which an action answers a client itself: to a message of that connection, or that
an operation is refused. -/
inductive Reply (connection : ConnectionId) : Action → ServerMessage → Prop
  | ack {payload} : Reply connection (.handle connection (.connectionInit payload)) .connectionAck
  | pong : Reply connection (.handle connection .ping) .pong
  | refusal {action id errors} : Reply connection action (.error id errors)

/-- Where the messages come from that an action queues on a connection: replies, the result of an
operation that is over with them, events for the registrations of an open connection, or a drain
that closes the connection. -/
inductive Source (connection : ConnectionId) (before after : Server σ) :
    Action → List ServerMessage → Prop
  | replies {action messages} : (∀ message ∈ messages, Reply connection action message) →
      Source connection before after action messages
  | result {task id job response messages} :
      Ordered.get? before.tasks task = some (.query connection id job) →
      Ordered.get? after.tasks task = none → messages.Sublist [.next id response, .complete id] →
      Source connection before after (.advance task) messages
  | events {action messages} : (∀ message ∈ messages, before.phase? connection = some .open ∧
        ∃ registration ∈ before.registry.registered, registration.sink = sinkOf connection ∧
          ∃ response, message = .next registration.operationId response) →
      Source connection before after action messages
  | drain {action messages} : (∀ message ∈ messages, after.phase? connection = some .closed ∧
        ∃ id, message = .complete id) →
      Source connection before after action messages

/-- What an action queues on a connection, and where it comes from. -/
def Sends (connection : ConnectionId) (before : Server σ) (action : Action) (after : Server σ) :
    Prop :=
  ∃ messages, Queues connection before after messages ∧
    Source connection before after action messages

theorem sends_nothing {action : Action}
    (same : after.outbox connection = before.outbox connection) :
    Sends connection before action after := ⟨[], .nothing same, .replies nofun⟩

theorem sends_reply {action : Action} {id : ConnectionId} {message : ServerMessage}
    (reply : Reply id action message) (same : middle.outbox connection = before.outbox connection)
    (phase : middle.phase? connection = before.phase? connection)
    (sent : after.outbox connection = (middle.send id message).outbox connection) :
    Sends connection before action after := by
  rcases queues_send middle id connection message with refused | ⟨queues, rfl, -⟩
  · exact sends_nothing (by rw [sent, refused.outbox, same, List.append_nil])
  · refine ⟨[message], ⟨by rw [sent, queues.outbox, same], ?_⟩, .replies ?_⟩
    · exact fun closed => queues.closed (phase.trans closed)
    · intro other member
      rw [List.mem_singleton.mp member]
      exact reply

theorem sends_close (server : Server σ) (action : Action) (id connection : ConnectionId) :
    Sends connection server action (server.close id).2 := by
  unfold close
  split
  · exact sends_nothing rfl
  · exact sends_nothing (outbox_beginClosing server id connection)

theorem sends_handle (server : Server σ) (id connection : ConnectionId) (message : ClientMessage) :
    Sends connection server (.handle id message) (server.handle id message).2 := by
  cases message with
  | connectionInit => exact sends_reply .ack rfl rfl rfl
  | ping => exact sends_reply .pong rfl rfl rfl
  | pong | stop => exact sends_nothing rfl
  | connectionTerminate => exact sends_close server _ id connection
  | start name request =>
    unfold handle startOperation
    dsimp only
    split
    · exact sends_reply .refusal rfl rfl rfl
    · split
      · exact sends_reply .refusal rfl rfl rfl
      · exact sends_nothing rfl

/-- The step of an operation queues nothing, or its result and that it is complete. -/
theorem sends_query {task : TaskId} {owner : ConnectionId} {name : String} {job : Job}
    (found : Ordered.get? server.tasks task = some (.query owner name job))
    (connection : ConnectionId) :
    Sends connection server (.advance task) (server.advance task) := by
  rcases advance_query found with
    waits | ⟨middle, idle, connections, ⟨rest, goesOn⟩ | ⟨response, gates, world, -, finished⟩⟩
  · rw [waits]
    exact sends_nothing rfl
  · rw [goesOn]
    exact sends_nothing (outbox_of_connections connections connection)
  · have quiet : Queues connection server middle [] :=
      .nothing (outbox_of_connections connections connection)
    have gone : Ordered.get? (server.advance task).tasks task = none := by
      rw [finished, get?_finish, if_pos rfl]
    have phase := idle.phase connection
    have sent := (idle_send middle owner (.next name response)).phase connection
    have result : ∀ {messages : List ServerMessage}, owner = connection →
        messages.Sublist [.next name response, .complete name] → Queues connection server
          ((middle.send owner (.next name response)).send owner (.complete name)) messages →
        Sends connection server (.advance task) (server.advance task) := by
      rintro messages rfl part queues
      refine ⟨messages, ?_, .result found gone part⟩
      rw [finished]
      exact ⟨queues.outbox, queues.closed⟩
    rcases queues_send middle owner connection (.next name response) with
        first | ⟨first, here, -⟩ <;>
      rcases queues_send (middle.send owner (.next name response)) owner connection
          (.complete name) with second | ⟨second, there, -⟩ <;>
      have both := (quiet.trans first phase).trans second (sent.trans phase)
    · refine sends_nothing ?_
      rw [finished]
      exact both.outbox.trans (List.append_nil _)
    · exact result there (List.sublist_cons_self _ _) both
    · exact result here (List.singleton_sublist.mpr List.mem_cons_self) both
    · exact result here (List.Sublist.refl _) both

/-- The step of a drain completes what is registered on a connection, and closes that. -/
theorem sends_complete (server : Server σ) (task : TaskId) (action : Action)
    (closed connection : ConnectionId) (next : Task) :
    Sends connection server action ((server.completeConnection closed).2.become task next) := by
  unfold completeConnection
  rcases server.registry.purge closed with ⟨purged, registry⟩
  dsimp only
  obtain ⟨messages, queues, sent⟩ :=
    queues_foldl purged (fun (server : Server σ) name => server.send closed (.complete name))
      (fun name message =>
        closed = connection ∧ server.phase? connection ≠ none ∧ message = .complete name)
      (server.phase? connection) (fun server name => idle_send server closed _) (by
      intro other name same
      rcases queues_send other closed connection (.complete name) with
        refused | ⟨queues, here, known⟩
      · exact ⟨[], refused, nofun⟩
      · rw [same] at known
        exact ⟨_, queues, fun message member => ⟨here, known, List.mem_singleton.mp member⟩⟩)
    { server with registry } rfl
  have idle : Idle { server with registry } (purged.foldl (fun (server : Server σ) name =>
      server.send closed (.complete name)) { server with registry }) :=
    idle_foldl purged (fun server name => idle_send server closed _) _
  refine ⟨messages, ⟨(outbox_markClosed _ closed connection).trans queues.outbox, queues.closed⟩,
    .drain ?_⟩
  intro message member
  obtain ⟨name, -, rfl, known, same⟩ := sent message member
  refine ⟨?_, name, same⟩
  refine (phase?_markClosed _ closed closed).trans ?_
  rw [if_pos rfl, idle.phase]
  obtain ⟨phase, found⟩ := Option.ne_none_iff_exists'.mp known
  change Option.map _ (server.phase? closed) = _
  rw [found]
  rfl

theorem sends_advance (server : Server σ) (task : TaskId) (connection : ConnectionId) :
    Sends connection server (.advance task) (server.advance task) := by
  cases found : Ordered.get? server.tasks task with
  | none =>
    rw [advance, found]
    exact sends_nothing rfl
  | some kind =>
    cases kind with
    | query owner name job => exact sends_query found connection
    | purge closed =>
      rw [advance, found]
      refine sends_nothing ?_
      dsimp only
      unfold purge
      dsimp only
      split
      · rfl
      · exact outbox_markClosed _ closed connection
    | register owner name operation =>
      rw [advance, found]
      dsimp only
      unfold registerSubscription
      dsimp only
      split
      · exact sends_reply .refusal rfl rfl rfl
      · split <;> exact sends_nothing rfl
    | withdraw owner name registration =>
      rw [advance, found]
      dsimp only
      unfold withdraw
      dsimp only
      split
      · exact sends_reply .refusal rfl rfl rfl
      · exact sends_nothing rfl
    | unregister owner name =>
      rw [advance, found]
      exact sends_nothing rfl
    | request job =>
      rcases advance_request found with
        waits | ⟨middle, -, connections, ⟨rest, goesOn⟩ | ⟨response, gates, world, -, finished⟩⟩
      · rw [waits]
        exact sends_nothing rfl
      · rw [goesOn]
        exact sends_nothing (outbox_of_connections connections connection)
      · rw [finished]
        exact sends_nothing (outbox_of_connections connections connection)
    | answered | drained =>
      rw [advance, found]
      exact sends_nothing rfl
    | drain connections deadline =>
      rw [advance, found]
      dsimp only
      split <;> exact sends_nothing rfl
    | complete remaining report =>
      rw [advance, found]
      cases remaining with
      | nil => exact sends_nothing rfl
      | cons closed rest => exact sends_complete server task _ closed connection _

theorem sends_act (housed : Housed server) (action : Action) (connection : ConnectionId) :
    Sends connection server action (server.act action) := by
  cases action with
  | openConnection =>
    unfold act openConnection
    dsimp only
    split
    · exact sends_nothing rfl
    · refine sends_nothing ?_
      rw [outbox, Server.connection?, Ordered.get?_insert]
      split
      · rename_i same
        cases found : server.connection? connection with
        | none =>
          rw [outbox, found]
          rfl
        | some known =>
          have bound := housed.opened connection known.phase (by rw [phase?, found]; rfl)
          rw [← same] at bound
          exact absurd bound (Nat.not_succ_le_self _)
      · rfl
  | handle id message => exact sends_handle server id connection message
  | close id => exact sends_close server _ id connection
  | publish event =>
    obtain ⟨messages, queues, sent⟩ := queues_publish server event connection
    exact ⟨messages, queues, .events sent⟩
  | pump =>
    unfold act pump
    dsimp only
    split
    · rename_i event channel _
      obtain ⟨messages, queues, sent⟩ :=
        queues_publish { server with world.channel := channel } event connection
      exact ⟨messages, ⟨queues.outbox, queues.closed⟩, .events sent⟩
    · exact sends_nothing rfl
  | submit request =>
    unfold act submit
    dsimp only
    split
    · exact sends_nothing rfl
    · split
      · exact sends_nothing rfl
      · split <;> exact sends_nothing rfl
  | beginDrain =>
    exact sends_nothing
      (outbox_foldl server.live (fun server id => outbox_beginClosing server id connection) _)
  | advance task => exact sends_advance server task connection
  | release | wait => exact sends_nothing rfl
  | reload schema =>
    obtain ⟨engine, reloaded⟩ := act_reload server schema
    rw [reloaded]
    exact sends_nothing rfl

end Server

end MockGraph
