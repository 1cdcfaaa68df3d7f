import MockGraph.Proofs.Execution.Arguments
import MockGraph.Proofs.Server.Rejection
import MockGraph.Proofs.Server.StartSteps
set_option autoImplicit false

namespace MockGraph

variable {σ : Type}

/-- A call of a handler, the state that it meets, and its reply. -/
structure Exchange (σ : Type) where
  call : HandlerCall σ
  met : σ
  reply : Reply σ

namespace Exchange

def leave (met : σ) (exchanges : List (Exchange σ)) : σ :=
  exchanges.foldl (fun _ exchange => exchange.reply.state) met

def published (exchanges : List (Exchange σ)) : List Event := exchanges.flatMap (·.reply.events)

end Exchange

namespace HandlerCall

variable {context : Context} {calls : List (HandlerCall σ)} {met : σ}

/-- What calls and their handlers tell each other, one call after the other. -/
def exchanges (context : Context) : List (HandlerCall σ) → σ → List (Exchange σ)
  | [], _ => []
  | call :: rest, met =>
    let reply := call.handler.answer call.field.arguments context met
    ⟨call, met, reply⟩ :: exchanges context rest reply.state

theorem foldl_perform (context : Context) (calls : List (HandlerCall σ)) (met : σ)
    (channel : Channel) :
    calls.foldl (perform context) (met, channel) =
      (Exchange.leave met (exchanges context calls met),
        channel.publishAll (Exchange.published (exchanges context calls met))) := by
  induction calls generalizing met channel with
  | nil => rfl
  | cons call rest ih =>
    rw [List.foldl_cons, perform, ih]
    simp only [exchanges, Exchange.leave, Exchange.published, List.foldl_cons, List.flatMap_cons,
      Channel.publishAll, List.foldl_append]

theorem mem_exchanges {exchange : Exchange σ} (member : exchange ∈ exchanges context calls met) :
    exchange.call ∈ calls ∧
      exchange.reply =
        exchange.call.handler.answer exchange.call.field.arguments context exchange.met := by
  induction calls generalizing met with
  | nil => cases member
  | cons call rest ih =>
    rcases List.mem_cons.mp member with rfl | later
    · exact ⟨List.mem_cons_self, rfl⟩
    · exact ⟨List.mem_cons_of_mem _ (ih later).1, (ih later).2⟩

/-- What handlers keep of the state holds whenever one is called, and after all. -/
theorem exchanges_keep {kept : σ → Prop}
    (keeps : ∀ call ∈ calls, ∀ met, kept met →
      kept (call.handler.answer call.field.arguments context met).state) (now : kept met) :
    (∀ exchange ∈ exchanges context calls met, kept exchange.met) ∧
      kept (Exchange.leave met (exchanges context calls met)) := by
  induction calls generalizing met with
  | nil => exact ⟨nofun, now⟩
  | cons call rest ih =>
    have next := keeps call List.mem_cons_self met now
    obtain ⟨each, last⟩ := ih (fun other member => keeps other (List.mem_cons_of_mem _ member)) next
    refine ⟨?_, last⟩
    intro exchange member
    rcases List.mem_cons.mp member with rfl | later
    · exact now
    · exact each exchange later

end HandlerCall

theorem Channel.isRead_publishAll (channel : Channel) (events : List Event) :
    (channel.publishAll events).isRead = channel.isRead := by
  induction events generalizing channel with
  | nil => rfl
  | cons event rest ih =>
    have step : (channel.publish event).isRead = channel.isRead := by
      unfold publish
      split <;> rfl
    exact (ih (channel.publish event)).trans step

namespace Engine

variable {engine : Engine σ}

/-- Handlers wait at no gate, and answer no subscription. -/
structure Prompt (engine : Engine σ) : Prop where
  ungated {root field : String} {handler : Handler σ} :
    engine.handlers.find? root field = some handler → handler.gate = none
  unanswered {root : String} (field : String) : engine.schema.root? .subscription = some root →
    engine.handlers.find? root field = none

/-- A handler that an operation calls is the one of a field of its root type. -/
theorem handler_of_mem_calls {operation : Operation} {world : World σ} {call : HandlerCall σ}
    (member : call ∈ engine.calls operation world) :
    ∃ root, engine.schema.root? operation.kind = some root ∧
      engine.handlers.find? root call.field.name = some call.handler := by
  unfold calls at member
  split at member
  · rename_i run started
    obtain ⟨root, known, -, ⟨error, -, impossible⟩ | ⟨seed, -, same⟩⟩ := start_cases started
    · cases impossible
    · cases same
      exact ⟨root, known, (Run.mem_calls member).2.2.2⟩
  · cases member

theorem Prompt.handled_run (prompt : engine.Prompt) {operation : Operation}
    (subscription : operation.kind = .subscription) (payload : Option Json) (world : World σ) :
    (engine.run operation payload world).2.handled = world.handled := by
  unfold Engine.run
  cases started : engine.start operation payload with
  | error rejection => rfl
  | ok progress =>
    cases progress with
    | finished response => rfl
    | running run =>
      obtain ⟨root, known, -, ⟨error, -, impossible⟩ | ⟨seed, -, same⟩⟩ := start_cases started
      · cases impossible
      · cases same
        rw [subscription] at known
        have uncalled : Run.calls engine operation.selection
            ⟨engine.schema, root, seed, operation.context, payload, [], []⟩ world = [] := by
          rw [List.eq_nil_iff_forall_not_mem]
          intro call member
          have found := (Run.mem_calls member).2.2.2
          rw [prompt.unanswered _ known] at found
          cases found
        have performed := Run.finish_performs engine operation.selection
          ⟨engine.schema, root, seed, operation.context, payload, [], []⟩ world
        rw [uncalled] at performed
        exact performed

end Engine

namespace Job

theorem proceed_eq_finish {engine : Engine σ} (prompt : engine.Prompt)
    (selection : List FieldSelection) (run : Run) (gates : Gates) (world : World σ) :
    proceed engine selection run false gates world =
      (.finished (run.finish engine selection world).1, gates,
        (run.finish engine selection world).2) := by
  induction selection generalizing run world with
  | nil => rfl
  | cons field rest ih =>
    have ungated : gate? engine run field = none := by
      unfold gate?
      cases called : run.call? engine.handlers field with
      | none =>
        rw [Run.call?, Option.map_eq_none_iff] at called
        rw [called]
        rfl
      | some call =>
        have found := (Run.call?_eq_some called).2.2.2
        obtain ⟨handler, handles, rfl⟩ := Option.map_eq_some_iff.mp called
        rw [handles]
        exact prompt.ungated found
    unfold proceed
    dsimp only
    rw [ungated, Run.finish]
    rcases run.step engine field world with ⟨progress, after⟩
    cases progress with
    | running next => exact ih next after
    | finished response => rfl

/-- Without gates, an operation that is begun runs to its end. -/
theorem resume_queued {engine : Engine σ} (prompt : engine.Prompt) (operation : Operation)
    (gates : Gates) (world : World σ) :
    resume engine (.queued operation) gates world =
      (.finished (responseOfRun (engine.execute operation world).1), gates,
        (engine.execute operation world).2) := by
  unfold resume Engine.execute Engine.run
  dsimp only
  cases engine.start operation none with
  | error rejection => rfl
  | ok progress =>
    cases progress with
    | finished response => rfl
    | running run =>
      dsimp only
      rw [proceed_eq_finish prompt]
      rfl

end Job

def Task.job? : Task → Option Job
  | query _ _ job | request job => some job
  | _ => none

theorem Task.job?_permit (task : Task) : task.permit.job? = task.job?.map Job.permit := by
  cases task <;> rfl

/-- Events come over the channel alone, and the schema stays. -/
def Action.isWired : Action → Bool
  | publish _ | reload _ => false
  | _ => true

namespace Server

variable {server before middle after : Server σ}

/-- The job of the task of a number, if it has one. -/
def job? (server : Server σ) (id : TaskId) : Option Job :=
  (Ordered.get? server.tasks id).bind Task.job?

/-- The engine and the world stay as they are. -/
structure Rests (before after : Server σ) : Prop where
  engine : after.engine = before.engine
  world : after.world = before.world

namespace Rests

theorem refl (server : Server σ) : Rests server server := ⟨rfl, rfl⟩

theorem trans (first : Rests before middle) (second : Rests middle after) : Rests before after :=
  ⟨second.engine.trans first.engine, second.world.trans first.world⟩

end Rests

theorem rests_foldl {α : Type} (items : List α) {step : Server σ → α → Server σ}
    (rests : ∀ server item, Rests server (step server item)) (server : Server σ) :
    Rests server (items.foldl step server) := by
  induction items generalizing server with
  | nil => exact .refl server
  | cons item rest ih => exact (rests server item).trans (ih (step server item))

theorem rests_adjust (server : Server σ) (id : ConnectionId) (change : Connection → Connection) :
    Rests server (server.adjust id change) := ⟨rfl, rfl⟩

theorem rests_close (server : Server σ) (connection : ConnectionId) :
    Rests server (server.close connection).2 := by
  unfold close
  split
  · exact .refl server
  · exact ⟨rfl, rfl⟩

theorem rests_advance {id : TaskId} (other : server.job? id = none) :
    Rests server (server.advance id) := by
  unfold advance
  cases found : Ordered.get? server.tasks id with
  | none => exact .refl server
  | some task =>
    rw [job?, found, Option.bind_some] at other
    cases task with
    | purge connection =>
      dsimp only
      unfold purge
      dsimp only
      split <;> exact ⟨rfl, rfl⟩
    | register connection name operation =>
      dsimp only
      unfold registerSubscription
      dsimp only
      split
      · exact ⟨rfl, rfl⟩
      · split <;> exact ⟨rfl, rfl⟩
    | withdraw connection name registration =>
      dsimp only
      unfold withdraw
      dsimp only
      split <;> exact ⟨rfl, rfl⟩
    | query | request => cases other
    | drain connections deadline =>
      dsimp only
      split
      · exact .refl server
      · exact ⟨rfl, rfl⟩
    | complete remaining report =>
      cases remaining with
      | nil => exact ⟨rfl, rfl⟩
      | cons connection rest =>
        have sent := rests_foldl (server.registry.purge connection).1
          (fun (server : Server σ) name => rests_adjust server connection (·.send (.complete name)))
          { server with registry := (server.registry.purge connection).2 }
        exact ⟨sent.engine, sent.world⟩
    | unregister | answered | drained => exact ⟨rfl, rfl⟩

/-- Apart from the steps of tasks, wired actions change the world only when they take an event. -/
theorem rests_act {action : Action} (wired : action.isWired = true) (unpumped : action ≠ .pump)
    (unstepped : ∀ id, action ≠ .advance id) : Rests server (server.act action) := by
  cases action with
  | openConnection =>
    unfold act openConnection
    dsimp only
    split
    · exact .refl server
    · exact ⟨rfl, rfl⟩
  | handle connection message =>
    unfold act handle
    cases message with
    | connectionTerminate => exact rests_close server connection
    | start name request =>
      unfold startOperation
      dsimp only
      split
      · exact ⟨rfl, rfl⟩
      · split <;> exact ⟨rfl, rfl⟩
    | connectionInit | ping | pong | stop => exact ⟨rfl, rfl⟩
  | close connection => exact rests_close server connection
  | submit request =>
    unfold act submit
    dsimp only
    split
    · exact .refl server
    · split
      · exact .refl server
      · split <;> exact ⟨rfl, rfl⟩
  | beginDrain =>
    have closing :=
      rests_foldl server.live
        (fun (server : Server σ) id => rests_adjust server id (·.beginClosing))
        { server with draining := true }
    exact ⟨closing.engine, closing.world⟩
  | release | wait => exact ⟨rfl, rfl⟩
  | pump => exact absurd rfl unpumped
  | advance id => exact absurd rfl (unstepped id)
  | publish | reload => cases wired

theorem act_pump_nil (empty : server.world.channel.queue = []) : server.act .pump = server := by
  have read : server.world.channel.next =
      (if server.world.channel.publishers = 0 then .ended else .pending, server.world.channel) := by
    rw [Channel.next, empty]
  rw [act, pump, read]
  by_cases ended : server.world.channel.publishers = 0 <;> simp [ended]

theorem next_cons {event : Event} {rest : List Event}
    (waiting : server.world.channel.queue = event :: rest) :
    server.world.channel.next = (.event event, { server.world.channel with queue := rest }) := by
  rw [Channel.next, waiting]

/-- The channel is empty and stays so, or its first event is delivered. -/
theorem act_pump (server : Server σ) :
    (server.world.channel.queue = [] ∧ server.act .pump = server) ∨
      ∃ event rest, server.world.channel.queue = event :: rest ∧
        server.world.channel.next = (.event event, { server.world.channel with queue := rest }) ∧
        server.act .pump =
          ({ server with world.channel := { server.world.channel with queue := rest } }.publish
            event).2 := by
  cases waiting : server.world.channel.queue with
  | nil => exact .inl ⟨rfl, act_pump_nil waiting⟩
  | cons event rest =>
    have read := next_cons waiting
    refine .inr ⟨event, rest, rfl, read, ?_⟩
    rw [act, pump, read]

/-- A job that is new, or was there before, perhaps without its permit. -/
inductive Continues (server : Server σ) (id : TaskId) : Job → Prop
  | queued (operation : Operation) : Continues server id (.queued operation)
  | kept {job : Job} : server.job? id = some job → Continues server id job
  | permit {job : Job} : server.job? id = some job → Continues server id job.permit

namespace Continues

variable {id : TaskId} {job : Job}

theorem of_tasks (same : after.tasks = server.tasks) (found : after.job? id = some job) :
    Continues server id job := by
  rw [job?, same] at found
  exact .kept found

theorem of_spawn {before : Server σ} {task : Task} (same : before.tasks = server.tasks)
    (begun : task.job? = some job → Continues server id job)
    (found : (before.spawn task).2.job? id = some job) : Continues server id job := by
  rw [job?, get?_spawn, same] at found
  split at found
  · exact begun found
  · exact .kept found

theorem of_queued {operation : Operation} (begun : some (.queued operation) = some job) :
    Continues server id job := by
  cases begun
  exact .queued operation

theorem of_close {connection : ConnectionId}
    (found : (server.close connection).2.job? id = some job) : Continues server id job := by
  unfold close at found
  split at found
  · exact .kept found
  · refine of_spawn ?_ ?_ found
    · rfl
    · intro begun
      cases begun

theorem of_start {connection : ConnectionId} {name : String} {request : Request}
    (found : (server.startOperation connection name request).2.job? id = some job) :
    Continues server id job := by
  unfold startOperation at found
  dsimp only at found
  split at found
  · exact of_tasks rfl found
  · split at found
    · exact of_tasks rfl found
    · refine of_spawn rfl ?_ found
      intro begun
      split at begun
      · cases begun
      · exact of_queued begun

theorem of_submit {request : Request} (found : (server.submit request).2.job? id = some job) :
    Continues server id job := by
  unfold submit at found
  dsimp only at found
  split at found
  · exact .kept found
  · split at found
    · exact .kept found
    · split at found
      · exact .kept found
      · refine of_spawn rfl ?_ found
        intro begun
        exact of_queued begun

theorem of_release {gate : String} {count : Nat}
    (found : (server.release gate count).2.job? id = some job) : Continues server id job := by
  rcases get?_foldl_permit (server.gates.release gate count).1 server.tasks id with same | woken
  · exact .kept ((congrArg (Option.bind · Task.job?) same).symm.trans found)
  · have found := (congrArg (Option.bind · Task.job?) woken).symm.trans found
    rw [Option.bind_map, Option.bind_eq_some_iff] at found
    obtain ⟨task, present, permitted⟩ := found
    rw [Function.comp_apply, Task.job?_permit] at permitted
    obtain ⟨old, earlier, rfl⟩ := Option.map_eq_some_iff.mp permitted
    exact .permit (by rw [job?, present]; exact earlier)

end Continues

/-- Actions other than the steps of tasks begin jobs and give them permits. -/
theorem continues_act {action : Action} (unstepped : ∀ id, action ≠ .advance id) {id : TaskId}
    {job : Job} (found : (server.act action).job? id = some job) : Continues server id job := by
  cases action with
  | openConnection =>
    unfold act openConnection at found
    dsimp only at found
    split at found <;> exact .of_tasks rfl found
  | handle connection message =>
    cases message with
    | connectionTerminate => exact .of_close found
    | stop name =>
      refine .of_spawn rfl ?_ found
      intro begun
      cases begun
    | start name request => exact .of_start found
    | connectionInit | ping | pong => exact .of_tasks rfl found
  | close connection => exact .of_close found
  | publish event => exact .of_tasks (idle_publish server event).tasks found
  | pump =>
    rcases act_pump server with ⟨-, same⟩ | ⟨event, rest, -, -, pumped⟩
    · rw [same] at found
      exact .kept found
    · rw [pumped] at found
      refine .of_tasks ?_ found
      exact (idle_publish _ event).tasks
  | submit request => exact .of_submit found
  | beginDrain =>
    rw [act, job?, (beginsDrain server).tasks] at found
    split at found
    · cases found
    · exact .kept found
  | advance id => exact absurd rfl (unstepped id)
  | release gate count => exact .of_release found
  | reload schema =>
    obtain ⟨engine, reloaded⟩ := act_reload server schema
    rw [reloaded] at found
    exact .of_tasks rfl found
  | wait milliseconds => exact .of_tasks rfl found

/-- What handlers are asked and reply with an action. -/
def exchanges (server : Server σ) : Action → List (Exchange σ)
  | .advance id =>
    match server.job? id with
    | some (.queued operation) =>
      HandlerCall.exchanges operation.context (server.engine.calls operation server.world)
        server.world.state
    | _ => []
  | _ => []

/-- The event that an action takes from the channel. -/
def taken (server : Server σ) : Action → List Event
  | .pump => server.world.channel.queue.head?.toList
  | _ => []

/-- What becomes of events over an action: what is taken was the first in the channel, and what
handlers publish is the last. -/
structure Flows (server : Server σ) (action : Action) (after : Server σ) : Prop where
  engine : after.engine = server.engine
  state : after.world.state = Exchange.leave server.world.state (server.exchanges action)
  isRead : after.world.channel.isRead = true
  queue : server.taken action ++ after.world.channel.queue =
    server.world.channel.queue ++ Exchange.published (server.exchanges action)

/-- A job that is begun is over with one step, if no handler waits at a gate. -/
theorem advance_queued (prompt : server.engine.Prompt) {id : TaskId} {operation : Operation}
    (found : server.job? id = some (.queued operation)) :
    Rests { server with world := (server.engine.execute operation server.world).2 }
        (server.advance id) ∧ (server.advance id).job? id = none := by
  obtain ⟨task, present, has⟩ := Option.bind_eq_some_iff.mp found
  have resumed := Job.resume_queued prompt operation server.gates server.world
  cases task with
  | query connection name job =>
    cases has
    rw [advance, present]
    dsimp only [Job.isWaiting]
    rw [resumeJob, resumed]
    refine ⟨⟨rfl, rfl⟩, ?_⟩
    change (Ordered.get? (Server.finish _ id).tasks id).bind Task.job? = none
    rw [get?_finish, if_pos rfl]
    rfl
  | request job =>
    cases has
    rw [advance, present]
    dsimp only [Job.isWaiting]
    rw [resumeJob, resumed]
    refine ⟨⟨rfl, rfl⟩, ?_⟩
    change (Ordered.get? (Server.become _ id _).tasks id).bind Task.job? = none
    rw [get?_become, if_pos rfl]
    rfl
  | _ => cases has

theorem rests_publish (server : Server σ) (event : Event) :
    Rests { server with
        world := (server.registry.publish server.engine server.sinkState event server.world).2 }
      (server.publish event).2 :=
  rests_foldl _
    (fun server (delivery : Delivery) => rests_adjust server _ (·.deliver delivery.message)) _

/-- Subscriptions call no handlers when they hear an event. -/
theorem handled_deliver {engine : Engine σ} (prompt : engine.Prompt) (sinks : SinkId → SinkState)
    (event : Event) {registrations : List Registration}
    (subscriptions : ∀ registration ∈ registrations, registration.operation.kind = .subscription)
    (world : World σ) :
    (Registry.deliver engine sinks event registrations world).2.handled = world.handled := by
  induction registrations generalizing world with
  | nil => rfl
  | cons registration rest ih =>
    have later := ih fun other member => subscriptions other (List.mem_cons_of_mem _ member)
    have now : (registration.offer event ⟨engine, sinks registration.sink, world⟩).2.handled =
        world.handled := by
      have executed :=
        prompt.handled_run (subscriptions registration List.mem_cons_self) (some event.payload)
          world
      unfold Registration.offer
      split
      · rfl
      · dsimp only
        split <;> exact executed
    rw [Registry.deliver]
    exact (later _).trans now

/-- What holds between any two actions, as long as events come over the channel alone. -/
structure Wired (engine : Engine σ) (server : Server σ) : Prop where
  engine : server.engine = engine
  isRead : server.world.channel.isRead = true
  queued : ∀ id job, server.job? id = some job → ∃ operation, job = .queued operation
  subscriptions : ∀ registration ∈ server.registry.registered,
      registration.operation.kind = .subscription
  addressed : Addressed server
  swept : Swept server

namespace Wired

variable {engine : Engine σ}

theorem start (engine : Engine σ) {world : World σ} (isRead : world.channel.isRead = true)
    (drainTimeout : Nat) : Wired engine (start engine world drainTimeout) := by
  refine ⟨rfl, isRead, ?_, ?_, ?_, swept_start engine world drainTimeout⟩
  · intro id job found
    cases found
  · intro registration member
    cases member
  · intro registration member
    cases member

theorem flows_rests {action : Action} (wired : Wired engine server) (rests : Rests server after)
    (taken : server.taken action = []) (exchanges : server.exchanges action = []) :
    Flows server action after := by
  refine ⟨rests.engine, ?_, ?_, ?_⟩
  · rw [rests.world, exchanges]
    rfl
  · rw [rests.world]
    exact wired.isRead
  · rw [rests.world, taken, exchanges]
    exact (List.append_nil _).symm

theorem flows_advance (wired : Wired engine server) (prompt : engine.Prompt) (id : TaskId) :
    Flows server (.advance id) (server.act (.advance id)) := by
  cases found : server.job? id with
  | none =>
    apply wired.flows_rests (rests_advance found) rfl
    rw [exchanges, found]
  | some job =>
    obtain ⟨operation, rfl⟩ := wired.queued id job found
    have rests := (advance_queued (by rw [wired.engine]; exact prompt) found).1
    have handled := (server.engine.execute_performs operation server.world).1
    rw [World.handled, World.handled, HandlerCall.foldl_perform, Prod.mk.injEq] at handled
    obtain ⟨state, channel⟩ := handled
    have asked : server.exchanges (.advance id) = HandlerCall.exchanges operation.context
        (server.engine.calls operation server.world) server.world.state := by
      rw [exchanges, found]
    rw [← asked] at state channel
    have world : (server.act (.advance id)).world =
        (server.engine.execute operation server.world).2 := rests.world
    refine ⟨rests.engine, ?_, ?_, ?_⟩
    · rw [world, state]
    · rw [world, channel, Channel.isRead_publishAll]
      exact wired.isRead
    · rw [world, channel, Channel.publishAll_queue _ _ wired.isRead]
      rfl

theorem flows_pump (wired : Wired engine server) (prompt : engine.Prompt) :
    Flows server .pump (server.act .pump) := by
  rcases act_pump server with ⟨empty, same⟩ | ⟨event, rest, waiting, -, pumped⟩
  · rw [same]
    apply wired.flows_rests (.refl server) _ rfl
    rw [taken, empty]
    rfl
  · let popped : Server σ :=
      { server with world.channel := { server.world.channel with queue := rest } }
    have rests := rests_publish popped event
    have handled :=
      handled_deliver (by rw [wired.engine]; exact prompt : server.engine.Prompt) popped.sinkState
        event wired.subscriptions popped.world
    have state := congrArg Prod.fst handled
    have channel := congrArg Prod.snd handled
    rw [pumped]
    refine ⟨rests.engine, ?_, ?_, ?_⟩
    · rw [rests.world]
      exact state
    · rw [rests.world]
      exact (congrArg Channel.isRead channel).trans wired.isRead
    · have queue : (popped.publish event).2.world.channel.queue = rest := by
        rw [rests.world]
        exact congrArg Channel.queue channel
      rw [queue, taken, waiting]
      exact (List.append_nil _).symm

/-- Events are neither lost nor made up with an action, and they keep their order. -/
theorem flows (wired : Wired engine server) (prompt : engine.Prompt) {action : Action}
    (isWired : action.isWired = true) : Flows server action (server.act action) := by
  by_cases pumps : action = .pump
  · rw [pumps]
    exact wired.flows_pump prompt
  by_cases steps : ∃ id, action = .advance id
  · obtain ⟨id, rfl⟩ := steps
    exact wired.flows_advance prompt id
  · have unstepped := not_exists.mp steps
    apply wired.flows_rests (rests_act isWired pumps unstepped)
    · cases action with
      | pump => exact absurd rfl pumps
      | _ => rfl
    · cases action with
      | advance id => exact absurd rfl (unstepped id)
      | _ => rfl

theorem queued_of_continues (wired : Wired engine server) {id : TaskId} {job : Job}
    (continues : Continues server id job) : ∃ operation, job = .queued operation := by
  cases continues with
  | queued operation => exact ⟨operation, rfl⟩
  | kept earlier => exact wired.queued id job earlier
  | @permit old earlier =>
    obtain ⟨operation, rfl⟩ := wired.queued id old earlier
    exact ⟨operation, rfl⟩

theorem continues_advance (wired : Wired engine server) (prompt : engine.Prompt) {own id : TaskId}
    {job : Job} (found : (server.act (.advance own)).job? id = some job) :
    Continues server id job := by
  obtain ⟨task, present, has⟩ := Option.bind_eq_some_iff.mp found
  rcases (moves_act server (.advance own)).lookup id with
    same | woken | ⟨steps, old, earlier, goes⟩ | ⟨new, -⟩
  · apply Continues.kept
    rw [job?, ← same]
    exact found
  · rw [woken] at present
    obtain ⟨old, earlier, rfl⟩ := Option.map_eq_some_iff.mp present
    rw [Task.job?_permit] at has
    obtain ⟨before, had, rfl⟩ := Option.map_eq_some_iff.mp has
    apply Continues.permit
    rw [job?, earlier]
    exact had
  · obtain rfl := Action.advance.inj steps
    cases had : server.job? own with
    | some before =>
      obtain ⟨operation, rfl⟩ := wired.queued own before had
      have ended := (advance_queued (by rw [wired.engine]; exact prompt) had).2
      rw [Server.act, ended] at found
      cases found
    | none =>
      -- What a task without a job becomes has none either.
      rw [present] at goes
      rw [job?, earlier, Option.bind_some] at had
      cases goes with
      | on follows =>
        cases follows with
        | query | request => cases had
        | withdraw | answered | complete | drained => cases has
      | completes => cases has
  · have given := (wired.swept.act (.advance own)).numbered id task present
    rw [Server.act, nextTask_advance, ← new] at given
    exact absurd given (Nat.lt_irrefl _)

theorem queued_act (wired : Wired engine server) (prompt : engine.Prompt) (action : Action)
    (id : TaskId) (job : Job) (found : (server.act action).job? id = some job) :
    ∃ operation, job = .queued operation := by
  apply wired.queued_of_continues
  by_cases steps : ∃ own, action = .advance own
  · obtain ⟨own, rfl⟩ := steps
    exact wired.continues_advance prompt found
  · exact continues_act (not_exists.mp steps) found

theorem subscriptions_act (wired : Wired engine server) (action : Action)
    (registration : Registration)
    (member : registration ∈ (server.act action).registry.registered) :
    registration.operation.kind = .subscription := by
  rcases mem_registered_act wired.swept.consistent member with old | ⟨id, task, -, -, makes⟩
  · exact wired.subscriptions registration old
  · obtain ⟨operation, rfl⟩ := makes.begun
    have accepted := makes.accepted _ _ operation rfl
    unfold Registry.register at accepted
    split at accepted
    · cases accepted
    · rename_i subscription
      dsimp only at accepted
      split at accepted
      · cases accepted
      · have made := (Except.ok.inj (congrArg Prod.fst accepted)).symm
        rw [made]
        exact Decidable.not_not.mp subscription

theorem act (wired : Wired engine server) (prompt : engine.Prompt) {action : Action}
    (isWired : action.isWired = true) : Wired engine (server.act action) := by
  have flows := wired.flows prompt isWired
  exact ⟨flows.engine.trans wired.engine, flows.isRead, wired.queued_act prompt action,
    wired.subscriptions_act action, wired.addressed.act wired.swept.consistent action,
    wired.swept.act action⟩

theorem run (wired : Wired engine server) (prompt : engine.Prompt) {actions : List Action}
    (isWired : ∀ action ∈ actions, action.isWired = true) : Wired engine (server.run actions) := by
  induction actions generalizing server with
  | nil => exact wired
  | cons action rest ih =>
    have next := wired.act prompt (isWired action List.mem_cons_self)
    exact ih next fun other member => isWired other (List.mem_cons_of_mem _ member)

end Wired

end Server

end MockGraph
