import Mathlib.Data.List.Forall2
import MockGraph.Proofs.Server.Events
set_option autoImplicit false

namespace MockGraph

variable {σ : Type}

/-- A message tells a subscriber what an event comes to for its operation. -/
def Registration.Tells (registration : Registration) (engine : Engine σ) (event : Event)
    (message : ServerMessage) : Prop :=
  ∃ world, message = .next registration.operationId
    (responseOfRun (engine.executeEvent registration.operation event.payload world).1)

namespace Server

variable {server : Server σ} {engine : Engine σ} {registration : Registration}

/-- What actions bring, one after the other. -/
def collect {α : Type} (each : Server σ → Action → List α) : Server σ → List Action → List α
  | _, [] => []
  | server, action :: rest => each server action ++ collect each (server.act action) rest

theorem mem_collect {α : Type} {each : Server σ → Action → List α} {actions : List Action}
    {item : α} (member : item ∈ server.collect each actions) :
    ∃ front action back, actions = front ++ action :: back ∧
      item ∈ each (server.run front) action := by
  induction actions generalizing server with
  | nil => cases member
  | cons action rest ih =>
    rcases List.mem_append.mp member with now | later
    · exact ⟨[], action, rest, rfl, now⟩
    · obtain ⟨front, other, back, rfl, inside⟩ := ih later
      exact ⟨action :: front, other, back, rfl, inside⟩

/-- Every event that was published was taken once, in order, or is still in the channel. -/
theorem Wired.flows_run (wired : Wired engine server) (prompt : engine.Prompt)
    {actions : List Action} (isWired : ∀ action ∈ actions, action.isWired = true) :
    server.collect taken actions ++ (server.run actions).world.channel.queue =
      server.world.channel.queue ++ Exchange.published (server.collect exchanges actions) := by
  induction actions generalizing server with
  | nil => exact (List.append_nil _).symm
  | cons action rest ih =>
    have now := isWired action List.mem_cons_self
    have later :=
      ih (wired.act prompt now) fun other member => isWired other (List.mem_cons_of_mem _ member)
    calc server.collect taken (action :: rest) ++ (server.run (action :: rest)).world.channel.queue
        = server.taken action ++ ((server.act action).collect taken rest ++
            ((server.act action).run rest).world.channel.queue) := List.append_assoc _ _ _
      _ = (server.taken action ++ (server.act action).world.channel.queue) ++
            Exchange.published ((server.act action).collect exchanges rest) := by
          rw [later, List.append_assoc]
      _ = (server.world.channel.queue ++ Exchange.published (server.exchanges action)) ++
            Exchange.published ((server.act action).collect exchanges rest) := by
          rw [(wired.flows prompt now).queue]
      _ = server.world.channel.queue ++
            Exchange.published (server.collect exchanges (action :: rest)) := by
          rw [List.append_assoc, collect]
          simp only [Exchange.published, List.flatMap_append]

/-- Handlers are asked for root fields of one operation, and reply to the state that they meet. -/
theorem exchange_of_mem {action : Action} {exchange : Exchange σ}
    (member : exchange ∈ server.exchanges action) :
    ∃ (operation : Operation) (root : String),
      server.engine.schema.root? operation.kind = some root ∧
        server.engine.handlers.find? root exchange.call.field.name = some exchange.call.handler ∧
        exchange.reply =
          exchange.call.handler.answer exchange.call.field.arguments operation.context
            exchange.met := by
  unfold exchanges at member
  split at member
  · split at member
    · rename_i operation found
      obtain ⟨called, replied⟩ := HandlerCall.mem_exchanges member
      obtain ⟨root, known, found⟩ := Engine.handler_of_mem_calls called
      exact ⟨operation, root, known, found, replied⟩
    · cases member
  · cases member

section Kept

variable {kept : σ → Prop}
  (keeps : ∀ root field handler, engine.handlers.find? root field = some handler →
    ∀ arguments context met, kept met → kept (handler.answer arguments context met).state)
include keeps

/-- What all handlers keep of the state holds whenever one is asked, and after the action. -/
theorem Wired.kept_act (wired : Wired engine server) (prompt : engine.Prompt)
    (now : kept server.world.state) {action : Action} (isWired : action.isWired = true) :
    (∀ exchange ∈ server.exchanges action, kept exchange.met) ∧
      kept (server.act action).world.state := by
  rw [(wired.flows prompt isWired).state]
  unfold exchanges
  split
  · split
    · apply HandlerCall.exchanges_keep _ now
      intro call member
      obtain ⟨root, -, found⟩ := Engine.handler_of_mem_calls member
      rw [wired.engine] at found
      exact keeps root call.field.name call.handler found call.field.arguments _
    · exact ⟨nofun, now⟩
  · exact ⟨nofun, now⟩

theorem Wired.kept_run (wired : Wired engine server) (prompt : engine.Prompt)
    (now : kept server.world.state) {actions : List Action}
    (isWired : ∀ action ∈ actions, action.isWired = true) :
    ∀ exchange ∈ server.collect exchanges actions, kept exchange.met := by
  induction actions generalizing server with
  | nil => nofun
  | cons action rest ih =>
    have first := isWired action List.mem_cons_self
    obtain ⟨each, next⟩ := wired.kept_act keeps prompt now first
    have others :=
      ih (wired.act prompt first) next fun other member =>
        isWired other (List.mem_cons_of_mem _ member)
    intro exchange member
    rcases List.mem_append.mp member with here | later
    · exact each exchange here
    · exact others exchange later

end Kept

/-- What an action delivers of the event that it takes. -/
def deliveries (server : Server σ) : Action → List Delivery
  | .pump =>
    match server.world.channel.next with
    | (.event event, channel) =>
      (server.registry.publish server.engine server.sinkState event { server.world with channel }).1
    | _ => []
  | _ => []

/-- A registration is there, and its connection is open. -/
def hears (server : Server σ) (registration : Registration) : Bool :=
  server.registry.registered.any (·.id = registration.id) &&
    server.phase? registration.connection = some .open

/-- The event on the root field of a registration that an action takes while the registration
hears. -/
def heard (registration : Registration) (server : Server σ) (action : Action) : List Event :=
  if server.hears registration then (server.taken action).filter (·.field = registration.rootField)
  else []

/-- The message that an action delivers to a registration. -/
def received (registration : Registration) (server : Server σ) (action : Action) :
    List ServerMessage :=
  ((server.deliveries action).filter (·.registration = registration.id)).map (·.message)

/-- An action delivers nothing, or it takes an event and delivers it to each registration at its
turn. -/
theorem Wired.deliveries_cases (wired : Wired engine server) (action : Action) :
    (server.taken action = [] ∧ server.deliveries action = []) ∨ ∃ event turn, action = .pump ∧
      server.taken action = [event] ∧
      (∀ registration ∈ server.registry.registered, (turn registration.id).engine = engine ∧
        ((turn registration.id).sink = .accepting ↔
          server.phase? registration.connection = some .open)) ∧
      server.deliveries action =
        (server.registry.act (.publish event turn : Call σ)).delivered := by
  cases action with
  | pump =>
    rcases act_pump server with ⟨empty, -⟩ | ⟨event, rest, waiting, next, -⟩
    · left
      have nothing : server.deliveries .pump = [] := by
        unfold deliveries Channel.next
        rw [empty]
        by_cases ended : server.world.channel.publishers = 0 <;> simp [ended]
      rw [taken, empty]
      exact ⟨rfl, nothing⟩
    · right
      obtain ⟨turn, meets, delivered⟩ :=
        wired.swept.consistent.publish_eq server.engine server.sinkState event
          { server.world with channel := { server.world.channel with queue := rest } }
      refine ⟨event, turn, rfl, ?_, ?_, ?_⟩
      · rw [taken, waiting]
        rfl
      · intro registration member
        obtain ⟨sameEngine, sink⟩ := meets registration member
        rw [sameEngine, sink, wired.addressed registration member, wired.engine]
        exact ⟨rfl, accepting_iff wired.swept.housed registration.connection⟩
      · rw [deliveries, next]
        exact delivered
  | _ => exact Or.inl ⟨rfl, rfl⟩

/-- A registration gets one message for the event that it hears with an action, and otherwise
none. -/
theorem Wired.received_act (wired : Wired engine server)
    (sole : ∀ other ∈ server.registry.registered, other.id = registration.id → other = registration)
    (action : Action) :
    List.Forall₂ (registration.Tells engine) (heard registration server action)
      (received registration server action) := by
  rcases wired.deliveries_cases action with
    ⟨nothing, silent⟩ | ⟨event, turn, rfl, takes, meets, delivered⟩
  · have unheard : heard registration server action = [] := by
      rw [heard, nothing]
      exact ite_self []
    rw [unheard, received, silent]
    exact .nil
  rw [heard, received, takes, delivered]
  by_cases member : registration ∈ server.registry.registered
  · obtain ⟨sameEngine, accepting⟩ := meets registration member
    have present : server.registry.registered.any (·.id = registration.id) = true :=
      List.any_eq_true.mpr ⟨registration, member, decide_eq_true rfl⟩
    rw [wired.swept.consistent.filter_delivered member, Call.messageFor, hears, present]
    by_cases isOpen : server.phase? registration.connection = some .open
    · have takesEvents := accepting.mpr isOpen
      by_cases field : registration.rootField = event.field
      · simp only [isOpen, takesEvents, field, sameEngine, decide_true, Bool.and_self, if_true,
          and_self, List.filter_cons, List.filter_nil, Option.toList_some, List.map_cons,
          List.map_nil]
        exact .cons ⟨_, rfl⟩ .nil
      · simp [isOpen, field, Ne.symm field]
    · have refuses : (turn registration.id).sink ≠ .accepting :=
        fun accepts => isOpen (accepting.mp accepts)
      simp [isOpen, refuses]
  · have absent : ∀ other ∈ server.registry.registered, other.id ≠ registration.id := by
      intro other there same
      rw [sole other there same] at there
      exact member there
    have unheard : server.hears registration = false := by
      rw [hears, Bool.and_eq_false_iff, List.any_eq_false]
      left
      intro other there
      simpa using absent other there
    have silent : (server.registry.act (.publish event turn : Call σ)).delivered.filter
        (·.registration = registration.id) = [] := by
      rw [List.filter_eq_nil_iff]
      intro delivery inside
      obtain ⟨other, there, same⟩ := Registry.mem_delivered inside
      rw [decide_eq_true_eq, same]
      exact absent other there
    rw [unheard, silent]
    exact .nil

/-- A registration stays, or its number is not used any more. -/
theorem Swept.stays_or_spent (swept : Swept server)
    (member : registration ∈ server.registry.registered) (actions : List Action) :
    registration ∈ (server.run actions).registry.registered ∨
      (server.run actions).registry.Spent registration.id := by
  induction actions generalizing server with
  | nil => exact Or.inl member
  | cons action rest ih =>
    have next : registration ∈ (server.act action).registry.registered ∨
        (server.act action).registry.Spent registration.id := by
      apply registry_kept
        (fun registry => registration ∈ registry.registered ∨ registry.Spent registration.id) _
        (Or.inl member)
      intro task
      by_cases stays : registration ∈ (server.registry.settle task).registered
      · exact Or.inl stays
      · exact Or.inr (swept.consistent.spent_of_gone member stays)
    rcases next with stays | spent
    · exact ih (swept.act action) stays
    · exact Or.inr (spent_run (swept.act action) spent rest)

theorem Swept.eq_of_id_eq (swept : Swept server)
    (member : registration ∈ server.registry.registered) {actions : List Action}
    {other : Registration} (later : other ∈ (server.run actions).registry.registered)
    (same : other.id = registration.id) : other = registration := by
  rcases swept.stays_or_spent member actions with stays | spent
  · exact (swept.run actions).consistent.eq_of_id_eq later stays same
  · exact absurd same (spent.closed other later)

/-- The number of a registration is its own over a whole run. -/
theorem Swept.sole (swept : Swept server) {actions front back : List Action}
    (split : actions = front ++ back)
    (member : registration ∈ (server.run front).registry.registered) {before after : List Action}
    (parts : actions = before ++ after) {other : Registration}
    (there : other ∈ (server.run before).registry.registered) (same : other.id = registration.id) :
    other = registration := by
  rcases List.append_eq_append_iff.mp (split.symm.trans parts) with
    ⟨between, rfl, -⟩ | ⟨between, rfl, -⟩
  · rw [run_append] at there
    exact (swept.run front).eq_of_id_eq member there same
  · rw [run_append] at member
    exact ((swept.run before).eq_of_id_eq there member same.symm).symm

/-- Over a whole run, a registration gets one message for each event that it hears, in order. -/
theorem Wired.received_run (wired : Wired engine server) (prompt : engine.Prompt)
    {actions : List Action} (isWired : ∀ action ∈ actions, action.isWired = true)
    (sole : ∀ before after, actions = before ++ after →
      ∀ other ∈ (server.run before).registry.registered, other.id = registration.id →
        other = registration) :
    List.Forall₂ (registration.Tells engine) (server.collect (heard registration) actions)
      (server.collect (received registration) actions) := by
  induction actions generalizing server with
  | nil => exact .nil
  | cons action rest ih =>
    have now := wired.received_act (sole [] (action :: rest) rfl) action
    have next := wired.act prompt (isWired action List.mem_cons_self)
    have later := ih next (fun other member => isWired other (List.mem_cons_of_mem _ member)) (by
      intro before after split
      exact sole (action :: before) after (congrArg (action :: ·) split))
    exact List.rel_append now later

/-- What is delivered is queued on the connections that it is for, in order, and nothing else is
queued with it. -/
theorem Wired.outbox_pump (wired : Wired engine server) (connection : ConnectionId) :
    (server.act .pump).outbox connection = server.outbox connection ++
      ((server.deliveries .pump).filter (·.sink = sinkOf connection)).map (·.message) := by
  by_cases isOpen : server.phase? connection = some .open
  · rcases act_pump server with ⟨empty, same⟩ | ⟨event, rest, -, next, pumped⟩
    · have nothing : server.deliveries .pump = [] := by
        rcases wired.deliveries_cases .pump with ⟨-, nothing⟩ | ⟨event, turn, -, takes, -⟩
        · exact nothing
        · rw [taken, empty] at takes
          cases takes
      rw [same, nothing]
      exact (List.append_nil _).symm
    · rw [pumped, publish, deliveries, next]
      exact outbox_deliveries _ isOpen (wired.swept.housed.attached connection)
  · have refused : (server.deliveries .pump).filter (·.sink = sinkOf connection) = [] := by
      rw [List.filter_eq_nil_iff]
      rcases wired.deliveries_cases .pump with ⟨-, nothing⟩ | ⟨event, turn, -, -, meets, delivered⟩
      · rw [nothing]
        exact List.forall_mem_nil _
      · rw [delivered]
        intro delivery member here
        obtain ⟨registration, inside, offered⟩ := List.mem_filterMap.mp member
        rw [registration.offer_eq] at offered
        obtain ⟨message, told, rfl⟩ := Option.map_eq_some_iff.mp offered
        have own : sinkOf registration.connection = sinkOf connection :=
          (wired.addressed registration inside).symm.trans (of_decide_eq_true here)
        have same : registration.connection = connection :=
          congrArg ConnectionId.mk (SinkId.mk.inj own)
        have accepting := (meets registration inside).2
        dsimp only [Call.messageFor] at told
        split at told
        · rename_i accepted
          rw [← same] at isOpen
          exact isOpen (accepting.mp accepted.2)
        · cases told
    obtain ⟨messages, queues, -⟩ := sends_act wired.swept.housed .pump connection
    have nothing : gained connection server (server.act .pump) = [] := gained_publishes isOpen rfl
    rw [gained_eq queues] at nothing
    rw [queues.outbox, nothing, refused]
    rfl

end Server

end MockGraph
