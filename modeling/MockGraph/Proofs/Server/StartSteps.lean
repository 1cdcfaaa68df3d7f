import MockGraph.Proofs.Server.Dismissal
set_option autoImplicit false

namespace MockGraph

/-- A task that a start has on a connection under a name. -/
def Task.isStartOf (connection : ConnectionId) (id : String) : Task → Bool
  | register owner name _ | withdraw owner name _ | query owner name _ =>
    owner = connection ∧ name = id
  | _ => false

namespace Registry

variable {registry : Registry}

/-- The registrations that the next step of a task makes. -/
def makes (registry : Registry) : Task → List Registration
  | .register connection id operation =>
    (registry.register connection (Server.sinkOf connection) id operation).1.toOption.toList
  | _ => []

/-- Whoever closes a number is told whether a registration has it. -/
theorem Consistent.unregister_cases (consistent : Consistent registry) (id : RegistrationId) :
    ((registry.unregister id).1 = true ∧
        ∃ registration ∈ registry.registered, registration.id = id) ∨
      (registry.unregister id).1 = false ∧
        ∀ registration ∈ registry.registered, registration.id ≠ id := by
  unfold unregister
  cases found : Ordered.get? registry.registrations id with
  | none =>
    refine Or.inr ⟨rfl, fun registration member same => ?_⟩
    rw [(consistent.get?_registrations id registration).mpr ⟨member, same⟩] at found
    cases found
  | some registration =>
    exact Or.inl ⟨rfl, registration, (consistent.get?_registrations id registration).mp found⟩

/-- A task whose step takes a registration stops its name, closes its connection or withdraws it. -/
theorem Consistent.settle_takes (consistent : Consistent registry) {registration : Registration}
    (member : registration ∈ registry.registered) {task : Task}
    (gone : registration ∉ (registry.settle task).registered) :
    task = .unregister registration.connection registration.operationId ∨
      task.closes registration.connection = true ∨
      ∃ connection id, task = .withdraw connection id registration.id := by
  have left : ∀ {next keep}, Keeps registry next keep → registration ∉ next.registered →
      keep registration = false := by
    intro next keep keeps gone
    rw [keeps.registered, List.mem_filter, not_and, Bool.not_eq_true] at gone
    exact gone member
  cases task with
  | unregister connection id =>
    have taken := left (consistent.keeps_unregisterOperation connection id) gone
    obtain ⟨rfl, rfl⟩ := Decidable.not_not.mp (of_decide_eq_false taken)
    exact Or.inl rfl
  | withdraw connection id withdrawn =>
    have taken := left (consistent.keeps_unregister withdrawn) gone
    obtain rfl := Decidable.not_not.mp (of_decide_eq_false taken)
    exact Or.inr (Or.inr ⟨connection, id, rfl⟩)
  | purge connection =>
    have taken := left (consistent.keeps_purge connection) gone
    exact Or.inr (Or.inl (decide_eq_true (Decidable.not_not.mp (of_decide_eq_false taken)).symm))
  | complete remaining report =>
    cases remaining with
    | nil => exact absurd member gone
    | cons connection rest =>
      have taken := left (consistent.keeps_purge connection) gone
      exact Or.inr (Or.inl (decide_eq_true (Decidable.not_not.mp (of_decide_eq_false taken)).symm))
  | register connection id operation =>
    rw [Registry.settle] at gone
    rcases register_cases registry connection (Server.sinkOf connection) id operation with
      ⟨error, refused⟩ | ⟨made, next, accepted, opens, -⟩
    · rw [refused] at gone
      exact absurd member gone
    · rw [accepted, consistent.registered_opens opens] at gone
      exact absurd (List.mem_append_left _ member) gone
  | query | request | answered | drain | drained => exact absurd member gone

/-- A registration that the step of a task takes is closed for good. -/
theorem Consistent.spent_of_gone (consistent : Consistent registry) {registration : Registration}
    (member : registration ∈ registry.registered) {task : Task}
    (gone : registration ∉ (registry.settle task).registered) :
    Spent (registry.settle task) registration.id := by
  rcases settle_cases consistent task with ⟨keep, keeps⟩ | ⟨made, makes⟩
  · refine ⟨by rw [keeps.nextId]; exact consistent.below registration member, ?_⟩
    intro other left same
    have there : other ∈ registry.registered := by
      rw [keeps.registered] at left
      exact (List.mem_filter.mp left).1
    rw [consistent.eq_of_id_eq there member same] at left
    exact gone left
  · rw [consistent.registered_opens makes.opens] at gone
    exact absurd (List.mem_append_left _ member) gone

theorem Consistent.nextId_le_settle (consistent : Consistent registry) (task : Task) :
    registry.nextId ≤ (registry.settle task).nextId := by
  rcases settle_cases consistent task with ⟨keep, keeps⟩ | ⟨made, makes⟩
  · exact Nat.le_of_eq keeps.nextId.symm
  · rw [makes.opens.nextId]
    exact Nat.le_succ _

end Registry

namespace Server

variable {σ : Type} {server : Server σ}

/-- What the task of a start offers to its connection with its next step. -/
def offers (server : Server σ) : Task → List ServerMessage
  | .register connection id operation =>
    match (server.registry.register connection (sinkOf connection) id operation).1 with
    | .error error => [.error id [error.fieldError]]
    | .ok _ => []
  | .withdraw _ id registration =>
    if (server.registry.unregister registration).1 then [.error id [Draining.fieldError .draining]]
    else []
  | .query _ id job =>
    if job.isWaiting then []
    else
      match (job.resume server.engine server.gates server.world).1 with
      | .finished response => [.next id response, .complete id]
      | .waiting _ _ _ => []
  | _ => []

section Steps

variable {α : Type} {each : Server σ → Task → List α} {task : TaskId}

/-- What an action brings as a step of a task. -/
def yield (each : Server σ → Task → List α) (task : TaskId) (server : Server σ) (action : Action) :
    List α :=
  if action.isStepOf task then ((Ordered.get? server.tasks task).map (each server)).getD [] else []

/-- What the steps of a task bring, one after the other. -/
def yields (each : Server σ → Task → List α) (task : TaskId) : Server σ → List Action → List α
  | _, [] => []
  | server, action :: rest =>
    yield each task server action ++ yields each task (server.act action) rest

theorem yield_other {action : Action} (other : action.isStepOf task = false) :
    yield each task server action = [] := by
  rw [yield, other, if_neg Bool.false_ne_true]

theorem yield_advance {kind : Task} (found : Ordered.get? server.tasks task = some kind) :
    yield each task server (.advance task) = each server kind := by
  have own : (Action.advance task).isStepOf task = true := decide_eq_true rfl
  rw [yield, if_pos own, found]
  rfl

theorem yield_gone (gone : Ordered.get? server.tasks task = none) (action : Action) :
    yield each task server action = [] := by
  rw [yield, gone]
  exact ite_self []

theorem yields_append (front back : List Action) :
    yields each task server (front ++ back) =
      yields each task server front ++ yields each task (server.run front) back := by
  induction front generalizing server with
  | nil => rfl
  | cons action rest ih => rw [List.cons_append, yields, yields, run_cons, ih, List.append_assoc]

end Steps

/-- A start of a subscription with its next step. It is refused with an error, or registered. Then
it is over if its connection is open, and otherwise it is to withdraw the registration. -/
theorem act_register {task : TaskId} {connection : ConnectionId} {id : String}
    {operation : Operation}
    (found : Ordered.get? server.tasks task = some (.register connection id operation)) :
    (∃ error,
        server.registry.register connection (sinkOf connection) id operation =
            (.error error, server.registry) ∧
          server.act (.advance task) =
            (server.send connection (.error id [error.fieldError])).finish task) ∨
      ∃ registration next,
        server.registry.register connection (sinkOf connection) id operation =
            (.ok registration, next) ∧ Registry.Opens server.registry next registration ∧
          registration.connection = connection ∧ registration.operationId = id ∧
          server.act (.advance task) =
            if server.phase? connection = some .open then
              Server.finish { server with registry := next } task
            else
              Server.become { server with registry := next } task
                (.withdraw connection id registration.id) := by
  rw [act, advance, found]
  dsimp only
  rw [registerSubscription]
  rcases server.registry.register_cases connection (sinkOf connection) id operation with
    ⟨error, refused⟩ | ⟨registration, next, accepted, opens, owner, -, named, -⟩
  · rw [refused]
    exact Or.inl ⟨error, rfl, rfl⟩
  · rw [accepted]
    exact Or.inr ⟨registration, next, rfl, opens, owner, named, rfl⟩

/-- The next step of an operation of a connection, and what it offers: it goes on and offers
nothing, or it is over and offers its result and then that it is complete. -/
theorem act_query {task : TaskId} {connection : ConnectionId} {id : String} {job : Job}
    (found : Ordered.get? server.tasks task = some (.query connection id job)) :
    (server.offers (.query connection id job) = [] ∧
        (server.act (.advance task)).connections = server.connections ∧
        ∃ rest,
          Ordered.get? (server.act (.advance task)).tasks task = some (.query connection id rest)) ∨
      ∃ response middle,
        server.offers (.query connection id job) = [.next id response, .complete id] ∧
          Idle server middle ∧ middle.connections = server.connections ∧
          server.act (.advance task) =
            ((middle.send connection (.next id response)).send connection (.complete id)).finish
              task := by
  rw [act, advance, found]
  dsimp only
  rw [offers]
  by_cases waits : job.isWaiting = true
  · rw [if_pos waits, if_pos waits]
    exact Or.inl ⟨rfl, rfl, job, found⟩
  · rw [if_neg waits, if_neg waits, resumeJob]
    rcases job.resume server.engine server.gates server.world with ⟨outcome, gates, world⟩
    cases outcome with
    | waiting gate remaining run =>
      refine Or.inl ⟨rfl, rfl, .running remaining run false, ?_⟩
      rw [get?_become, if_pos rfl]
    | finished response =>
      have idle : Idle server { server with world, gates } :=
        ⟨fun _ => rfl, fun _ => rfl, fun _ => rfl, rfl, rfl, rfl, rfl, rfl⟩
      exact Or.inr ⟨response, _, rfl, idle, rfl, rfl⟩

/-- A message is queued on a connection, unless that is closed. -/
theorem outbox_sent (server : Server σ) {connection : ConnectionId}
    (known : server.phase? connection ≠ none)
    (attached : (server.connection? connection).map (·.attached) ≠ some false)
    (message : ServerMessage) :
    (server.send connection message).outbox connection =
      server.outbox connection ++
        if server.phase? connection = some .closed then [] else [message] := by
  by_cases closed : server.phase? connection = some .closed
  · rw [if_pos closed, outbox_send_closed closed, List.append_nil]
  · obtain ⟨phase, found⟩ := Option.ne_none_iff_exists'.mp known
    have unclosed : phase ≠ .closed := fun same => closed (same ▸ found)
    rw [if_neg closed, outbox_send found unclosed attached]

/-- What the task of a start offers is queued, unless the connection is closed. -/
theorem gained_advance {task : TaskId} {kind : Task} {connection : ConnectionId} {id : String}
    (housed : Housed server) (known : server.phase? connection ≠ none)
    (found : Ordered.get? server.tasks task = some kind)
    (start : kind.isStartOf connection id = true) :
    gained connection server (server.act (.advance task)) =
      if server.phase? connection = some .closed then [] else server.offers kind := by
  have attached := housed.attached connection
  have nothing : gained connection server server = [] := List.drop_length
  cases kind with
  | register owner name operation =>
    obtain ⟨rfl, rfl⟩ := of_decide_eq_true start
    rw [offers]
    rcases act_register found with
      ⟨error, refused, after⟩ | ⟨registration, next, accepted, -, -, -, after⟩
    · have sent := outbox_sent server known attached (.error name [error.fieldError])
      rw [after, refused]
      exact (congrArg (List.drop _) sent).trans List.drop_left
    · rw [after, accepted]
      split <;> exact nothing.trans (ite_self []).symm
  | withdraw owner name registration =>
    obtain ⟨rfl, rfl⟩ := of_decide_eq_true start
    rw [offers, act, advance, found]
    dsimp only
    rw [withdraw]
    rcases server.registry.unregister registration with ⟨removed, next⟩
    cases removed with
    | false => exact nothing.trans (ite_self []).symm
    | true =>
      have sent := outbox_sent { server with registry := next } known attached
        (.error name [Draining.fieldError .draining])
      exact (congrArg (List.drop _) sent).trans List.drop_left
  | query owner name job =>
    obtain ⟨rfl, rfl⟩ := of_decide_eq_true start
    rcases act_query found with ⟨none, same, -⟩ | ⟨response, middle, offered, idle, same, after⟩
    · have quiet : Queues owner server (server.act (.advance task)) [] :=
        .nothing (outbox_of_connections same owner)
      rw [none, ite_self]
      exact gained_eq quiet
    · have result :
          ((middle.send owner (.next name response)).send owner (.complete name)).outbox
            owner = _ := outbox_result housed idle same known
      rw [offered, after]
      exact (congrArg (List.drop _) result).trans List.drop_left
  | _ => cases start

/-- What a task is to withdraw after an action was to be withdrawn before, or has its number from
the step that the task just took. -/
theorem withdraw_of_act {action : Action} {task : TaskId} {connection : ConnectionId} {id : String}
    {registration : RegistrationId}
    (found : Ordered.get? (server.act action).tasks task =
      some (.withdraw connection id registration)) :
    Ordered.get? server.tasks task = some (.withdraw connection id registration) ∨
      action = .advance task ∧ registration.number = server.registry.nextId ∧
        (server.act action).registry.nextId = server.registry.nextId + 1 := by
  rcases (moves_act server action).lookup task with
    same | woken | ⟨rfl, old, earlier, goes⟩ | ⟨-, new, added, arises⟩
  · exact Or.inl (same.symm.trans found)
  · rw [woken] at found
    obtain ⟨old, earlier, permitted⟩ := Option.map_eq_some_iff.mp found
    cases old with
    | withdraw => exact Or.inl (earlier.trans (congrArg some permitted))
    | _ => cases permitted
  · rw [found] at goes
    cases goes with
    | on follows =>
      cases follows with
      | withdraw =>
        rcases act_register earlier with ⟨error, -, after⟩ | ⟨made, next, -, opens, -, -, after⟩
        · rw [after, get?_finish, if_pos rfl] at found
          cases found
        · rw [after] at found ⊢
          split at found
          · rw [get?_finish, if_pos rfl] at found
            cases found
          · rename_i notOpen
            rw [get?_become, if_pos rfl] at found
            cases found
            rw [if_neg notOpen, opens.number]
            exact Or.inr ⟨rfl, rfl, opens.nextId⟩
  · rw [added] at found
    cases found
    cases arises with
    | accepted accepts => cases accepts

/-- What holds between any two actions: drains reach all connections, each connection has its names
in order, and what is to be withdrawn has a number that was given. -/
structure Orderly (server : Server σ) : Prop where
  dismissive : Dismissive server
  given : ∀ task connection id registration,
    Ordered.get? server.tasks task = some (.withdraw connection id registration) →
    registration.number < server.registry.nextId

theorem Swept.nextId_le_act (swept : Swept server) (action : Action) :
    server.registry.nextId ≤ (server.act action).registry.nextId :=
  registry_kept (fun registry => server.registry.nextId ≤ registry.nextId)
    swept.consistent.nextId_le_settle (Nat.le_refl _) action

namespace Orderly

theorem start (engine : Engine σ) (world : World σ) (drainTimeout : Nat) :
    Orderly (start engine world drainTimeout) :=
  ⟨dismissive_start engine world drainTimeout, nofun⟩

theorem swept (orderly : Orderly server) : Swept server := orderly.dismissive.evacuates.swept

theorem act (orderly : Orderly server) (action : Action) : Orderly (server.act action) := by
  refine ⟨orderly.dismissive.act action, ?_⟩
  intro task connection id registration found
  rcases withdraw_of_act found with earlier | ⟨-, new, next⟩
  · have before := orderly.given task connection id registration earlier
    have grows := orderly.swept.nextId_le_act action
    omega
  · omega

theorem run (orderly : Orderly server) (actions : List Action) : Orderly (server.run actions) := by
  induction actions generalizing server with
  | nil => exact orderly
  | cons action rest ih => exact ih (orderly.act action)

end Orderly

/-- What takes a registration away: its client stops it, or its connection is closed by a call or by
a drain, which tells the client. -/
inductive Takes (server : Server σ) : Action → Registration → Prop
  | stop {task registration} :
      Ordered.get? server.tasks task =
        some (.unregister registration.connection registration.operationId) →
      Takes server (.advance task) registration
  | purge {task registration} :
      Ordered.get? server.tasks task = some (.purge registration.connection) →
      (server.act (.advance task)).phase? registration.connection = some .closed →
      Takes server (.advance task) registration
  | drain {task registration rest report} :
      Ordered.get? server.tasks task = some (.complete (registration.connection :: rest) report) →
      registration ∈ server.registry.registeredOn registration.connection →
      Dismisses registration.connection server (server.act (.advance task)) →
      Takes server (.advance task) registration

theorem closed_of_purge {task : TaskId} {connection : ConnectionId}
    (known : server.phase? connection ≠ none)
    (found : Ordered.get? server.tasks task = some (.purge connection)) :
    (server.act (.advance task)).phase? connection = some .closed := by
  rw [Server.act, advance, found]
  change (server.purge connection).phase? connection = _
  unfold purge
  dsimp only
  split
  · assumption
  · refine (phase?_markClosed _ connection connection).trans ?_
    obtain ⟨phase, present⟩ := Option.ne_none_iff_exists'.mp known
    have present :
        Server.phase? { server with registry := (server.registry.purge connection).2 }
          connection = some phase := present
    rw [if_pos rfl, present]
    rfl

/-- What takes a registration closes it for good, and is no accident, unless a start withdraws
it. -/
theorem Dismissive.takes (dismissive : Dismissive server) {registration : Registration}
    {action : Action} (known : server.phase? registration.connection ≠ none)
    (member : registration ∈ server.registry.registered)
    (gone : registration ∉ (server.act action).registry.registered)
    (unclaimed : ∀ task connection id, action = .advance task →
      Ordered.get? server.tasks task ≠ some (.withdraw connection id registration.id)) :
    (server.act action).registry.Spent registration.id ∧ Takes server action registration := by
  have consistent := dismissive.evacuates.swept.consistent
  by_cases steps : ∃ task, action = .advance task
  · obtain ⟨task, rfl⟩ := steps
    have registry := registry_advance server task
    cases found : Ordered.get? server.tasks task with
    | none =>
      rw [found] at registry
      rw [Server.act, registry] at gone
      exact absurd member gone
    | some kind =>
      rw [found, Option.map_some, Option.getD_some] at registry
      rw [Server.act, registry] at gone ⊢
      refine ⟨consistent.spent_of_gone member gone, ?_⟩
      rcases consistent.settle_takes member gone with rfl | closes | ⟨connection, id, rfl⟩
      · exact .stop found
      · cases kind with
        | purge connection =>
          obtain rfl := of_decide_eq_true closes
          exact .purge found (closed_of_purge known found)
        | complete remaining report =>
          cases remaining with
          | nil => cases closes
          | cons connection rest =>
            obtain rfl := of_decide_eq_true closes
            exact .drain found (List.mem_filter.mpr ⟨member, decide_eq_true rfl⟩)
              (dismissive.advance found).1
        | _ => cases closes
      · exact absurd found (unclaimed task connection id rfl)
  · rw [registry_act server (not_exists.mp steps)] at gone
    exact absurd member gone

/-- What a drain purges with an action was registered until then. -/
theorem registered_of_dismissed {drain : TaskId} {action : Action} {step : Dismissal}
    {registration : Registration} (member : step ∈ dismissed drain server action)
    (purged : registration ∈ step.purged) : registration ∈ server.registry.registered := by
  rcases dismissed_cases drain server action with ⟨-, connection, rest, report, -, done⟩ | ⟨none, -⟩
  · rw [done, List.mem_singleton] at member
    subst member
    exact (List.mem_filter.mp purged).1
  · rw [none] at member
    cases member

theorem Dismissive.spent_of_purged (dismissive : Dismissive server) {drain : TaskId}
    {actions : List Action} {step : Dismissal} (member : step ∈ dismissals drain server actions)
    {registration : Registration} (purged : registration ∈ step.purged) :
    (server.run actions).registry.Spent registration.id := by
  induction actions generalizing server with
  | nil => cases member
  | cons action rest ih =>
    have next := dismissive.act action
    rcases List.mem_append.mp member with now | later
    · rcases dismissed_cases drain server action with
        ⟨rfl, connection, others, report, found, done⟩ | ⟨none, -⟩
      · rw [done, List.mem_singleton] at now
        subst now
        exact spent_run next.evacuates.swept
          ((dismissive.advance found).1.spent registration purged) rest
      · rw [none] at now
        cases now
    · exact ih next later

end Server

end MockGraph
