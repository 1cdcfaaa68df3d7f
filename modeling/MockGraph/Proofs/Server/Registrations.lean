import MockGraph.Proofs.Server.Waiting
import MockGraph.Proofs.Subscription.Index
set_option autoImplicit false

namespace MockGraph

namespace Task

/-- A call that is going to close a connection. -/
def willClose (connection : ConnectionId) : Task → Bool
  | purge other => other = connection
  | drain connections _ | complete connections _ => connections.contains connection
  | _ => false

/-- A call that closes a connection with its next step. -/
def closes (connection : ConnectionId) : Task → Bool
  | purge other | complete (other :: _) _ => other = connection
  | _ => false

/-- A call that has not returned. Operations of connections run by themselves. -/
def isCall : Task → Bool
  | purge _ | register _ _ _ | withdraw _ _ _ | unregister _ _ | drain _ _ | complete _ _ => true
  | query _ _ _ | request _ | answered _ | drained _ => false

theorem willClose_permit (connection : ConnectionId) (task : Task) :
    task.permit.willClose connection = task.willClose connection := by
  cases task <;> rfl

theorem isCall_of_willClose {connection : ConnectionId} {task : Task}
    (closes : task.willClose connection = true) : task.isCall = true := by
  cases task <;> first | rfl | cases closes

end Task

namespace Registry

/-- What the next step of a task leaves of the registry. -/
def settle (registry : Registry) : Task → Registry
  | .purge connection | .complete (connection :: _) _ => (registry.purge connection).2
  | .register connection id operation =>
    (registry.register connection (Server.sinkOf connection) id operation).2
  | .withdraw _ _ registration => (registry.unregister registration).2
  | .unregister connection id => (registry.unregisterOperation connection id).2
  | _ => registry

variable {registry : Registry}

/-- A task that makes a registration with its next step, of its connection and under its name. -/
structure Makes (registry : Registry) (task : Task) (registration : Registration) : Prop where
  begun : ∃ operation, task = .register registration.connection registration.operationId operation
  sink : registration.sink = Server.sinkOf registration.connection
  opens : Opens registry (registry.settle task) registration
  accepted : ∀ connection id operation, task = .register connection id operation →
      registry.register connection (Server.sinkOf connection) id operation =
        (.ok registration, registry.settle task)

/-- The step of a task closes registrations, or makes one, or leaves the registry as it is. -/
theorem settle_cases (consistent : Consistent registry) (task : Task) :
    (∃ keep, Keeps registry (registry.settle task) keep) ∨
      ∃ registration, Makes registry task registration := by
  have same : ∃ keep, Keeps registry registry keep :=
    ⟨fun _ => true, consistent.keeps_all fun _ _ => rfl⟩
  cases task with
  | purge connection => exact Or.inl ⟨_, consistent.keeps_purge connection⟩
  | withdraw connection id registration =>
    exact Or.inl ⟨_, consistent.keeps_unregister registration⟩
  | unregister connection id => exact Or.inl ⟨_, consistent.keeps_unregisterOperation connection id⟩
  | complete remaining report =>
    cases remaining with
    | nil => exact Or.inl same
    | cons connection rest => exact Or.inl ⟨_, consistent.keeps_purge connection⟩
  | register connection id operation =>
    rcases register_cases registry connection (Server.sinkOf connection) id operation with
      ⟨error, refused⟩ | ⟨registration, next, accepted, opens, rfl, sink, rfl, -⟩
    · rw [settle, refused]
      exact Or.inl same
    · have settled :
          registry.settle
            (.register registration.connection registration.operationId operation) = next := by
        rw [settle, accepted]
      refine Or.inr ⟨registration, ⟨operation, rfl⟩, sink, by rw [settled]; exact opens, ?_⟩
      intro connection id other same
      cases same
      rw [settled]
      exact accepted
  | query | request | answered | drain | drained => exact Or.inl same

theorem Consistent.settle (consistent : Consistent registry) (task : Task) :
    Consistent (registry.settle task) := by
  rcases settle_cases consistent task with ⟨keep, keeps⟩ | ⟨registration, makes⟩
  · exact consistent.keeps keeps
  · exact consistent.opens makes.opens

/-- What is registered after the step of a task was so before, or that step makes it. -/
theorem Consistent.mem_settle (consistent : Consistent registry) {task : Task}
    {registration : Registration} (member : registration ∈ (registry.settle task).registered) :
    registration ∈ registry.registered ∨ Makes registry task registration := by
  rcases settle_cases consistent task with ⟨keep, keeps⟩ | ⟨made, makes⟩
  · rw [keeps.registered] at member
    exact Or.inl (List.mem_filter.mp member).1
  · rw [consistent.registered_opens makes.opens] at member
    rcases List.mem_append.mp member with old | new
    · exact Or.inl old
    · rw [List.mem_singleton.mp new]
      exact Or.inr makes

/-- A step that closes a connection leaves it no registrations. -/
theorem Consistent.settle_closes (consistent : Consistent registry) {task : Task}
    {connection : ConnectionId} (closes : task.closes connection = true) :
    ∀ registration ∈ (registry.settle task).registered, registration.connection ≠ connection := by
  have purged : ∀ registration ∈ (registry.purge connection).2.registered,
      registration.connection ≠ connection := by
    intro registration member
    rw [(consistent.keeps_purge connection).registered] at member
    exact of_decide_eq_true (List.mem_filter.mp member).2
  cases task with
  | purge other =>
    rw [← of_decide_eq_true closes] at purged ⊢
    exact purged
  | complete remaining report =>
    cases remaining with
    | nil => cases closes
    | cons other rest =>
      rw [← of_decide_eq_true closes] at purged ⊢
      exact purged
  | _ => cases closes

end Registry

namespace Server

variable {σ : Type} {server before after : Server σ}

theorem registry_foldl {α : Type} (items : List α) {step : Server σ → α → Server σ}
    (same : ∀ server item, (step server item).registry = server.registry) (server : Server σ) :
    (items.foldl step server).registry = server.registry := by
  induction items generalizing server with
  | nil => rfl
  | cons item rest ih => exact (ih (step server item)).trans (same server item)

theorem registry_send (server : Server σ) (connection : ConnectionId) (message : ServerMessage) :
    (server.send connection message).registry = server.registry := rfl

theorem registry_adjust (server : Server σ) (connection : ConnectionId)
    (change : Connection → Connection) :
    (server.adjust connection change).registry = server.registry := rfl

theorem registry_publish (server : Server σ) (event : Event) :
    (server.publish event).2.registry = server.registry := by
  unfold publish
  exact registry_foldl _
    (fun server (delivery : Delivery) => registry_adjust server _ (·.deliver delivery.message)) _

theorem registry_resumeJob (server : Server σ) (task : TaskId) (job : Job) (waiting : Job → Task)
    {finished : Response → Server σ → Server σ}
    (same : ∀ response server, (finished response server).registry = server.registry) :
    (server.resumeJob task job waiting finished).registry = server.registry := by
  unfold resumeJob
  rcases job.resume server.engine server.gates server.world with ⟨outcome, gates, world⟩
  cases outcome with
  | waiting gate remaining run => rfl
  | finished response => exact same response _

/-- The step of a task changes the registry as its kind tells. -/
theorem registry_advance (server : Server σ) (id : TaskId) :
    (server.advance id).registry =
      ((Ordered.get? server.tasks id).map server.registry.settle).getD server.registry := by
  unfold advance
  cases Ordered.get? server.tasks id with
  | none => rfl
  | some task =>
    cases task with
    | purge connection =>
      dsimp only [Option.map_some, Option.getD_some]
      unfold purge
      dsimp only
      split <;> rfl
    | register connection name operation =>
      dsimp only [Option.map_some, Option.getD_some]
      unfold registerSubscription
      dsimp only [Registry.settle]
      split
      · rfl
      · split <;> rfl
    | withdraw connection name registration =>
      dsimp only [Option.map_some, Option.getD_some]
      unfold withdraw
      dsimp only
      split <;> rfl
    | unregister connection name => rfl
    | query connection name job =>
      dsimp only
      split
      · rfl
      · exact registry_resumeJob server id job _ fun _ _ => rfl
    | request job =>
      dsimp only
      split
      · rfl
      · exact registry_resumeJob server id job _ fun _ _ => rfl
    | answered response => rfl
    | drain connections deadline =>
      dsimp only
      split <;> rfl
    | complete remaining report =>
      cases remaining with
      | nil => rfl
      | cons connection rest =>
        exact registry_foldl _ (fun server name => registry_send server connection (.complete name))
          _
    | drained report => rfl

theorem registry_close (server : Server σ) (connection : ConnectionId) :
    (server.close connection).2.registry = server.registry := by
  unfold close
  split <;> rfl

theorem registry_act (server : Server σ) {action : Action} (other : ∀ id, action ≠ .advance id) :
    (server.act action).registry = server.registry := by
  cases action with
  | openConnection =>
    unfold act openConnection
    dsimp only
    split <;> rfl
  | handle connection message =>
    unfold act handle
    cases message with
    | connectionInit | ping | pong | stop => rfl
    | connectionTerminate => exact registry_close server connection
    | start name request =>
      unfold startOperation
      dsimp only
      split
      · rfl
      · split <;> rfl
  | close connection => exact registry_close server connection
  | publish event => exact registry_publish server event
  | pump =>
    unfold act pump
    dsimp only
    split
    · exact registry_publish _ _
    · rfl
  | submit request =>
    unfold act submit
    dsimp only
    split
    · rfl
    · split
      · rfl
      · split <;> rfl
  | beginDrain =>
    exact registry_foldl _ (fun server id => registry_adjust server id (·.beginClosing)) _
  | advance id => exact absurd rfl (other id)
  | release gate count => rfl
  | reload schema =>
    obtain ⟨engine, reloaded⟩ := act_reload server schema
    rw [reloaded]
  | wait milliseconds => rfl

theorem consistent_act (consistent : server.registry.Consistent) (action : Action) :
    (server.act action).registry.Consistent := by
  by_cases steps : ∃ id, action = .advance id
  · obtain ⟨id, rfl⟩ := steps
    rw [act, registry_advance]
    cases Ordered.get? server.tasks id with
    | none => exact consistent
    | some task => exact consistent.settle task
  · rw [registry_act server (not_exists.mp steps)]
    exact consistent

/-- What is registered after an action was so before, or the step of a start registers it. -/
theorem mem_registered_act (consistent : server.registry.Consistent) {action : Action}
    {registration : Registration}
    (member : registration ∈ (server.act action).registry.registered) :
    registration ∈ server.registry.registered ∨ ∃ id task, action = .advance id ∧
      Ordered.get? server.tasks id = some task ∧ server.registry.Makes task registration := by
  by_cases steps : ∃ id, action = .advance id
  · obtain ⟨id, rfl⟩ := steps
    rw [act, registry_advance] at member
    cases found : Ordered.get? server.tasks id with
    | none =>
      rw [found] at member
      exact Or.inl member
    | some task =>
      rw [found] at member
      exact (consistent.mem_settle member).imp_right fun makes => ⟨id, task, rfl, found, makes⟩
  · rw [registry_act server (not_exists.mp steps)] at member
    exact Or.inl member

end Server

end MockGraph
