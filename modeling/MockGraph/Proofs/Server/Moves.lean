import MockGraph.Server.Basic
set_option autoImplicit false

namespace MockGraph

/-- What is done to a server at once: a call up to where it waits, the next step of a task, or
something that tasks wait for. None drops the receiver of a connection, so transports stay
attached. -/
inductive Action where
  | openConnection
  | handle (connection : ConnectionId) (message : ClientMessage)
  | close (connection : ConnectionId)
  | publish (event : Event)
  | pump
  | submit (request : Request)
  | beginDrain
  | advance (task : TaskId)
  | release (gate : String) (count : Nat)
  | reload (schema : TypeSystem)
  | wait (milliseconds : Nat)

def Action.closes (connection : ConnectionId) : Action → Bool
  | close other | handle other .connectionTerminate => other = connection
  | _ => false

namespace Server

variable {σ : Type}

def act (server : Server σ) : Action → Server σ
  | .openConnection => server.openConnection.2
  | .handle connection message => (server.handle connection message).2
  | .close connection => (server.close connection).2
  | .publish event => (server.publish event).2
  | .pump => server.pump
  | .submit request => (server.submit request).2
  | .beginDrain => server.beginDrain.2
  | .advance task => server.advance task
  | .release gate count => (server.release gate count).2
  | .reload schema => (server.reload schema).toOption.getD server
  | .wait milliseconds => { server with now := server.now + milliseconds }

/-- Actions in the order in which they come. -/
def run (server : Server σ) (actions : List Action) : Server σ := actions.foldl act server

theorem run_append (server : Server σ) (front back : List Action) :
    server.run (front ++ back) = (server.run front).run back :=
  List.foldl_append

theorem run_cons (server : Server σ) (action : Action) (rest : List Action) :
    server.run (action :: rest) = (server.act action).run rest := rfl

/-- The messages that were queued on a connection. -/
def outbox (server : Server σ) (id : ConnectionId) : List ServerMessage :=
  ((server.connection? id).map (·.outbox)).getD []

/-- Nothing changes about connections but what is queued on them, and nothing about tasks. -/
structure Idle (before after : Server σ) : Prop where
  phase : ∀ id, after.phase? id = before.phase? id
  attached : ∀ id,
      (after.connection? id).map (·.attached) = (before.connection? id).map (·.attached)
  cancelled : ∀ id,
      (after.connection? id).map (·.cancelled) = (before.connection? id).map (·.cancelled)
  count : after.connections.length = before.connections.length
  live : after.live = before.live
  draining : after.draining = before.draining
  tasks : after.tasks = before.tasks
  nextTask : after.nextTask = before.nextTask

namespace Idle

variable {before middle after : Server σ}

theorem refl (server : Server σ) : Idle server server :=
  ⟨fun _ => rfl, fun _ => rfl, fun _ => rfl, rfl, rfl, rfl, rfl, rfl⟩

theorem trans (first : Idle before middle) (second : Idle middle after) : Idle before after := by
  refine ⟨?_, ?_, ?_, second.count.trans first.count, second.live.trans first.live,
    second.draining.trans first.draining, second.tasks.trans first.tasks,
    second.nextTask.trans first.nextTask⟩
  · intro id
    exact (second.phase id).trans (first.phase id)
  · intro id
    exact (second.attached id).trans (first.attached id)
  · intro id
    exact (second.cancelled id).trans (first.cancelled id)

end Idle

theorem connection?_adjust (server : Server σ) (id other : ConnectionId)
    (change : Connection → Connection) : (server.adjust id change).connection? other =
      if id = other then (server.connection? other).map change else server.connection? other :=
  Ordered.get?_adjust _ _ _ _

theorem phase?_adjust (server : Server σ) (id other : ConnectionId)
    (change : Connection → Connection) : (server.adjust id change).phase? other =
      if id = other then (server.connection? other).map fun connection => (change connection).phase
      else server.phase? other := by
  rw [phase?, connection?_adjust]
  split
  · rw [Option.map_map]
    rfl
  · rfl

theorem map_adjust {α : Type} {view : Connection → α} (server : Server σ) (id other : ConnectionId)
    {change : Connection → Connection}
    (same : ∀ connection, view (change connection) = view connection) :
    ((server.adjust id change).connection? other).map view =
      (server.connection? other).map view := by
  rw [connection?_adjust]
  split
  · rw [Option.map_map, Function.comp_def, funext same]
  · rfl

theorem idle_adjust (server : Server σ) (id : ConnectionId) {change : Connection → Connection}
    (phase : ∀ connection, (change connection).phase = connection.phase)
    (attached : ∀ connection, (change connection).attached = connection.attached)
    (cancelled : ∀ connection, (change connection).cancelled = connection.cancelled) :
    Idle server (server.adjust id change) := by
  refine ⟨?_, fun other => map_adjust server id other attached,
    fun other => map_adjust server id other cancelled, Ordered.length_adjust _ _ _, rfl, rfl, rfl,
    rfl⟩
  intro other
  rw [phase?_adjust]
  split
  · rw [funext phase]
    rfl
  · rfl

theorem idle_send (server : Server σ) (id : ConnectionId) (message : ServerMessage) :
    Idle server (server.send id message) := by
  refine idle_adjust server id ?_ ?_ ?_ <;> intro connection <;> unfold Connection.send <;>
    split <;> rfl

theorem idle_deliver (server : Server σ) (id : ConnectionId) (message : ServerMessage) :
    Idle server (server.adjust id (·.deliver message)) := by
  refine idle_adjust server id ?_ ?_ ?_ <;> intro connection <;> unfold Connection.deliver <;>
    split <;> rfl

theorem idle_foldl {α : Type} (items : List α) {step : Server σ → α → Server σ}
    (idle : ∀ server item, Idle server (step server item)) (server : Server σ) :
    Idle server (items.foldl step server) := by
  induction items generalizing server with
  | nil => exact .refl server
  | cons item rest ih => exact (idle server item).trans (ih (step server item))

theorem idle_publish (server : Server σ) (event : Event) :
    Idle server (server.publish event).2 := by
  unfold publish
  refine Idle.trans ?_ (idle_foldl _ ?_ _)
  · exact ⟨fun _ => rfl, fun _ => rfl, fun _ => rfl, rfl, rfl, rfl, rfl, rfl⟩
  · intro server delivery
    exact idle_deliver server _ delivery.message

/-- What a server takes on: nothing new of a connection that is not open, and no request while it
drains. -/
def Accepts (server : Server σ) : Task → Prop
  | .register connection _ _ | .query connection _ _ => server.phase? connection = some .open
  | .unregister _ _ => True
  | .request _ => server.draining = false
  | _ => False

/-- What a task becomes in one step, apart from the steps of a drain that close a connection. -/
inductive Follows (server : Server σ) : Task → Task → Prop
  | withdraw {connection id operation registration} :
      Follows server (.register connection id operation) (.withdraw connection id registration)
  | query {connection id job rest} :
      Follows server (.query connection id job) (.query connection id rest)
  | request {job rest} : Follows server (.request job) (.request rest)
  | answered {job response} : Follows server (.request job) (.answered response)
  | complete {connections deadline} : Follows server (.drain connections deadline)
      (.complete connections ⟨connections.length, 0, server.hasRunning connections⟩)
  | drained {report} : Follows server (.complete [] report) (.drained report)

inductive Ends : Task → Prop
  | purge {connection} : Ends (.purge connection)
  | register {connection id operation} : Ends (.register connection id operation)
  | withdraw {connection id registration} : Ends (.withdraw connection id registration)
  | unregister {connection id} : Ends (.unregister connection id)
  | query {connection id job} : Ends (.query connection id job)

/-- All that an action can do. -/
inductive Moves (before : Server σ) : Action → Server σ → Prop
  | idle {action after} : Idle before after → Moves before action after
  | opens : before.draining = false → Moves before .openConnection
      { before with
        connections := Ordered.insert before.connections ⟨before.connections.length + 1⟩ .new
        live := before.live ++ [⟨before.connections.length + 1⟩] }
  | spawns {action task} : before.Accepts task → Moves before action (before.spawn task).2
  | closes {action} (connection) : action.closes connection = true →
      before.phase? connection ≠ some .closed →
      Moves before action ((before.adjust connection (·.beginClosing)).spawn (.purge connection)).2
  | drains : Moves before .beginDrain before.beginDrain.2
  | permits {action after} : Idle { before with tasks := after.tasks } after →
      (∀ id, Ordered.get? after.tasks id = Ordered.get? before.tasks id ∨
        Ordered.get? after.tasks id = (Ordered.get? before.tasks id).map Task.permit) →
      Moves before action after
  | becomes {id task next middle} : Ordered.get? before.tasks id = some task →
      Follows before task next → Idle before middle →
      Moves before (.advance id) (middle.become id next)
  | ends {id task middle} : Ordered.get? before.tasks id = some task → Ends task →
      Idle before middle → Moves before (.advance id) (middle.finish id)
  | purges {id connection middle} : Ordered.get? before.tasks id = some (.purge connection) →
      before.phase? connection ≠ some .closed → Idle before middle →
      Moves before (.advance id) ((middle.markClosed connection).finish id)
  | completes {id connection rest report middle} (count : Nat) :
      Ordered.get? before.tasks id = some (.complete (connection :: rest) report) →
      Idle before middle →
      Moves before (.advance id)
        ((middle.markClosed connection).become id
          (.complete rest
            { report with subscriptionsCompleted := report.subscriptionsCompleted + count }))

theorem permit_permit (task : Task) : task.permit.permit = task.permit := by
  cases task <;> try rfl
  all_goals
    rename_i job
    cases job <;> rfl

theorem get?_foldl_permit (woken : List TaskId) (tasks : Ordered TaskId Task) (id : TaskId) :
    let after := woken.foldl (fun tasks id => Ordered.adjust tasks id Task.permit) tasks
    Ordered.get? after id = Ordered.get? tasks id ∨
      Ordered.get? after id = (Ordered.get? tasks id).map Task.permit := by
  induction woken generalizing tasks with
  | nil => exact Or.inl rfl
  | cons first rest ih =>
    have later := ih (Ordered.adjust tasks first Task.permit)
    rw [Ordered.get?_adjust] at later
    by_cases same : first = id
    · rw [if_pos same, Option.map_map] at later
      have once : Task.permit ∘ Task.permit = Task.permit := funext permit_permit
      rw [once] at later
      exact Or.inr (or_self_iff.mp later)
    · rw [if_neg same] at later
      exact later

theorem moves_close (server : Server σ) {action : Action} (id : ConnectionId)
    (closes : action.closes id = true) : Moves server action (server.close id).2 := by
  unfold close
  split
  · exact .idle (.refl server)
  · rename_i notClosed
    exact .closes id closes notClosed

theorem moves_handle (server : Server σ) (connection : ConnectionId) (message : ClientMessage) :
    Moves server (.handle connection message) (server.handle connection message).2 := by
  cases message with
  | connectionInit | ping => exact .idle (idle_send server connection _)
  | pong => exact .idle (.refl server)
  | connectionTerminate => exact moves_close server connection (decide_eq_true rfl)
  | stop id => exact .spawns trivial
  | start id request =>
    unfold handle startOperation
    dsimp only
    split
    · exact .idle (idle_send server connection _)
    · rename_i opened
      have opened := Decidable.not_not.mp opened
      split
      · exact .idle (idle_send server connection _)
      · refine .spawns ?_
        split <;> exact opened

theorem moves_submit (server : Server σ) (request : Request) :
    Moves server (.submit request) (server.submit request).2 := by
  unfold submit
  split
  · exact .idle (.refl server)
  · rename_i notDraining
    split
    · exact .idle (.refl server)
    · split
      · exact .idle (.refl server)
      · exact .spawns (by simpa [Accepts] using notDraining)

/-- A step of a job changes the world and the gates, and then its task or what is left of it. -/
theorem resumeJob_cases (server : Server σ) (task : TaskId) (job : Job) (waiting : Job → Task)
    (finished : Response → Server σ → Server σ) :
    ∃ middle, Idle server middle ∧ middle.connections = server.connections ∧
      ((∃ rest, server.resumeJob task job waiting finished = middle.become task (waiting rest)) ∨
        ∃ response gates world,
          job.resume server.engine server.gates server.world = (.finished response, gates, world) ∧
          server.resumeJob task job waiting finished = finished response middle) := by
  have idle : ∀ gates world, Idle server { server with world, gates } :=
    fun gates world => ⟨fun _ => rfl, fun _ => rfl, fun _ => rfl, rfl, rfl, rfl, rfl, rfl⟩
  unfold resumeJob
  rcases resumed : job.resume server.engine server.gates server.world with ⟨outcome, gates, world⟩
  cases outcome with
  | waiting gate remaining run => exact ⟨_, idle _ world, rfl, Or.inl ⟨_, rfl⟩⟩
  | finished response => exact ⟨_, idle gates world, rfl, Or.inr ⟨response, gates, world, rfl, rfl⟩⟩

/-- The next step of an operation of a connection: it waits or goes on, or it is over, and its
result is queued and then that it is complete. -/
theorem advance_query {server : Server σ} {task : TaskId} {owner : ConnectionId} {id : String}
    {job : Job} (found : Ordered.get? server.tasks task = some (.query owner id job)) :
    server.advance task = server ∨ ∃ middle, Idle server middle ∧
      middle.connections = server.connections ∧
      ((∃ rest, server.advance task = middle.become task (.query owner id rest)) ∨
        ∃ response gates world,
          job.resume server.engine server.gates server.world = (.finished response, gates, world) ∧
            server.advance task =
              ((middle.send owner (.next id response)).send owner (.complete id)).finish task) := by
  have step : server.advance task = if job.isWaiting then server else
      server.resumeJob task job (.query owner id) fun response server =>
        ((server.send owner (.next id response)).send owner (.complete id)).finish task := by
    rw [advance, found]
  rw [step]
  split
  · exact Or.inl rfl
  · exact Or.inr (resumeJob_cases server task job _ _)

theorem advance_request_eq {server : Server σ} {task : TaskId} {job : Job}
    (found : Ordered.get? server.tasks task = some (.request job)) :
    server.advance task = if job.isWaiting then server else
      server.resumeJob task job .request fun response server =>
        server.become task (.answered response) := by
  rw [advance, found]

/-- The next step of an operation that is asked for without a connection: it waits or goes on, or
its response is there to be taken. -/
theorem advance_request {server : Server σ} {task : TaskId} {job : Job}
    (found : Ordered.get? server.tasks task = some (.request job)) :
    server.advance task = server ∨ ∃ middle, Idle server middle ∧
      middle.connections = server.connections ∧
      ((∃ rest, server.advance task = middle.become task (.request rest)) ∨
        ∃ response gates world,
          job.resume server.engine server.gates server.world = (.finished response, gates, world) ∧
            server.advance task = middle.become task (.answered response)) := by
  rw [advance_request_eq found]
  split
  · exact Or.inl rfl
  · exact Or.inr (resumeJob_cases server task job _ _)

theorem moves_advance (server : Server σ) (id : TaskId) :
    Moves server (.advance id) (server.advance id) := by
  have registered : ∀ registry, Idle server { server with registry } :=
    fun registry => ⟨fun _ => rfl, fun _ => rfl, fun _ => rfl, rfl, rfl, rfl, rfl, rfl⟩
  cases found : Ordered.get? server.tasks id with
  | none =>
    rw [advance, found]
    exact .idle (.refl server)
  | some task =>
    cases task with
    | purge connection =>
      rw [advance, found]
      dsimp only
      unfold purge
      dsimp only
      split
      · exact .ends found .purge (registered _)
      · rename_i notClosed
        exact .purges found notClosed (registered _)
    | register connection name operation =>
      rw [advance, found]
      dsimp only
      unfold registerSubscription
      dsimp only
      split
      · exact .ends found .register ((registered _).trans (idle_send _ connection _))
      · split
        · exact .ends found .register (registered _)
        · exact .becomes found .withdraw (registered _)
    | withdraw connection name registration =>
      rw [advance, found]
      refine .ends found .withdraw ?_
      unfold withdraw
      dsimp only
      split
      · exact (registered _).trans (idle_send _ connection _)
      · exact registered _
    | unregister connection name =>
      rw [advance, found]
      exact .ends found .unregister (registered _)
    | query connection name job =>
      rcases advance_query found with
        waits | ⟨middle, idle, -, ⟨rest, goesOn⟩ | ⟨response, gates, world, -, finished⟩⟩
      · rw [waits]
        exact .idle (.refl server)
      · rw [goesOn]
        exact .becomes found .query idle
      · rw [finished]
        exact .ends found .query
          ((idle.trans (idle_send _ connection _)).trans (idle_send _ connection _))
    | request job =>
      rcases advance_request found with
        waits | ⟨middle, idle, -, ⟨rest, goesOn⟩ | ⟨response, gates, world, -, finished⟩⟩
      · rw [waits]
        exact .idle (.refl server)
      · rw [goesOn]
        exact .becomes found .request idle
      · rw [finished]
        exact .becomes found .answered idle
    | answered response =>
      rw [advance, found]
      exact .idle (.refl server)
    | drain connections deadline =>
      rw [advance, found]
      dsimp only
      split
      · exact .idle (.refl server)
      · exact .becomes found .complete (.refl server)
    | complete remaining report =>
      rw [advance, found]
      cases remaining with
      | nil => exact .becomes found .drained (.refl server)
      | cons connection rest =>
        refine .completes _ found ?_
        exact (registered _).trans
          (idle_foldl _ (fun server name => idle_send server connection _) _)
    | drained report =>
      rw [advance, found]
      exact .idle (.refl server)

theorem act_reload (server : Server σ) (schema : TypeSystem) :
    ∃ engine, server.act (.reload schema) = { server with engine } := by
  rw [act, Server.reload]
  cases server.engine.reload schema with
  | error error => exact ⟨server.engine, rfl⟩
  | ok engine => exact ⟨engine, rfl⟩

theorem moves_act (server : Server σ) (action : Action) :
    Moves server action (server.act action) := by
  cases action with
  | openConnection =>
    unfold act openConnection
    dsimp only
    split
    · exact .idle (.refl server)
    · rename_i notDraining
      exact .opens (by simpa using notDraining)
  | handle connection message => exact moves_handle server connection message
  | close connection => exact moves_close server connection (decide_eq_true rfl)
  | publish event => exact .idle (idle_publish server event)
  | pump =>
    unfold act pump
    dsimp only
    split
    · rename_i event channel _
      refine .idle (Idle.trans ?_ (idle_publish _ event))
      exact ⟨fun _ => rfl, fun _ => rfl, fun _ => rfl, rfl, rfl, rfl, rfl, rfl⟩
    · exact .idle (.refl server)
  | submit request => exact moves_submit server request
  | beginDrain => exact .drains
  | advance task => exact moves_advance server task
  | release gate count =>
    refine .permits ⟨fun _ => rfl, fun _ => rfl, fun _ => rfl, rfl, rfl, rfl, rfl, rfl⟩ fun id => ?_
    exact get?_foldl_permit _ server.tasks id
  | reload schema =>
    obtain ⟨engine, reloaded⟩ := act_reload server schema
    rw [reloaded]
    exact .idle ⟨fun _ => rfl, fun _ => rfl, fun _ => rfl, rfl, rfl, rfl, rfl, rfl⟩
  | wait milliseconds =>
    exact .idle ⟨fun _ => rfl, fun _ => rfl, fun _ => rfl, rfl, rfl, rfl, rfl, rfl⟩

theorem get?_spawn (server : Server σ) (task : Task) (id : TaskId) :
    Ordered.get? (server.spawn task).2.tasks id =
      if ⟨server.nextTask⟩ = id then some task else Ordered.get? server.tasks id :=
  Ordered.get?_insert _ _ _ _

theorem get?_become (server : Server σ) (task : TaskId) (next : Task) (id : TaskId) :
    Ordered.get? (server.become task next).tasks id =
      if task = id then some next else Ordered.get? server.tasks id :=
  Ordered.get?_insert _ _ _ _

theorem get?_finish (server : Server σ) (task id : TaskId) :
    Ordered.get? (server.finish task).tasks id =
      if task = id then none else Ordered.get? server.tasks id :=
  Ordered.get?_erase _ _ _

/-- A connection that begins to close goes from open to closing, and others stay as they are. -/
theorem phase?_beginClosing (server : Server σ) (id : ConnectionId) :
    let after := server.adjust id (·.beginClosing)
    after.phase? id ≠ some .open ∧ ∀ other, after.phase? other = server.phase? other ∨
      server.phase? other = some .open ∧ after.phase? other = some .closing := by
  have changed : ∀ other, (server.adjust id (·.beginClosing)).phase? other =
      if id = other then (server.phase? other).map fun phase => if phase = .open then .closing else
        phase
      else server.phase? other := by
    intro other
    rw [phase?_adjust, funext Connection.phase_beginClosing, phase?, Option.map_map]
    rfl
  refine ⟨?_, ?_⟩
  · rw [changed, if_pos rfl]
    rcases server.phase? id with _ | phase
    · nofun
    · cases phase <;> nofun
  · intro other
    rw [changed]
    split
    · rcases server.phase? other with _ | phase
      · exact Or.inl rfl
      · cases phase
        · exact Or.inr ⟨rfl, rfl⟩
        · exact Or.inl rfl
        · exact Or.inl rfl
    · exact Or.inl rfl

theorem phase?_markClosed (server : Server σ) (id other : ConnectionId) :
    (server.markClosed id).phase? other =
      if id = other then (server.phase? other).map fun _ => .closed else server.phase? other := by
  change (server.adjust id (·.markClosed)).phase? other = _
  rw [phase?_adjust, phase?, Option.map_map]
  rfl

/-- The connections that a drain finds begin to close, and nothing else changes. -/
theorem foldl_beginClosing (ids : List ConnectionId) (server : Server σ) :
    let after := ids.foldl (fun server id => server.adjust id (·.beginClosing)) server
    after = { server with connections := after.connections } ∧
      after.connections.length = server.connections.length ∧
      (∀ other,
        (after.connection? other).map (·.attached) = (server.connection? other).map (·.attached)) ∧
      (∀ other, (after.connection? other).map (·.cancelled) =
        (server.connection? other).map (·.cancelled)) ∧
      (∀ other ∈ ids, after.phase? other ≠ some .open) ∧
      ∀ other, after.phase? other = server.phase? other ∨
        server.phase? other = some .open ∧ after.phase? other = some .closing := by
  induction ids generalizing server with
  | nil => exact ⟨rfl, rfl, fun _ => rfl, fun _ => rfl, nofun, fun _ => Or.inl rfl⟩
  | cons id rest ih =>
    obtain ⟨same, count, attached, cancelled, notOpen, phase⟩ :=
      ih (server.adjust id (·.beginClosing))
    obtain ⟨firstNotOpen, firstPhase⟩ := phase?_beginClosing server id
    dsimp only at notOpen phase firstNotOpen firstPhase ⊢
    rw [List.foldl_cons]
    refine ⟨same, count.trans (Ordered.length_adjust _ _ _), ?_, ?_, ?_, ?_⟩
    · intro other
      exact (attached other).trans (map_adjust server id other Connection.attached_beginClosing)
    · intro other
      exact (cancelled other).trans (map_adjust server id other Connection.cancelled_beginClosing)
    · intro other member
      rcases List.mem_cons.mp member with rfl | member
      · rcases phase other with stays | ⟨wasOpen, -⟩
        · rw [stays]
          exact firstNotOpen
        · exact absurd wasOpen firstNotOpen
      · exact notOpen other member
    · intro other
      rcases firstPhase other with stays | ⟨wasOpen, closing⟩
      · rw [← stays]
        exact phase other
      · rcases phase other with later | ⟨again, -⟩
        · exact Or.inr ⟨wasOpen, later.trans closing⟩
        · rw [closing] at again
          cases again

/-- What the beginning of a drain does. -/
structure BeginsDrain (before after : Server σ) : Prop where
  draining : after.draining = true
  live : after.live = before.live
  count : after.connections.length = before.connections.length
  attached : ∀ id,
      (after.connection? id).map (·.attached) = (before.connection? id).map (·.attached)
  cancelled : ∀ id,
      (after.connection? id).map (·.cancelled) = (before.connection? id).map (·.cancelled)
  notOpen : ∀ id ∈ before.live, after.phase? id ≠ some .open
  phase : ∀ id, after.phase? id = before.phase? id ∨
    before.phase? id = some .open ∧ after.phase? id = some .closing
  tasks : ∀ id, Ordered.get? after.tasks id = if ⟨before.nextTask⟩ = id then
    some (.drain before.live (before.now + before.drainTimeout)) else Ordered.get? before.tasks id
  nextTask : after.nextTask = before.nextTask + 1

theorem beginsDrain (server : Server σ) : BeginsDrain server server.beginDrain.2 := by
  obtain ⟨same, count, attached, cancelled, notOpen, phase⟩ :=
    foldl_beginClosing server.live { server with draining := true }
  have draining := congrArg Server.draining same
  have live := congrArg Server.live same
  have nextTask := congrArg (fun server => server.nextTask + 1) same
  refine ⟨draining, live, count, attached, cancelled, notOpen, phase, ?_, nextTask⟩
  intro id
  refine (Ordered.get?_insert _ _ _ _).trans ?_
  rw [same]

/-- What becomes of a task by a step of its own. -/
inductive Goes (server : Server σ) : Task → Option Task → Prop
  | on {task next} : Follows server task next → Goes server task (some next)
  | away {task} : Ends task → Goes server task none
  | completes {connection rest report} (count : Nat) :
      Goes server (.complete (connection :: rest) report)
        (some (.complete rest
          { report with subscriptionsCompleted := report.subscriptionsCompleted + count }))

/-- A task that an action adds. -/
inductive Arises (server : Server σ) : Action → Task → Prop
  | accepted {action task} : server.Accepts task → Arises server action task
  | purge {action connection} : action.closes connection = true →
      Arises server action (.purge connection)
  | drain (deadline) : Arises server .beginDrain (.drain server.live deadline)

/-- What an action does to the task of a number: nothing, or it gives it a permit, or takes its
step, or adds it. -/
theorem Moves.lookup {before after : Server σ} {action : Action} (moves : Moves before action after)
    (id : TaskId) :
    Ordered.get? after.tasks id = Ordered.get? before.tasks id ∨
      Ordered.get? after.tasks id = (Ordered.get? before.tasks id).map Task.permit ∨
      (action = .advance id ∧ ∃ task, Ordered.get? before.tasks id = some task ∧
        Goes before task (Ordered.get? after.tasks id)) ∨
      ⟨before.nextTask⟩ = id ∧
        ∃ task, Ordered.get? after.tasks id = some task ∧ Arises before action task := by
  cases moves with
  | idle idle =>
    rw [idle.tasks]
    exact Or.inl rfl
  | opens calm => exact Or.inl rfl
  | @spawns _ task accepts =>
    rw [get?_spawn]
    split
    · rename_i same
      exact Or.inr (Or.inr (Or.inr ⟨same, task, rfl, .accepted accepts⟩))
    · exact Or.inl rfl
  | closes connection closes =>
    rw [get?_spawn]
    split
    · rename_i same
      exact Or.inr (Or.inr (Or.inr ⟨same, _, rfl, .purge closes⟩))
    · exact Or.inl rfl
  | drains =>
    rw [(beginsDrain before).tasks]
    split
    · rename_i same
      exact Or.inr (Or.inr (Or.inr ⟨same, _, rfl, .drain _⟩))
    · exact Or.inl rfl
  | permits idle permitted =>
    rcases permitted id with same | woken
    · exact Or.inl same
    · exact Or.inr (Or.inl woken)
  | becomes found follows idle =>
    rw [get?_become, idle.tasks]
    split
    · rename_i same
      subst same
      exact Or.inr (Or.inr (Or.inl ⟨rfl, _, found, .on follows⟩))
    · exact Or.inl rfl
  | ends found ends idle =>
    rw [get?_finish, idle.tasks]
    split
    · rename_i same
      subst same
      exact Or.inr (Or.inr (Or.inl ⟨rfl, _, found, .away ends⟩))
    · exact Or.inl rfl
  | purges found notClosed idle =>
    rw [get?_finish, markClosed, adjust, idle.tasks]
    split
    · rename_i same
      subst same
      exact Or.inr (Or.inr (Or.inl ⟨rfl, _, found, .away .purge⟩))
    · exact Or.inl rfl
  | completes count found idle =>
    rw [get?_become, markClosed, adjust, idle.tasks]
    split
    · rename_i same
      subst same
      exact Or.inr (Or.inr (Or.inl ⟨rfl, _, found, .completes count⟩))
    · exact Or.inl rfl

/-- What holds of all tasks goes on to hold, if permits and steps keep it and every added task has
it. -/
theorem Moves.all {before after : Server σ} {action : Action} (moves : Moves before action after)
    {kept : Task → Prop} (all : ∀ id task, Ordered.get? before.tasks id = some task → kept task)
    (permits : ∀ task, kept task → kept task.permit)
    (goes : ∀ id task next, Ordered.get? before.tasks id = some task →
      Goes before task (some next) → kept next)
    (arises : ∀ task, Arises before action task → kept task) (id : TaskId) (task : Task)
    (found : Ordered.get? after.tasks id = some task) : kept task := by
  rcases moves.lookup id with same | woken | ⟨-, old, earlier, step⟩ | ⟨-, new, now, added⟩
  · exact all id task (same.symm.trans found)
  · rw [woken] at found
    obtain ⟨old, earlier, rfl⟩ := Option.map_eq_some_iff.mp found
    exact permits old (all id old earlier)
  · rw [found] at step
    exact goes id old task earlier step
  · obtain rfl : new = task := Option.some.inj (now.symm.trans found)
    exact arises new added

/-- A connection is closed by its own purge or by a drain, and by nothing else. -/
theorem Moves.notClosed {before after : Server σ} {action : Action}
    (moves : Moves before action after) {connection : ConnectionId} {phase : Phase}
    (found : before.phase? connection = some phase) (notClosed : phase ≠ .closed) :
    (∃ phase, after.phase? connection = some phase ∧ phase ≠ .closed) ∨ ∃ id, action = .advance id ∧
      (Ordered.get? before.tasks id = some (.purge connection) ∨
        ∃ rest report,
          Ordered.get? before.tasks id = some (.complete (connection :: rest) report)) := by
  have kept : ∀ after : Server σ, after.phase? connection = before.phase? connection →
      ∃ phase, after.phase? connection = some phase ∧ phase ≠ .closed :=
    fun after same => ⟨phase, same.trans found, notClosed⟩
  have closing : ∀ after : Server σ, after.phase? connection = before.phase? connection ∨
      before.phase? connection = some .open ∧ after.phase? connection = some .closing →
      ∃ phase, after.phase? connection = some phase ∧ phase ≠ .closed := by
    rintro after (same | ⟨-, now⟩)
    · exact kept after same
    · refine ⟨.closing, now, ?_⟩
      intro impossible
      cases impossible
  have elsewhere : ∀ {middle : Server σ} {other : ConnectionId}, Idle before middle →
      other ≠ connection →
      (middle.markClosed other).phase? connection = before.phase? connection := by
    intro middle other idle different
    change (middle.adjust other (·.markClosed)).phase? connection = before.phase? connection
    rw [phase?_adjust, if_neg different, idle.phase]
  cases moves with
  | idle idle | becomes _ _ idle | ends _ _ idle => exact Or.inl (kept _ (idle.phase connection))
  | permits idle => exact Or.inl (kept _ (idle.phase connection))
  | spawns => exact Or.inl (kept _ rfl)
  | opens calm =>
    rw [phase?, Server.connection?, Ordered.get?_insert]
    split
    · refine Or.inl ⟨.open, rfl, ?_⟩
      intro impossible
      cases impossible
    · exact Or.inl (kept before rfl)
  | closes other => exact Or.inl (closing _ ((phase?_beginClosing before other).2 connection))
  | drains => exact Or.inl (closing _ ((beginsDrain before).phase connection))
  | @purges id other _ purge _ idle =>
    by_cases same : other = connection
    · subst same
      exact Or.inr ⟨id, rfl, Or.inl purge⟩
    · exact Or.inl (kept _ (elsewhere idle same))
  | @completes id other rest report _ count complete idle =>
    by_cases same : other = connection
    · subst same
      exact Or.inr ⟨id, rfl, Or.inr ⟨rest, report, complete⟩⟩
    · exact Or.inl (kept _ (elsewhere idle same))

theorem Moves.nextTask_le {before after : Server σ} {action : Action}
    (moves : Moves before action after) : before.nextTask ≤ after.nextTask := by
  cases moves with
  | idle idle | becomes _ _ idle | ends _ _ idle | purges _ _ idle | completes _ _ idle =>
    exact Nat.le_of_eq idle.nextTask.symm
  | permits idle => exact Nat.le_of_eq idle.nextTask.symm
  | opens => exact Nat.le_refl _
  | spawns | closes => exact Nat.le_succ _
  | drains =>
    rw [(beginsDrain before).nextTask]
    exact Nat.le_succ _

theorem outbox_of_connections {before after : Server σ}
    (same : after.connections = before.connections) (id : ConnectionId) :
    after.outbox id = before.outbox id := by
  rw [outbox, outbox, connection?, connection?, same]

theorem outbox_send {server : Server σ} {connection : ConnectionId} {phase : Phase}
    (found : server.phase? connection = some phase) (notClosed : phase ≠ .closed)
    (attached : (server.connection? connection).map (·.attached) ≠ some false)
    (message : ServerMessage) :
    (server.send connection message).outbox connection = server.outbox connection ++ [message] := by
  obtain ⟨known, present, rfl⟩ := Option.map_eq_some_iff.mp found
  have accepts : known.accepts = true := by
    rw [present, Option.map_some, ne_eq, Option.some.injEq, Bool.not_eq_false] at attached
    simp [Connection.accepts, notClosed, attached]
  rw [outbox, send, connection?_adjust, if_pos rfl, outbox, present]
  simp [Connection.send, accepts, Connection.queue]

theorem outbox_send_closed {server : Server σ} {connection : ConnectionId}
    (closed : server.phase? connection = some .closed) (message : ServerMessage) :
    (server.send connection message).outbox connection = server.outbox connection := by
  obtain ⟨known, present, phase⟩ := Option.map_eq_some_iff.mp closed
  have refuses : known.accepts = false := by simp [Connection.accepts, phase]
  rw [outbox, send, connection?_adjust, if_pos rfl, outbox, present]
  simp [Connection.send, refuses]

end Server

end MockGraph
