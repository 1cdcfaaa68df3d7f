import MockGraph.Operation.Lowering
import MockGraph.Server.Connection
import MockGraph.Server.Task
set_option autoImplicit false

namespace MockGraph

/-- Connections, subscriptions, running operations and drains. Whatever a call does between two
points where it waits is one step, and the steps of different calls may come in any order. -/
structure Server (σ : Type) where
  engine : Engine σ
  world : World σ
  registry : Registry
  /-- Every connection that was ever opened. -/
  connections : Ordered ConnectionId Connection
  /-- The connections that are served, in the order in which they were opened. -/
  live : List ConnectionId
  draining : Bool
  /-- How long a drain waits for running operations, in milliseconds. -/
  drainTimeout : Nat
  /-- The time in milliseconds. -/
  now : Nat
  tasks : Ordered TaskId Task
  nextTask : Nat
  gates : Gates

/-- A call was refused because the server is draining. -/
inductive Draining where
  | draining
deriving DecidableEq, Inhabited, Repr

namespace Draining

def message (_ : Draining) : String := "server is draining and no longer accepts work"

def fieldError (error : Draining) : FieldError :=
  (FieldError.new error.message).withCode "SERVER_DRAINING"

end Draining

namespace Server

variable {σ : Type}

/-- A server without connections at time zero. -/
def start (engine : Engine σ) (world : World σ) (drainTimeout : Nat) : Server σ where
  engine := engine
  world := world
  registry := .empty
  connections := []
  live := []
  draining := false
  drainTimeout := drainTimeout
  now := 0
  tasks := []
  nextTask := 0
  gates := []

def connection? (server : Server σ) (id : ConnectionId) : Option Connection :=
  Ordered.get? server.connections id

def phase? (server : Server σ) (id : ConnectionId) : Option Phase :=
  (server.connection? id).map (·.phase)

def adjust (server : Server σ) (id : ConnectionId) (change : Connection → Connection) : Server σ :=
  { server with connections := Ordered.adjust server.connections id change }

/-- Queues a message on a connection, unless it is refused. -/
def send (server : Server σ) (id : ConnectionId) (message : ServerMessage) : Server σ :=
  server.adjust id (·.send message)

def spawn (server : Server σ) (task : Task) : TaskId × Server σ :=
  let id : TaskId := ⟨server.nextTask⟩
  (id,
    { server with tasks := Ordered.insert server.tasks id task, nextTask := server.nextTask + 1 })

def become (server : Server σ) (id : TaskId) (task : Task) : Server σ :=
  { server with tasks := Ordered.insert server.tasks id task }

def finish (server : Server σ) (id : TaskId) : Server σ :=
  { server with tasks := Ordered.erase server.tasks id }

/-- A connection as a place where events go. -/
def sinkOf (id : ConnectionId) : SinkId := ⟨id.number⟩

def sinkState (server : Server σ) (sink : SinkId) : SinkState :=
  match server.connection? ⟨sink.number⟩ with
  | none => .gone
  | some connection => if connection.acceptsEvents then .accepting else .refusing

/-- Delivers an event to the subscriptions of its root field, and counts the deliveries. -/
def publish (server : Server σ) (event : Event) : Nat × Server σ :=
  let (deliveries, world) :=
    server.registry.publish server.engine server.sinkState event server.world
  let server := { server with world }
  (deliveries.length,
    deliveries.foldl (fun server delivery =>
      server.adjust ⟨delivery.sink.number⟩ (·.deliver delivery.message)) server)

/-- Takes the oldest event from the channel and delivers it. -/
def pump (server : Server σ) : Server σ :=
  match server.world.channel.next with
  | (.event event, channel) => ({ server with world.channel := channel }.publish event).2
  | _ => server

/-- Opens a connection, unless the server is draining. -/
def openConnection (server : Server σ) : Except Draining ConnectionId × Server σ :=
  if server.draining then (.error .draining, server)
  else
    let id : ConnectionId := ⟨server.connections.length + 1⟩
    (.ok id, { server with
      connections := Ordered.insert server.connections id .new
      live := server.live ++ [id] })

/-- Begins to close a connection whose transport is gone. Running operations are not waited for. -/
def close (server : Server σ) (id : ConnectionId) : Option TaskId × Server σ :=
  if server.phase? id = some .closed then (none, server)
  else
    let (task, server) := (server.adjust id (·.beginClosing)).spawn (.purge id)
    (some task, server)

/-- Begins an operation of a connection, unless the connection closes or the operation is
rejected. -/
def startOperation (server : Server σ) (connection : ConnectionId) (id : String)
    (request : Request) : Option TaskId × Server σ :=
  let refuse (error : FieldError) : Option TaskId × Server σ :=
    (none, server.send connection (.error id [error]))
  if server.phase? connection ≠ some .open then refuse (Draining.fieldError .draining)
  else
    match server.engine.schema.parseOperation request.query request.operationName
      request.bindings with
    | .error error => refuse error.fieldError
    | .ok operation =>
      let (task, server) := server.spawn
        (if operation.kind = .subscription then .register connection id operation
          else .query connection id (.queued operation))
      (some task, server)

def handle (server : Server σ) (connection : ConnectionId) (message : ClientMessage) :
    Option TaskId × Server σ :=
  match message with
  | .connectionInit _ => (none, server.send connection .connectionAck)
  | .ping => (none, server.send connection .pong)
  | .pong => (none, server)
  | .connectionTerminate => server.close connection
  | .start id request => server.startOperation connection id request
  | .stop id =>
    let (task, server) := server.spawn (.unregister connection id)
    (some task, server)

/-- What becomes of a request outside any connection. -/
inductive Submission where
  | refused (error : Draining)
  | answered (response : Response)
  | running (task : TaskId)

/-- Takes a request outside any connection. Subscriptions need one. -/
def submit (server : Server σ) (request : Request) : Submission × Server σ :=
  if server.draining then (.refused .draining, server)
  else
    match server.engine.schema.parseOperation request.query request.operationName
      request.bindings with
    | .error error => (.answered (.error error.fieldError), server)
    | .ok operation =>
      if operation.kind = .subscription then
        (.answered (.error (ValidationError.fieldError .subscriptionOverHttp)), server)
      else
        let (task, server) := server.spawn (.request (.queued operation))
        (.running task, server)

/-- Begins a drain: from here on nothing new is taken, and all live connections close. -/
def beginDrain (server : Server σ) : TaskId × Server σ :=
  let closing := server.live.foldl (fun server id => server.adjust id (·.beginClosing))
    { server with draining := true }
  closing.spawn (.drain server.live (server.now + server.drainTimeout))

/-- Operations are still running on some connections or outside any. -/
def hasRunning (server : Server σ) (connections : List ConnectionId) : Bool :=
  server.tasks.any fun (_, task) => task.isRequest || connections.any fun id => task.isQueryOf id

/-- Adds permits to a gate, and tells which tasks got one. -/
def release (server : Server σ) (gate : String) (count : Nat) : List TaskId × Server σ :=
  let (woken, gates) := server.gates.release gate count
  (woken, { server with
    gates
    tasks := woken.foldl (fun tasks id => Ordered.adjust tasks id Task.permit) server.tasks })

def markClosed (server : Server σ) (id : ConnectionId) : Server σ :=
  { server.adjust id (·.markClosed) with live := server.live.filter (· ≠ id) }

/-- Goes on with a job. The rest of it is put back if it waits. -/
def resumeJob (server : Server σ) (task : TaskId) (job : Job) (waiting : Job → Task)
    (finished : Response → Server σ → Server σ) : Server σ :=
  let (outcome, gates, world) := job.resume server.engine server.gates server.world
  match outcome with
  | .waiting gate remaining run =>
    { server with world, gates := gates.await gate task }.become task
      (waiting (.running remaining run false))
  | .finished response => finished response { server with world, gates }

/-- Removes the subscriptions of a closing connection, and closes it. -/
def purge (server : Server σ) (connection : ConnectionId) : Server σ :=
  let (_, registry) := server.registry.purge connection
  let server := { server with registry }
  if server.phase? connection = some .closed then server else server.markClosed connection

/-- Completes the subscriptions of a connection that a drain closes, and counts them. -/
def completeConnection (server : Server σ) (connection : ConnectionId) : Nat × Server σ :=
  let (purged, registry) := server.registry.purge connection
  let server :=
    purged.foldl (fun server id => server.send connection (.complete id)) { server with registry }
  (purged.length, server.markClosed connection)

/-- Registers a subscription. If its connection is no longer open, the registration is to be
withdrawn. -/
def registerSubscription (server : Server σ) (task : TaskId) (connection : ConnectionId)
    (id : String) (operation : Operation) : Server σ :=
  let (result, registry) := server.registry.register connection (sinkOf connection) id operation
  let server := { server with registry }
  match result with
  | .error error => (server.send connection (.error id [error.fieldError])).finish task
  | .ok registration =>
    if server.phase? connection = some .open then server.finish task
    else server.become task (.withdraw connection id registration.id)

/-- Takes back a registration, and tells the client if nobody else has. -/
def withdraw (server : Server σ) (connection : ConnectionId) (id : String)
    (registration : RegistrationId) : Server σ :=
  let (removed, registry) := server.registry.unregister registration
  let server := { server with registry }
  if removed then server.send connection (.error id [Draining.fieldError .draining]) else server

/-- The next step of a task. Nothing happens while it has to wait. -/
def advance (server : Server σ) (task : TaskId) : Server σ :=
  match Ordered.get? server.tasks task with
  | none => server
  | some (.purge connection) => (server.purge connection).finish task
  | some (.register connection id operation) =>
    server.registerSubscription task connection id operation
  | some (.withdraw connection id registration) =>
    (server.withdraw connection id registration).finish task
  | some (.unregister connection id) =>
    { server with registry := (server.registry.unregisterOperation connection id).2 }.finish task
  | some (.query connection id job) =>
    if job.isWaiting then server
    else
      server.resumeJob task job (.query connection id) fun response server =>
        ((server.send connection (.next id response)).send connection (.complete id)).finish task
  | some (.request job) =>
    if job.isWaiting then server
    else
      server.resumeJob task job .request fun response server =>
        server.become task (.answered response)
  | some (.drain connections deadline) =>
    let timedOut := server.hasRunning connections
    if timedOut && server.now < deadline then server
    else server.become task (.complete connections ⟨connections.length, 0, timedOut⟩)
  | some (.complete [] report) => server.become task (.drained report)
  | some (.complete (connection :: rest) report) =>
    let (count, server) := server.completeConnection connection
    server.become task
      (.complete rest
        { report with subscriptionsCompleted := report.subscriptionsCompleted + count })
  | some (.answered _) => server
  | some (.drained _) => server

def canAdvance (server : Server σ) (task : TaskId) : Bool :=
  match Ordered.get? server.tasks task with
  | none => false
  | some (.query _ _ job) => !job.isWaiting
  | some (.request job) => !job.isWaiting
  | some (.drain connections deadline) => !(server.hasRunning connections && server.now < deadline)
  | some (.answered _) => false
  | some (.drained _) => false
  | some _ => true

/-- Replaces the schema, if the mock rules fit the new one. -/
def reload (server : Server σ) (schema : TypeSystem) : Except SchemaError (Server σ) :=
  (server.engine.reload schema).map fun engine => { server with engine }

end Server

end MockGraph
