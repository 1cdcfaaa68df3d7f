import MockGraph.Server.Http
import MockGraph.Server.Settle
import MockGraph.Server.Socket
set_option autoImplicit false

namespace MockGraph.Server

/-- A socket that a connection was opened for. -/
structure Socket where
  writer : Writer
  /-- When the next keep-alive message is due. -/
  nextTick : Nat
deriving Inhabited

namespace Socket

/-- Writes what is queued, and closes the socket of a connection that is closed. -/
def catchUp (socket : Socket) (connection : Connection) : Socket :=
  let queued := connection.outbox.length - socket.writer.taken
  let writer :=
    Nat.repeat (fun writer => writer.turn connection.outbox .message) queued socket.writer
  { socket with
    writer := if connection.cancelled then writer.turn connection.outbox .closed else writer }

/-- Writes a keep-alive message if one is due. -/
def tick (socket : Socket) (connection : Connection) (keepalive now : Nat) : Socket :=
  if now < socket.nextTick then socket
  else ⟨socket.writer.turn connection.outbox .tick, now + keepalive⟩

end Socket

inductive ClientFrame where
  | text (text : String)
  | binary
  | ping (payload : String)
  | close
deriving DecidableEq, Inhabited, Repr

/-- What becomes of a request for a socket. -/
inductive Connected where
  | reply (reply : HttpReply)
  | socket (connection : ConnectionId) (confirmed : Option String)
  /-- The server began to drain before the socket was ready. -/
  | refused (confirmed : Option String) (frames : List Frame)

end MockGraph.Server

namespace MockGraph

open Server in
/-- A server with its sockets on one thread. After each call all tasks go on until everything waits,
and time passes only where a call waits for it. -/
structure Host (σ : Type) where
  config : Config
  server : Server σ
  /-- Sockets by their connections. -/
  sockets : Ordered ConnectionId Socket

namespace Host

open MockGraph.Server (Socket ClientFrame Connected HttpRequest HttpReply Config)

variable {σ : Type}

def start (config : Config) (engine : Engine σ) (world : World σ) : Host σ :=
  ⟨config, .start engine world config.drainTimeout, []⟩

def adjustSocket (host : Host σ) (id : ConnectionId) (change : Socket → Socket) : Host σ :=
  { host with sockets := Ordered.adjust host.sockets id change }

/-- Changes all sockets by what their connections are. -/
def adjustSockets (host : Host σ) (change : Socket → Connection → Socket) : Host σ :=
  { host with sockets := host.sockets.map fun (id, socket) =>
      (id, ((host.server.connection? id).map (change socket)).getD socket) }

/-- Goes on with a server until everything waits. -/
def settle (host : Host σ) (server : Server σ) (ready : List Ready) : Host σ :=
  { host with server := server.settle ready }.adjustSockets Socket.catchUp

def openConnection (host : Host σ) : Except Draining ConnectionId × Host σ :=
  let (result, server) := host.server.openConnection
  (result, { host with server })

def receive (host : Host σ) (connection : ConnectionId) (message : ClientMessage) : Host σ :=
  host.settle (host.server.handle connection message).2 []

def close (host : Host σ) (connection : ConnectionId) : Host σ :=
  host.settle (host.server.close connection).2 []

/-- Queues a message on a connection, and tells whether it was taken. -/
def push (host : Host σ) (connection : ConnectionId) (message : ServerMessage) : Bool × Host σ :=
  (((host.server.connection? connection).map Connection.accepts).getD false,
    host.settle (host.server.send connection message) [])

/-- Queues a message on a connection as an event, and tells whether it was taken. -/
def deliver (host : Host σ) (connection : ConnectionId) (message : ServerMessage) : Bool × Host σ :=
  (((host.server.connection? connection).map Connection.acceptsEvents).getD false,
    host.settle (host.server.adjust connection (·.deliver message)) [])

/-- The transport of a connection takes no messages any more. -/
def detach (host : Host σ) (connection : ConnectionId) : Host σ :=
  { host with
    server :=
      host.server.adjust connection fun connection => { connection with attached := false } }

/-- Delivers an event at once, and counts the deliveries. -/
def publish (host : Host σ) (event : Event) : Nat × Host σ :=
  let (count, server) := host.server.publish event
  (count, host.settle server [])

/-- Publishes an event through the channel, and tells whether anyone reads it. -/
def emit (host : Host σ) (event : Event) : Bool × Host σ :=
  (host.server.world.channel.isRead,
    host.settle { host.server with world.channel := host.server.world.channel.publish event } [])

/-- Takes a request outside any connection, and goes on with it as far as it gets. -/
def submit (host : Host σ) (request : Request) : Server.Submission × Host σ :=
  let (submission, server) := host.server.submit request
  (submission, host.settle server [])

/-- Takes what a request came to, unless it still runs. -/
def collect? (host : Host σ) : Server.Submission → Option (Except Draining Response × Host σ)
  | .refused error => some (.error error, host)
  | .answered response => some (.ok response, host)
  | .running task =>
    (host.server.takeResponse? task).map fun (response, server) =>
      (.ok response, { host with server })

def release (host : Host σ) (gate : String) (count : Nat) : Host σ :=
  let (woken, server) := host.server.release gate count
  host.settle server (woken.map .task)

/-- Replaces the schema, if the mock rules fit the new one. -/
def reload (host : Host σ) (schema : TypeSystem) : Except SchemaError (Host σ) :=
  (host.server.reload schema).map fun server => { host with server }

def openSockets (host : Host σ) : List Socket :=
  (host.sockets.map Prod.snd).filter fun socket => !socket.writer.finished

/-- The next time at which something happens by itself. -/
def nextTimer? (host : Host σ) : Option Nat :=
  let deadlines := host.server.tasks.filterMap fun
    | (_, .drain _ deadline) => some deadline
    | _ => none
  ((host.openSockets.map Socket.nextTick) ++ deadlines).min?

/-- Goes to a time at which something happens. -/
def jump (host : Host σ) (time : Nat) : Host σ :=
  let ticked := { host with server.now := time }.adjustSockets fun socket connection =>
    socket.tick connection host.config.keepalive time
  ticked.settle ticked.server []

def waitWithin (done : Host σ → Bool) (target : Nat) : Nat → Host σ → Host σ
  | 0, host => host
  | fuel + 1, host =>
    if done host then host
    else
      match host.nextTimer? with
      | some time =>
        if time ≤ target then waitWithin done target fuel (host.jump time)
        else { host with server.now := target }
      | none => { host with server.now := target }

/-- Lets time pass until something holds, and for so many milliseconds at most. Timers lie in the
future, so that there are no more of them on the way than milliseconds. -/
def wait (host : Host σ) (done : Host σ → Bool) (milliseconds : Nat) : Host σ :=
  waitWithin done (host.server.now + milliseconds) (milliseconds + 1) host

def advance (host : Host σ) (milliseconds : Nat) : Host σ := host.wait (fun _ => false) milliseconds

/-- Begins a drain, and goes on with it as far as it gets. -/
def beginDrain (host : Host σ) : TaskId × Host σ :=
  let (task, server) := host.server.beginDrain
  (task, host.settle server [])

/-- Takes the report of a drain that is over. -/
def takeReport? (host : Host σ) (task : TaskId) : Option (DrainReport × Host σ) :=
  (host.server.takeReport? task).map fun (report, server) => (report, { host with server })

/-- Drains the server, and waits for as long as it takes. -/
def drain (host : Host σ) : Option (DrainReport × Host σ) :=
  let (task, host) := host.beginDrain
  (host.wait (fun host => (host.server.takeReport? task).isSome)
      host.server.drainTimeout).takeReport? task

/-- Waits until all sockets are closed, and tells whether they are. -/
def waitForSockets (host : Host σ) (milliseconds : Nat) : Bool × Host σ :=
  let host := host.wait (fun host => host.openSockets.isEmpty) milliseconds
  (host.openSockets.isEmpty, host)

/-- Answers a request that comes over a transport without sockets. There is no reply while the
operation that it posts waits. -/
def respond (host : Host σ) (request : HttpRequest) : Option (HttpReply × Host σ) :=
  match request.route host.config with
  | .get =>
    match Server.upgrade host.server host.config request false with
    | .reply reply => some (reply, host)
    | .socket _ _ => none
  | .post =>
    match request.operation with
    | .error reply => some (reply, host)
    | .ok operation =>
      let (submission, host) := host.submit operation
      (host.collect? submission).map fun (result, host) => (Server.replyOf result, host)
  | .health =>
    let reply := Server.healthReply host.server
    some (if request.method = "HEAD" then reply.headOnly else reply, host)
  | .notFound => some (.empty 404, host)
  | .methodNotAllowed => some (.empty 405, host)

/-- Opens a socket for a request that asks for one. -/
def connect (host : Host σ) (request : HttpRequest) : Option (Connected × Host σ) :=
  match request.route host.config with
  | .get =>
    match Server.upgrade host.server host.config request true with
    | .reply reply => some (.reply reply, host)
    | .socket protocol confirmed =>
      match host.openConnection with
      | (.error error, host) =>
        some (.refused confirmed (Server.refusalFrames protocol error.message), host)
      | (.ok id, host) =>
        let socket : Socket := ⟨.new protocol, host.server.now + host.config.keepalive⟩
        some (.socket id confirmed, { host with sockets := Ordered.insert host.sockets id socket })
  | _ => (host.respond request).map fun (reply, host) => (.reply reply, host)

/-- Handles a frame of a client, and tells whether the socket was still there. A text that is no
message of the sub-protocol closes it. -/
def receiveFrame (host : Host σ) (id : ConnectionId) (frame : ClientFrame) : Bool × Host σ :=
  match Ordered.get? host.sockets id with
  | none => (false, host)
  | some socket =>
    if socket.writer.finished then (false, host)
    else
      match frame with
      | .binary => (true, host)
      | .ping payload =>
        (true,
          host.adjustSocket id fun socket => { socket with writer := socket.writer.pong payload })
      | .close =>
        (true, (host.adjustSocket id fun socket =>
            { socket with writer := socket.writer.hangUp }).close id)
      | .text text =>
        match socket.writer.protocol.decode? text with
        | some message => (true, host.receive id message)
        | none => (true, host.close id)

end Host

end MockGraph
