import MockGraph.Wire.Message
set_option autoImplicit false

namespace MockGraph

inductive Phase where
  | open
  /-- No new work is taken and no events, but running operations still deliver. -/
  | closing
  | closed
deriving DecidableEq, Inhabited, Repr

/-- A connection, from open over closing to closed, with the messages that were queued for the
client. -/
structure Connection where
  phase : Phase
  /-- All messages that were ever queued, in order. -/
  outbox : List ServerMessage
  /-- The transport takes messages. -/
  attached : Bool
  /-- The transport was told to stop. -/
  cancelled : Bool
deriving Inhabited

namespace Connection

def new : Connection := ⟨.open, [], true, false⟩

/-- Messages are queued until the connection is closed. -/
def accepts (connection : Connection) : Bool := connection.phase ≠ .closed && connection.attached

/-- Events are queued as long as the connection is open. -/
def acceptsEvents (connection : Connection) : Bool :=
  connection.phase = .open && connection.attached

def queue (connection : Connection) (message : ServerMessage) : Connection :=
  { connection with outbox := connection.outbox ++ [message] }

/-- Queues a message, unless it is refused. -/
def send (connection : Connection) (message : ServerMessage) : Connection :=
  if connection.accepts then connection.queue message else connection

/-- Queues an event, unless it is refused. -/
def deliver (connection : Connection) (message : ServerMessage) : Connection :=
  if connection.acceptsEvents then connection.queue message else connection

def beginClosing (connection : Connection) : Connection :=
  if connection.phase = .open then { connection with phase := .closing } else connection

theorem phase_beginClosing (connection : Connection) :
    connection.beginClosing.phase =
      if connection.phase = .open then .closing else connection.phase := by
  unfold beginClosing
  split <;> rfl

theorem attached_beginClosing (connection : Connection) :
    connection.beginClosing.attached = connection.attached := by
  unfold beginClosing
  split <;> rfl

theorem cancelled_beginClosing (connection : Connection) :
    connection.beginClosing.cancelled = connection.cancelled := by
  unfold beginClosing
  split <;> rfl

def markClosed (connection : Connection) : Connection :=
  { connection with phase := .closed, cancelled := true }

end Connection

end MockGraph
