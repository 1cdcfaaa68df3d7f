import MockGraph.Response
import MockGraph.Wire.Protocol
set_option autoImplicit false

namespace MockGraph.Server

inductive Frame where
  | text (text : String)
  | pong (payload : String)
  | close (reason : Option (Nat × String))
deriving DecidableEq, Inhabited, Repr

/-- The code of a close frame to a client that comes while the server is draining. -/
def restartCode : Nat := 1012

structure Writer where
  protocol : Protocol
  /-- How many of the queued messages were taken. -/
  taken : Nat
  /-- All frames written so far. -/
  written : List Frame
  finished : Bool
deriving DecidableEq, Inhabited, Repr

namespace Writer

def new (protocol : Protocol) : Writer := ⟨protocol, 0, [], false⟩

/-- Writes a message. One that the sub-protocol has no words for is left out. -/
def write (writer : Writer) (message : ServerMessage) : Writer :=
  match writer.protocol.encode? message with
  | some text => { writer with written := writer.written ++ [.text text] }
  | none => writer

inductive Wake where
  | message
  | tick
  | closed
deriving DecidableEq, Inhabited, Repr

/-- Takes the next queued message, if there is one. -/
def receive (writer : Writer) (outbox : List ServerMessage) : Writer :=
  match outbox[writer.taken]? with
  | some message => { writer with taken := writer.taken + 1 }.write message
  | none => writer

def flush (writer : Writer) (outbox : List ServerMessage) : Writer :=
  (outbox.drop writer.taken).foldl write { writer with taken := max writer.taken outbox.length }

/-- One turn of a writer, for a connection with these messages queued. -/
def turn (writer : Writer) (outbox : List ServerMessage) (wake : Wake) : Writer :=
  if writer.finished then writer
  else
    match wake with
    | .message => writer.receive outbox
    | .tick => writer.write .keepAlive
    | .closed =>
      let flushed := writer.flush outbox
      { flushed with written := flushed.written ++ [.close none], finished := true }

def pong (writer : Writer) (payload : String) : Writer :=
  if writer.finished then writer else { writer with written := writer.written ++ [.pong payload] }

/-- The client is gone, and nothing can be written any more. -/
def hangUp (writer : Writer) : Writer := { writer with finished := true }

end Writer

/-- The frames for a client that is refused because the server is draining. -/
def refusalFrames (protocol : Protocol) (message : String) : List Frame :=
  ((protocol.encode? (.connectionError message)).map Frame.text).toList ++
    [.close (some (restartCode, "server is draining"))]

end MockGraph.Server
