import MockGraph.Execution.Handler
set_option autoImplicit false

namespace MockGraph

/-- Events on their way from those who publish them to the one who reads them. -/
structure Channel where
  /-- Events that were not read yet, the oldest first. -/
  queue : List Event
  publishers : Nat
  /-- Someone may still read. -/
  isRead : Bool
deriving DecidableEq, Inhabited, Repr

/-- What a reader meets. -/
inductive NextEvent where
  | event (event : Event)
  /-- Nothing is there yet. -/
  | pending
  /-- Nothing will come. -/
  | ended
deriving DecidableEq, Inhabited, Repr

namespace Channel

/-- A channel with one publisher and a reader. -/
def new : Channel := ⟨[], 1, true⟩

/-- Queues an event. Without a reader it is lost. -/
def publish (channel : Channel) (event : Event) : Channel :=
  if channel.isRead then { channel with queue := channel.queue ++ [event] } else channel

def publishAll (channel : Channel) (events : List Event) : Channel := events.foldl publish channel

def addPublisher (channel : Channel) : Channel :=
  { channel with publishers := channel.publishers + 1 }

def dropPublisher (channel : Channel) : Channel :=
  { channel with publishers := channel.publishers - 1 }

/-- The reader goes, and with it what it did not read. -/
def dropReader (channel : Channel) : Channel := { channel with queue := [], isRead := false }

/-- Reads an event. The channel ends when it is empty and has no publisher. -/
def next (channel : Channel) : NextEvent × Channel :=
  match channel.queue with
  | event :: rest => (.event event, { channel with queue := rest })
  | [] => (if channel.publishers = 0 then .ended else .pending, channel)

theorem publishAll_queue (channel : Channel) (events : List Event)
    (isRead : channel.isRead = true) :
    (channel.publishAll events).queue = channel.queue ++ events := by
  induction events generalizing channel with
  | nil => simp [publishAll]
  | cons event rest ih =>
    have step : (channel.publish event).isRead = true := by simp [publish, isRead]
    simpa [publishAll, publish, isRead, List.append_assoc] using ih (channel.publish event) step

end Channel

end MockGraph
