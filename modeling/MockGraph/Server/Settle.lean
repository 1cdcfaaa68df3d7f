import MockGraph.Server.Basic
set_option autoImplicit false

namespace MockGraph

/-- An upper bound of the steps that a task takes before it waits or is over. -/
def Task.steps : Task → Nat
  | purge _ | withdraw _ _ _ | unregister _ _ | query _ _ _ | request _ => 1
  | register _ _ _ => 2
  | drain connections _ => connections.length + 2
  | complete remaining _ => remaining.length + 1
  | answered _ | drained _ => 0

/-- What is ready to go on. -/
inductive Ready where
  | task (id : TaskId)
  /-- The events that wait in the channel. -/
  | events
deriving DecidableEq, Inhabited, Repr

namespace Server

variable {σ : Type}

/-- Goes on with a task until it waits or is over. -/
def runTask (server : Server σ) (id : TaskId) : Server σ :=
  let steps := ((Ordered.get? server.tasks id).map Task.steps).getD 0
  Nat.repeat (fun server => server.advance id) steps server

/-- Delivers the events that wait in the channel. -/
def pumpAll (server : Server σ) : Server σ :=
  Nat.repeat pump server.world.channel.queue.length server

def proceed (server : Server σ) : Ready → Server σ
  | .task id => server.runTask id
  | .events => server.pumpAll

/-- What is ready and not in the queue: events first, then tasks in the order in which they
began. -/
def woken (server : Server σ) (queue : List Ready) : List Ready :=
  let events := if server.world.channel.queue.isEmpty then [] else [Ready.events]
  let tasks := ((Ordered.keys server.tasks).filter server.canAdvance).map Ready.task
  (events ++ tasks).filter fun ready => !queue.contains ready

/-- Goes on with what is ready, in the order in which it became so. -/
def settleWithin : Nat → List Ready → Server σ → Server σ
  | 0, _, server => server
  | fuel + 1, queue, server =>
    match queue ++ server.woken queue with
    | [] => server
    | ready :: rest => settleWithin fuel rest (server.proceed ready)

/-- Goes on until everything waits. Each task gets one turn at most, and the events one after
each. -/
def settle (server : Server σ) (queue : List Ready) : Server σ :=
  settleWithin (2 * server.tasks.length + 1) queue server

/-- Takes the response of a request that has one. -/
def takeResponse? (server : Server σ) (task : TaskId) : Option (Response × Server σ) :=
  match Ordered.get? server.tasks task with
  | some (.answered response) => some (response, server.finish task)
  | _ => none

/-- Takes the report of a drain that is over. -/
def takeReport? (server : Server σ) (task : TaskId) : Option (DrainReport × Server σ) :=
  match Ordered.get? server.tasks task with
  | some (.drained report) => some (report, server.finish task)
  | _ => none

end Server

end MockGraph
