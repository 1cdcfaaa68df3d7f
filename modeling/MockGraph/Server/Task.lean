import MockGraph.Execution.Run
import MockGraph.Server.Gate
import MockGraph.Subscription.Registry
set_option autoImplicit false

namespace MockGraph

/-- A query or a mutation that is to run, or runs and waits at a gate. -/
inductive Job where
  | queued (operation : Operation)
  | running (remaining : List FieldSelection) (run : Run) (hasPermit : Bool)

structure DrainReport where
  /-- Connections that were live when it began. -/
  connections : Nat
  /-- Subscriptions that it completed. -/
  subscriptionsCompleted : Nat
  /-- Operations were still running when its time was up. -/
  timedOut : Bool
deriving DecidableEq, Inhabited, Repr

/-- What is left of a call at one of the points where it waits and others may go first. -/
inductive Task where
  /-- A closing connection whose subscriptions are still to be removed. -/
  | purge (connection : ConnectionId)
  /-- A subscription that is to be registered. -/
  | register (connection : ConnectionId) (id : String) (operation : Operation)
  /-- A registration on a connection that was no longer open. -/
  | withdraw (connection : ConnectionId) (id : String) (registration : RegistrationId)
  /-- A subscription that the client stopped. -/
  | unregister (connection : ConnectionId) (id : String)
  /-- A query or a mutation of a connection. -/
  | query (connection : ConnectionId) (id : String) (job : Job)
  /-- A query or a mutation outside any connection. -/
  | request (job : Job)
  /-- A request that has its response. -/
  | answered (response : Response)
  /-- A drain that waits for running operations. -/
  | drain (connections : List ConnectionId) (deadline : Nat)
  /-- A drain that completes subscriptions and closes connections. -/
  | complete (remaining : List ConnectionId) (report : DrainReport)
  /-- A drain that is over. -/
  | drained (report : DrainReport)

inductive JobOutcome where
  | waiting (gate : String) (remaining : List FieldSelection) (run : Run)
  | finished (response : Response)

namespace Job

variable {σ : Type}

/-- The gate that the handler of a root field waits at. -/
def gate? (engine : Engine σ) (run : Run) (field : FieldSelection) : Option String :=
  (run.handler? engine.handlers field).bind (·.gate)

/-- Runs root fields up to one whose gate gives no permit. -/
def proceed (engine : Engine σ) : List FieldSelection → Run → Bool → Gates → World σ →
    JobOutcome × Gates × World σ
  | [], run, _, gates, world => (.finished run.response, gates, world)
  | field :: rest, run, hasPermit, gates, world =>
    let go (hasPermit : Bool) (gates : Gates) : JobOutcome × Gates × World σ :=
      match run.step engine field world with
      | (.running run, world) => proceed engine rest run hasPermit gates world
      | (.finished response, world) => (.finished response, gates, world)
    match gate? engine run field with
    | none => go hasPermit gates
    | some gate =>
      if hasPermit then go false gates
      else
        match gates.take? gate with
        | some gates => go false gates
        | none => (.waiting gate (field :: rest) run, gates, world)

def resume (engine : Engine σ) (job : Job) (gates : Gates) (world : World σ) :
    JobOutcome × Gates × World σ :=
  match job with
  | .running remaining run hasPermit => proceed engine remaining run hasPermit gates world
  | .queued operation =>
    match engine.start operation none with
    | .error rejection => (.finished rejection.response, gates, world)
    | .ok (.finished response) => (.finished response, gates, world)
    | .ok (.running run) => proceed engine operation.selection run false gates world

/-- A job that waits at a gate without a permit. -/
def isWaiting : Job → Bool
  | queued _ => false
  | running _ _ hasPermit => !hasPermit

def permit : Job → Job
  | queued operation => .queued operation
  | running remaining run _ => .running remaining run true

end Job

namespace Task

def permit : Task → Task
  | query connection id job => .query connection id job.permit
  | request job => .request job.permit
  | task => task

/-- An operation of a connection is under way. -/
def isQueryOf (connection : ConnectionId) : Task → Bool
  | query other _ _ => other == connection
  | _ => false

/-- An operation outside any connection is under way. -/
def isRequest : Task → Bool
  | request _ => true
  | _ => false

end Task

end MockGraph
