import MockGraph.Execution.Run
import MockGraph.Wire.Message
set_option autoImplicit false

namespace MockGraph

structure ConnectionId where
  number : Nat
deriving DecidableEq, Inhabited, Repr

def ConnectionId.text (id : ConnectionId) : String := "conn-" ++ toString id.number

structure RegistrationId where
  number : Nat
deriving DecidableEq, Inhabited, Repr

def RegistrationId.text (id : RegistrationId) : String := "sub-" ++ toString id.number

/-- Where the events of a registration go, by its number. -/
structure SinkId where
  number : Nat
deriving DecidableEq, Inhabited, Repr

structure Registration where
  id : RegistrationId
  /-- The client's name for the subscription, unique on its connection. -/
  operationId : String
  connection : ConnectionId
  rootField : String
  operation : Operation
  sink : SinkId
deriving Inhabited

/-- All open subscriptions in the order of registration, and those of each connection by their
names. -/
structure Registry where
  nextId : Nat
  registrations : Ordered RegistrationId Registration
  byConnection : Ordered ConnectionId (Ordered String RegistrationId)
deriving Inhabited

/-- Why a subscription cannot be opened. -/
inductive RegistryError where
  | duplicateSubscription (operationId : String)
  | notASubscription (kind : OperationKind)
deriving DecidableEq, Inhabited, Repr

namespace RegistryError

def message : RegistryError → String
  | duplicateSubscription operationId => "Subscriber for " ++ operationId ++ " already exists"
  | notASubscription kind => "Only subscription operations can be registered, got a " ++ kind.text

def code : RegistryError → String
  | duplicateSubscription _ => "DUPLICATE_SUBSCRIPTION"
  | notASubscription _ => "BAD_REQUEST"

def fieldError (error : RegistryError) : FieldError :=
  (FieldError.new error.message).withCode error.code

end RegistryError

/-- What a sink does with an event. -/
inductive SinkState where
  /-- The sink is gone, and the event is not evaluated for it. -/
  | gone
  | refusing
  | accepting
deriving DecidableEq, Inhabited, Repr

/-- A message that a sink took for a registration. -/
structure Delivery where
  registration : RegistrationId
  sink : SinkId
  message : ServerMessage
deriving Inhabited

/-- What a registration meets when its turn comes. -/
structure Turn (σ : Type) where
  engine : Engine σ
  sink : SinkState
  world : World σ

/-- Evaluates an event for a registration on its root field, if its sink is there. What the sink
refuses is not delivered. -/
def Registration.offer {σ : Type} (registration : Registration) (event : Event) (turn : Turn σ) :
    Option Delivery × World σ :=
  if registration.rootField ≠ event.field ∨ turn.sink = .gone then (none, turn.world)
  else
    let (result, world) := turn.engine.executeEvent registration.operation event.payload turn.world
    if turn.sink = .accepting then
      (some ⟨registration.id, registration.sink,
        .next registration.operationId (responseOfRun result)⟩, world)
    else (none, world)

namespace Registry

variable {σ : Type}

def empty : Registry := ⟨0, [], []⟩

/-- The names of a connection's subscriptions, with their registrations, in the order of
registration. -/
def operationsOf (registry : Registry) (connection : ConnectionId) :
    Ordered String RegistrationId :=
  (Ordered.get? registry.byConnection connection).getD []

/-- The names of a connection's subscriptions in the order of registration. -/
def operations (registry : Registry) (connection : ConnectionId) : List String :=
  Ordered.keys (registry.operationsOf connection)

def size (registry : Registry) : Nat := registry.registrations.length

/-- Opens a subscription, unless its connection has one of that name. -/
def register (registry : Registry) (connection : ConnectionId) (sink : SinkId)
    (operationId : String) (operation : Operation) : Except RegistryError Registration × Registry :=
  if operation.kind ≠ .subscription then (.error (.notASubscription operation.kind), registry)
  else
    let operations := registry.operationsOf connection
    if Ordered.contains operations operationId then
      (.error (.duplicateSubscription operationId), registry)
    else
      let id : RegistrationId := ⟨registry.nextId⟩
      let registration : Registration :=
        ⟨id, operationId, connection, operation.rootFieldName?.getD "", operation, sink⟩
      (.ok registration,
        { nextId := registry.nextId + 1
          registrations := Ordered.insert registry.registrations id registration
          byConnection :=
            Ordered.insert registry.byConnection connection
              (Ordered.insert operations operationId id) })

/-- Forgets a name on a connection, and the connection with its last name. -/
def forget (byConnection : Ordered ConnectionId (Ordered String RegistrationId))
    (connection : ConnectionId) (operationId : String) :
    Ordered ConnectionId (Ordered String RegistrationId) :=
  match Ordered.get? byConnection connection with
  | none => byConnection
  | some operations =>
    match Ordered.erase operations operationId with
    | [] => Ordered.erase byConnection connection
    | others => Ordered.insert byConnection connection others

/-- Closes a subscription, and tells whether it was open. -/
def unregister (registry : Registry) (id : RegistrationId) : Bool × Registry :=
  match Ordered.get? registry.registrations id with
  | none => (false, registry)
  | some registration =>
    (true, { registry with
      registrations := Ordered.erase registry.registrations id
      byConnection :=
        forget registry.byConnection registration.connection registration.operationId })

/-- Closes a connection's subscription by its name, and tells whether it was open. -/
def unregisterOperation (registry : Registry) (connection : ConnectionId) (operationId : String) :
    Bool × Registry :=
  match Ordered.get? (registry.operationsOf connection) operationId with
  | none => (false, registry)
  | some id => registry.unregister id

/-- Closes all subscriptions of a connection, and gives their names in the order of registration. -/
def purge (registry : Registry) (connection : ConnectionId) : List String × Registry :=
  match Ordered.get? registry.byConnection connection with
  | none => ([], registry)
  | some operations =>
    (Ordered.keys operations, { registry with
      registrations :=
        operations.foldl (fun rest entry => Ordered.erase rest entry.2) registry.registrations
      byConnection := Ordered.erase registry.byConnection connection })

/-- Offers an event to registrations one after the other. -/
def deliver (engine : Engine σ) (sinks : SinkId → SinkState) (event : Event) :
    List Registration → World σ → List Delivery × World σ
  | [], world => ([], world)
  | registration :: rest, world =>
    let (delivery, world) := registration.offer event ⟨engine, sinks registration.sink, world⟩
    let (others, world) := deliver engine sinks event rest world
    (delivery.toList ++ others, world)

/-- All open subscriptions in the order of registration. -/
def registered (registry : Registry) : List Registration := registry.registrations.map Prod.snd

/-- Delivers an event to the registrations on its root field. -/
def publish (registry : Registry) (engine : Engine σ) (sinks : SinkId → SinkState) (event : Event)
    (world : World σ) : List Delivery × World σ :=
  deliver engine sinks event registry.registered world

end Registry

end MockGraph
