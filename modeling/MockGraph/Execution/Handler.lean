import MockGraph.Operation.Basic
import MockGraph.Resolution
set_option autoImplicit false

namespace MockGraph

/-- A value for the subscriptions of a root field. -/
structure Event where
  field : String
  payload : Json
deriving DecidableEq, Inhabited, Repr

/-- The operation that a handler is called for. -/
structure Context where
  kind : OperationKind
  operationName : Option String
  bindings : Ordered String Json
deriving Inhabited

def Operation.context (operation : Operation) : Context :=
  ⟨operation.kind, operation.name, operation.bindings⟩

/-- What a handler answers, the state it leaves, and the events it publishes, in order. -/
structure Reply (σ : Type) where
  result : Except ResolutionError Json
  state : σ
  events : List Event

/-- A handler over a shared state. Before it answers, it may wait for a permit of a gate. -/
structure Handler (σ : Type) where
  gate : Option String
  answer : Ordered String Json → Context → σ → Reply σ

/-- Handlers by the type and the name of their field. -/
abbrev Handlers (σ : Type) := Ordered String (Handler σ)

namespace Handlers

variable {σ : Type}

def key (type field : String) : String := type ++ "." ++ field

/-- Gives a field a handler, instead of the one it has. -/
def register (handlers : Handlers σ) (type field : String) (handler : Handler σ) : Handlers σ :=
  Ordered.insert handlers (key type field) handler

def find? (handlers : Handlers σ) (type field : String) : Option (Handler σ) :=
  Ordered.get? handlers (key type field)

def handles (handlers : Handlers σ) (type field : String) : Bool :=
  (handlers.find? type field).isSome

end Handlers

end MockGraph
