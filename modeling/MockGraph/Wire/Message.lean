import MockGraph.Json.Record
import MockGraph.Response
set_option autoImplicit false

namespace MockGraph

/-- A request for an operation, as clients post it or put it into the message that starts one. -/
structure Request where
  query : String
  bindings : Option (Ordered String Json)
  operationName : Option String
deriving DecidableEq, Inhabited, Repr

namespace Request

def toJson (request : Request) : Json :=
  .object (("query", .string request.query) ::
    ((request.bindings.map fun bindings => ("variables", Json.object bindings)).toList ++
      (request.operationName.map fun name => ("operationName", Json.string name)).toList))

/-- Reads a request in a record `room` levels above the deepest. Only the query is required. -/
def ofTree (room : Nat) (tree : Tree) : Except Tree.Fault Request :=
  let fields : List (Tree.Field (Option String × Option (Ordered String Json) × Option String)) :=
    [⟨"query", false, fun tree draft => tree.readText.map fun s => (some s, draft.2)⟩,
      ⟨"variables", true, fun tree draft =>
        (Tree.readOptional (Tree.readMap (room - 1)) tree).map fun map =>
          (draft.1, map, draft.2.2)⟩,
      ⟨"operationName", true, fun tree draft =>
        (Tree.readOptional Tree.readText tree).map fun name => (draft.1, draft.2.1, name)⟩]
  match Tree.readRecord room fields .skip (none, none, none) tree with
  | .error fault => .error fault
  | .ok (query, bindings, operationName) =>
    (Tree.required query).map fun query => ⟨query, bindings, operationName⟩

def read (text : String) : Except Tree.Fault Request := Tree.readWhole (ofTree Tree.maxDepth) text

end Request

inductive ClientMessage where
  | connectionInit (payload : Option Json)
  | start (id : String) (request : Request)
  | stop (id : String)
  | connectionTerminate
  | ping
  | pong
deriving DecidableEq, Inhabited, Repr

inductive ServerMessage where
  | connectionAck
  | connectionError (message : String)
  | keepAlive
  | pong
  | next (id : String) (payload : Response)
  | error (id : String) (errors : List FieldError)
  | complete (id : String)
deriving DecidableEq, Inhabited, Repr

end MockGraph
