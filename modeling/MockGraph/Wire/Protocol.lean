import MockGraph.Wire.Message
set_option autoImplicit false

namespace MockGraph

inductive Protocol where
  /-- The older protocol, with `start`, `stop`, `data` and `ka`. -/
  | graphqlWs
  /-- The newer protocol, with `subscribe`, `complete`, `next`, `ping` and `pong`. -/
  | graphqlTransportWs
deriving DecidableEq, Inhabited, Repr

namespace Protocol

def name : Protocol → String
  | graphqlWs => "graphql-ws"
  | graphqlTransportWs => "graphql-transport-ws"

/-- Characters with the property White_Space. -/
def isBlank (c : Char) : Bool :=
  let n := c.toNat
  (9 ≤ n && n ≤ 13) || n == 0x20 || n == 0x85 || n == 0xA0 || n == 0x1680 ||
    (0x2000 ≤ n && n ≤ 0x200A) || n == 0x2028 || n == 0x2029 || n == 0x202F || n == 0x205F ||
    n == 0x3000

/-- The text without blanks at both ends. -/
def trim (text : String) : String :=
  String.ofList ((text.toList.dropWhile isBlank).reverse.dropWhile isBlank).reverse

/-- Blanks around a name do not count. -/
def ofName? (text : String) : Option Protocol :=
  [graphqlTransportWs, graphqlWs].find? fun protocol => protocol.name == trim text

/-- The first of the offered names that is known. -/
def negotiate? (offered : List String) : Option Protocol := offered.findSome? ofName?

/-- What the tag of a client message announces. -/
inductive ClientKind where
  | connectionInit | start | stop | connectionTerminate | ping | pong
deriving DecidableEq, Repr

def clientKind? : Protocol → String → Option ClientKind
  | _, "connection_init" => some .connectionInit
  | graphqlWs, "start" => some .start
  | graphqlWs, "stop" => some .stop
  | graphqlWs, "connection_terminate" => some .connectionTerminate
  | graphqlTransportWs, "subscribe" => some .start
  | graphqlTransportWs, "complete" => some .stop
  | graphqlTransportWs, "ping" => some .ping
  | graphqlTransportWs, "pong" => some .pong
  | _, _ => none

/-- The members of a client message next to its tag, before it is known which of them it needs. -/
structure Draft where
  payload : Option Tree
  id : Option String

def idField : Tree.Field Draft :=
  ⟨"id", false, fun tree draft => tree.readText.map fun id => { draft with id := some id }⟩

def payloadField (omissible : Bool) : Tree.Field Draft :=
  ⟨"payload", omissible, fun tree draft => .ok { draft with payload := some tree }⟩

/-- The members that a kind of message has, in the order of its array form. -/
def ClientKind.fields : ClientKind → List (Tree.Field Draft)
  | connectionInit => [payloadField true]
  | start => [idField, payloadField false]
  | stop => [idField]
  | connectionTerminate | ping | pong => []

/-- The message of a kind from its members. -/
def ClientKind.assemble (kind : ClientKind) (draft : Draft) : Except Tree.Fault ClientMessage :=
  match kind with
  | connectionInit =>
    match draft.payload with
    | none => .ok (.connectionInit none)
    | some tree => (Tree.readOptional (Tree.value Tree.maxDepth) tree).map .connectionInit
  | start =>
    match Tree.required draft.id, Tree.required draft.payload with
    | .ok id, .ok tree => (Request.ofTree Tree.maxDepth tree).map (.start id)
    | _, _ => .error .shape
  | stop => (Tree.required draft.id).map .stop
  | connectionTerminate => .ok .connectionTerminate
  | ping => .ok .ping
  | pong => .ok .pong

/-- The values of the members called `type`. -/
def tags (members : List (Option String × Tree)) : List Tree :=
  members.filterMap fun member => if member.1 = some "type" then some member.2 else none

/-- The tag and the remaining parts of a message, from an object with one `type` or an array. -/
def splitTag? : Tree → Option (Tree × Tree)
  | .object members =>
    match tags members with
    | [tag] => some (tag, .object (members.filter fun member => member.1 ≠ some "type"))
    | _ => none
  | .array (tag :: items) => some (tag, .array items)
  | _ => none

/-- A message from a tree that holds only values. -/
def ofTree? (protocol : Protocol) (tree : Tree) : Option ClientMessage := do
  let (tag, parts) ← splitTag? tree
  let kind ← protocol.clientKind? (← tag.readText.toOption)
  let draft ← (Tree.readRecord Tree.maxDepth kind.fields .skip ⟨none, none⟩ parts).toOption
  (kind.assemble draft).toOption

/-- Reads a client message. All of the text must be JSON, also the parts that do not matter. -/
def decode? (protocol : Protocol) (text : String) : Option ClientMessage :=
  match Tree.read text with
  | (_, true) => none
  | (tree, false) =>
    match tree.value Tree.maxDepth with
    | .error _ => none
    | .ok _ => protocol.ofTree? tree

def tagged (tag : String) (members : List (String × Json)) : Json :=
  .object (("type", .string tag) :: members)

def errorList (errors : List FieldError) : Json := .array (errors.map FieldError.toJson)

/-- A server message in the words of a protocol, or nothing where the protocol has no such
message. -/
def toJson? : Protocol → ServerMessage → Option Json
  | _, .connectionAck => some (tagged "connection_ack" [])
  | graphqlWs, .connectionError message =>
    some (tagged "connection_error" [("payload", .object [("message", .string message)])])
  | graphqlTransportWs, .connectionError _ => none
  | graphqlWs, .keepAlive => some (tagged "ka" [])
  | graphqlTransportWs, .keepAlive => some (tagged "ping" [])
  | graphqlWs, .pong => none
  | graphqlTransportWs, .pong => some (tagged "pong" [])
  | graphqlWs, .next id payload =>
    some (tagged "data" [("id", .string id), ("payload", payload.toJson)])
  | graphqlTransportWs, .next id payload =>
    some (tagged "next" [("id", .string id), ("payload", payload.toJson)])
  | _, .error id errors => some (tagged "error" [("id", .string id), ("payload", errorList errors)])
  | _, .complete id => some (tagged "complete" [("id", .string id)])

def encode? (protocol : Protocol) (message : ServerMessage) : Option String :=
  (protocol.toJson? message).map Json.text

end Protocol

end MockGraph
