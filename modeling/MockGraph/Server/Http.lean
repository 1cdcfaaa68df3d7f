import MockGraph.Response
import MockGraph.Server.Basic
import MockGraph.Server.Config
import MockGraph.Server.Landing
import MockGraph.Server.MediaType
import MockGraph.Wire.Protocol
set_option autoImplicit false

namespace MockGraph.Server

structure HttpRequest where
  method : String
  path : String
  /-- Names in lower case, with their values in order. -/
  headers : List (String × String)
  body : String
deriving DecidableEq, Inhabited, Repr

structure HttpReply where
  status : Nat
  contentType : Option String
  body : String
deriving DecidableEq, Inhabited, Repr

namespace HttpReply

def plain (status : Nat) (body : String) : HttpReply :=
  ⟨status, some "text/plain; charset=utf-8", body⟩

def html (body : String) : HttpReply := ⟨200, some "text/html; charset=utf-8", body⟩

def json (status : Nat) (body : Json) : HttpReply := ⟨status, some "application/json", body.text⟩

def empty (status : Nat) : HttpReply := ⟨status, none, ""⟩

def headOnly (reply : HttpReply) : HttpReply := { reply with body := "" }

end HttpReply

inductive Route where
  | get
  | post
  | health
  | notFound
  | methodNotAllowed
deriving DecidableEq, Inhabited, Repr

namespace HttpRequest

/-- The value of the first header of a name. -/
def header? (request : HttpRequest) (name : String) : Option String := request.headers.lookup name

def headerLines (request : HttpRequest) (name : String) : List String :=
  request.headers.filterMap fun (other, value) => if other = name then some value else none

/-- Characters that every reader of headers takes. -/
def isVisible (c : Char) : Bool := c = '\t' || (32 ≤ c.toNat && c.toNat < 127)

def maxBody : Nat := 2 * 1024 * 1024

def isRead (request : HttpRequest) : Bool := request.method == "GET" || request.method == "HEAD"

def route (config : Config) (request : HttpRequest) : Route :=
  if request.path = config.path then
    if request.isRead then .get else if request.method = "POST" then .post else .methodNotAllowed
  else if request.path = "/health" then
    if request.isRead then .health else .methodNotAllowed
  else .notFound

def hasJsonBody (request : HttpRequest) : Bool :=
  match request.header? "content-type" with
  | none => false
  | some value =>
    value.toList.all isVisible && ((MediaType.parse? value).map MediaType.isJson).getD false

/-- The operation that is posted, or the reply to a body that holds none. -/
def operation (request : HttpRequest) : Except HttpReply Request :=
  if !request.hasJsonBody then .error (.plain 415 "")
  else if maxBody < request.body.utf8ByteSize then .error (.plain 413 "")
  else
    match Request.read request.body with
    | .ok operation => .ok operation
    | .error .text => .error (.plain 400 "")
    | .error .shape => .error (.plain 422 "")

def lowered (text : String) : String := String.ofList (text.toList.map Char.toLower)

/-- A text stands somewhere inside another. -/
def contains (part : List Char) : List Char → Bool
  | [] => part.isEmpty
  | c :: rest => part.isPrefixOf (c :: rest) || contains part rest

/-- The request asks for a socket in due form. -/
def asksForSocket (request : HttpRequest) : Bool :=
  request.method == "GET" &&
    ((request.header? "connection").any fun value =>
      contains "upgrade".toList (lowered value).toList) &&
    ((request.header? "upgrade").any fun value => lowered value == "websocket") &&
    (request.header? "sec-websocket-key").isSome &&
    request.header? "sec-websocket-version" == some "13"

/-- The parts of a text between commas. -/
def commaParts (text : String) : List String := text.splitOn ","

/-- The sub-protocol to speak. Whoever offers none that is known is spoken to in the older one. -/
def protocol (request : HttpRequest) : Protocol :=
  let lines :=
    (request.headerLines "sec-websocket-protocol").filter fun line => line.toList.all isVisible
  (Protocol.negotiate? (lines.flatMap commaParts)).getD .graphqlWs

def isAsciiBlank (c : Char) : Bool := c = ' ' || c = '\t' || c = '\n' || c = '\r' || c.toNat = 12

def trimAscii (text : String) : String :=
  String.ofList ((text.toList.dropWhile isAsciiBlank).reverse.dropWhile isAsciiBlank).reverse

/-- The name of the sub-protocol that the reply confirms: the one spoken, if it was offered. -/
def confirmed? (request : HttpRequest) : Option String :=
  let offered := ((request.headerLines "sec-websocket-protocol").flatMap commaParts).map trimAscii
  if offered.contains request.protocol.name then some request.protocol.name else none

end HttpRequest

/-- The reply to an operation that was posted. Without data it was rejected before it ran. -/
def replyOf : Except Draining Response → HttpReply
  | .ok response =>
    .json (if response.data.isNone && response.hasErrors then 400 else 200) response.toJson
  | .error refusal => .json 503 (Response.error refusal.fieldError).toJson

variable {σ : Type}

def healthReply (server : Server σ) : HttpReply :=
  if server.draining then .json 503 (.object [("status", .string "draining")])
  else
    .json 200 (.object [("status", .string "healthy"), ("connections", .ofNat server.live.length)])

/-- What a `GET` of the endpoint leads to. -/
inductive Upgrade where
  | reply (reply : HttpReply)
  | socket (protocol : Protocol) (confirmed : Option String)
deriving DecidableEq, Inhabited, Repr

/-- A socket for who asks for one, if the transport can be upgraded, and the landing page for all
others. -/
def upgrade (server : Server σ) (config : Config) (request : HttpRequest) (upgradable : Bool) :
    Upgrade :=
  if request.asksForSocket && upgradable then
    if server.draining then .reply (.plain 503 "server is draining")
    else .socket request.protocol request.confirmed?
  else
    let reply :=
      if config.playground then .html (landingPage config.path)
      else if request.method = "HEAD" then .plain 405 ""
      else if request.asksForSocket then .plain 426 ""
      else .plain 400 ""
    .reply (if request.method = "HEAD" then reply.headOnly else reply)

end MockGraph.Server
