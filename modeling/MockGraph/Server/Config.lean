set_option autoImplicit false

namespace MockGraph.Server

/-- What a server is told at its start. Times are in milliseconds. -/
structure Config where
  host : String
  port : Nat
  /-- The path of the endpoint, with a slash in front. -/
  path : String
  /-- Browsers get a landing page. -/
  playground : Bool
  keepalive : Nat
  drainTimeout : Nat
  /-- The schema, unless it is the one of ski days. -/
  schemaFile : Option String
  /-- The mock rules, unless they are those of ski days. -/
  mocksFile : Option String
  /-- Counts more than the seed of the mock rules. -/
  seed : Option Nat
deriving DecidableEq, Inhabited, Repr

namespace Config

def standard : Config where
  host := "localhost"
  port := 4000
  path := "/graphql"
  playground := true
  keepalive := 12000
  drainTimeout := 10000
  schemaFile := none
  mocksFile := none
  seed := none

/-- Sets the path, and puts a slash in front if there is none. -/
def withPath (config : Config) (path : String) : Config :=
  { config with path := if path.startsWith "/" then path else "/" ++ path }

/-- Sets the time between keep-alive messages, which is a second or more. -/
def withKeepalive (config : Config) (milliseconds : Nat) : Config :=
  { config with keepalive := max 1000 milliseconds }

def address (config : Config) : String := config.host ++ ":" ++ toString config.port

end Config

end MockGraph.Server
