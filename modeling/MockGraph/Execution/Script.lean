import MockGraph.Execution.Argument
import MockGraph.Execution.Handler
set_option autoImplicit false

namespace MockGraph

/-- The reader of a type by its name. All other names read strings. -/
def Reader.named (name : String) : Reader Json :=
  match name with
  | "u32" => fun value => (word32 value).map .ofInt
  | "i64" => fun value => (int64 value).map .ofInt
  | "f64" => fun value => (double value).map fun x => .number (.double x)
  | "bool" => fun value => (boolean value).map .bool
  | "strings" => fun value => (list text value).map Json.strings
  | "map" => fun value => (map int64 value).map fun entries =>
      .object (entries.map fun (name, n) => (name, Json.ofInt n))
  | "any" => anything
  | _ => fun value => (text value).map .string

structure Script where
  object : Json

namespace Script

/-- The number of calls of each script, by its place in a list of scripts. -/
abbrev Calls := Ordered Nat Nat

def text? (value : Json) (name : String) : Option String := (value.member? name).bind Json.asString?

/-- A member that is a text, or the empty text. -/
def text (value : Json) (name : String) : String := (text? value name).getD ""

/-- The value of an argument, or `null` if it was not given. -/
def argument (arguments : Ordered String Json) (name : String) : Json :=
  (Ordered.get? arguments name).getD .null

def describeContext (context : Context) : Json :=
  .object [("kind", .string context.kind.text),
    ("operationName", .ofText? context.operationName),
    ("variables", .object context.bindings)]

/-- The first answer that the script has, or else how often it was called. -/
def answer (script : Script) (arguments : Ordered String Json) (context : Context) (count : Nat) :
    Except ResolutionError Json :=
  if let some value := script.object.member? "value" then .ok value
  else if let some message := text? script.object "fail" then .error (.custom message)
  else if let some name := text? script.object "echo" then .ok (argument arguments name)
  else if (script.object.member? "args").isSome then .ok (.object arguments)
  else if (script.object.member? "context").isSome then .ok (describeContext context)
  else if let some wanted := script.object.member? "require" then
    Argument.require (.named (text wanted "as")) arguments (text wanted "arg")
  else if let some wanted := script.object.member? "getAs" then
    .ok ((Argument.get? (.named (text wanted "as")) arguments (text wanted "arg")).getD .null)
  else .ok (.ofNat count)

/-- The event that a call publishes: a payload of the script, or an argument. -/
def event? (script : Script) (arguments : Ordered String Json) : Option Event :=
  (script.object.member? "publish").map fun event =>
    ⟨text event "field", (event.member? "payload").getD (argument arguments (text event "arg"))⟩

def handler (script : Script) (place : Nat) : Handler Calls where
  gate := text? script.object "gate"
  answer arguments context calls :=
    let count := (Ordered.get? calls place).getD 0 + 1
    ⟨script.answer arguments context count, Ordered.insert calls place count,
      (script.event? arguments).toList⟩

/-- The handlers of scripts, each for the field that it names. -/
def handlers (scripts : List Script) : Handlers Calls :=
  scripts.zipIdx.foldl (fun handlers (script, place) =>
    handlers.register (text script.object "type") (text script.object "field")
      (script.handler place)) []

end Script

end MockGraph
