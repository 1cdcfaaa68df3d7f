import MockGraph.Json.Basic
set_option autoImplicit false

namespace MockGraph.Json

mutual

/-- Every leaf gives way to the name of its kind, and `null` stays. -/
def shape : Json → Json
  | null => null
  | bool _ => string "<bool>"
  | number (.integer _) => string "<int>"
  | number (.double _) => string "<float>"
  | string _ => string "<string>"
  | array items => array (shapeItems items)
  | object members => object (shapeMembers members)

def shapeItems : List Json → List Json
  | [] => []
  | item :: rest => shape item :: shapeItems rest

def shapeMembers : List (String × Json) → List (String × Json)
  | [] => []
  | (name, value) :: rest => (name, shape value) :: shapeMembers rest

end

/-- Only what lies at a path of members gives way to its shape. -/
def shapeAt : List String → Json → Json
  | [], value => value.shape
  | name :: rest, object members =>
    object (members.map fun (key, value) => (key, if key = name then shapeAt rest value else value))
  | _ :: _, value => value

end MockGraph.Json
