import MockGraph.Json.Printer
import MockGraph.Json.Record
set_option autoImplicit false

namespace MockGraph

/-- A step from a value to one of its parts. -/
inductive PathSegment where
  | field (name : String)
  | index (position : Nat)
deriving DecidableEq, Inhabited, Repr

namespace PathSegment

def isIndex : PathSegment → Bool
  | index _ => true
  | field _ => false

def toJson : PathSegment → Json
  | field name => .string name
  | index position => .ofNat position

/-- A string is a field, an integer of 64 bits an index. -/
def ofJson? : Json → Option PathSegment
  | .string name => some (.field name)
  | value => value.asWord64?.map .index

end PathSegment

structure FieldError where
  message : String
  path : Option (List PathSegment)
  extensions : Option (Ordered String Json)
deriving DecidableEq, Inhabited, Repr

namespace FieldError

def new (message : String) : FieldError := ⟨message, none, none⟩

def withPath (error : FieldError) (path : List PathSegment) : FieldError :=
  { error with path := some path }

def withExtension (error : FieldError) (key : String) (value : Json) : FieldError :=
  { error with extensions := some (Ordered.insert (error.extensions.getD []) key value) }

def withCode (error : FieldError) (code : String) : FieldError :=
  error.withExtension "code" (.string code)

def code? (error : FieldError) : Option String := do
  let extensions ← error.extensions
  let code ← Ordered.get? extensions "code"
  code.asString?

/-- Members that are absent are left out. -/
def toJson (error : FieldError) : Json :=
  .object (("message", .string error.message) ::
    ((error.path.map fun path => ("path", Json.array (path.map PathSegment.toJson))).toList ++
      (error.extensions.map fun members => ("extensions", Json.object members)).toList))

end FieldError

structure Response where
  data : Option Json
  errors : Option (List FieldError)
deriving DecidableEq, Inhabited, Repr

namespace Response

def error (error : FieldError) : Response := ⟨none, some [error]⟩

def ofErrors (errors : List FieldError) : Response := ⟨none, some errors⟩

/-- Data with the errors met on the way, if any. -/
def executed (data : Json) (errors : List FieldError) : Response :=
  ⟨some data, if errors.isEmpty then none else some errors⟩

theorem errors_executed (data : Json) (errors : List FieldError) :
    (executed data errors).errors.getD [] = errors := by
  cases errors <;> rfl

def hasErrors (response : Response) : Bool :=
  match response.errors with
  | some (_ :: _) => true
  | _ => false

def toJson (response : Response) : Json :=
  .object ((response.data.map fun data => ("data", data)).toList ++
    (response.errors.map fun errors =>
      ("errors", Json.array (errors.map FieldError.toJson))).toList)

def text (response : Response) : String := response.toJson.text

end Response

namespace Tree

def readSegment (tree : Tree) : Except Fault PathSegment :=
  match tree.value maxDepth with
  | .error fault => .error fault
  | .ok value => required (PathSegment.ofJson? value)

/-- Reads an error in a record `room` levels above the deepest. -/
def readFieldError (room : Nat) (tree : Tree) : Except Fault FieldError :=
  let fields :
      List (Field (Option String × Option (List PathSegment) × Option (Ordered String Json))) :=
    [⟨"message", false, fun tree draft => tree.readText.map fun s => (some s, draft.2)⟩,
      ⟨"path", false, fun tree draft =>
        (readOptional (readList (room - 1) readSegment) tree).map fun path =>
          (draft.1, path, draft.2.2)⟩,
      ⟨"extensions", false, fun tree draft =>
        (readOptional (readMap (room - 1)) tree).map fun map => (draft.1, draft.2.1, map)⟩]
  match readRecord room fields .skip (none, none, none) tree with
  | .error fault => .error fault
  | .ok (message, path, extensions) =>
    (required message).map fun message => ⟨message, path, extensions⟩

/-- Reads a response. Data that is `null` reads as absent. -/
def readResponse (room : Nat) (tree : Tree) : Except Fault Response :=
  let fields : List (Field Response) :=
    [⟨"data", false, fun tree draft =>
        (readOptional (value (room - 1)) tree).map fun data => { draft with data }⟩,
     ⟨"errors", false, fun tree draft =>
        (readOptional (readList (room - 1) (readFieldError (room - 2))) tree).map fun errors =>
          { draft with errors }⟩]
  readRecord room fields .skip ⟨none, none⟩ tree

end Tree

def Response.parse? (text : String) : Option Response :=
  (Tree.readWhole (Tree.readResponse Tree.maxDepth) text).toOption

end MockGraph
