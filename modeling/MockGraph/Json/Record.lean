import MockGraph.Json.Tree
set_option autoImplicit false

namespace MockGraph.Tree

/-- The fault of a part that is not of the kind wanted: text that no value can come from is found
first. -/
def mismatch : Tree → Fault
  | broken => .text
  | number none => .text
  | string none => .text
  | _ => .shape

def readText : Tree → Except Fault String
  | string (some s) => .ok s
  | tree => .error tree.mismatch

/-- Reads `null` as nothing. -/
def readOptional {α : Type} (read : Tree → Except Fault α) : Tree → Except Fault (Option α)
  | null => .ok none
  | tree => (read tree).map some

def readMap (room : Nat) : Tree → Except Fault (Ordered String Json)
  | object members =>
    match room with
    | 0 => .error .text
    | room + 1 => memberValues room members []
  | tree => .error tree.mismatch

/-- Reads the items of an array from left to right. -/
def readEach {α : Type} (read : Tree → Except Fault α) : List Tree → Except Fault (List α)
  | [] => .ok []
  | item :: items =>
    match read item with
    | .error fault => .error fault
    | .ok first => (readEach read items).map (first :: ·)

def readList {α : Type} (room : Nat) (read : Tree → Except Fault α) : Tree → Except Fault (List α)
  | array items => if room = 0 then .error .text else readEach read items
  | tree => .error tree.mismatch

/-- One field of a record that is being put together. -/
structure Field (σ : Type) where
  name : String
  /-- The array form may end before this field. -/
  omissible : Bool
  read : Tree → σ → Except Fault σ

/-- What becomes of members that are no field. -/
inductive Unknown where
  | skip
  | refuse
deriving DecidableEq

/-- Reads members in order; a field that comes twice is of the wrong shape. -/
def readMembersAs {σ : Type} (fields : List (Field σ)) (unknown : Unknown) :
    List (Option String × Tree) → List String → σ → Except Fault σ
  | [], _, draft => .ok draft
  | (none, _) :: _, _, _ => .error .text
  | (some name, tree) :: members, seen, draft =>
    match fields.find? (·.name == name) with
    | none =>
      match unknown with
      | .refuse => .error .shape
      | .skip =>
        if tree.isWhole then readMembersAs fields unknown members seen draft else .error .text
    | some field =>
      if name ∈ seen then .error .shape
      else
        match field.read tree draft with
        | .error fault => .error fault
        | .ok draft => readMembersAs fields unknown members (name :: seen) draft

/-- Reads the array form. Items beyond the last field are text that should not be there. -/
def readItemsAs {σ : Type} : List (Field σ) → List Tree → σ → Except Fault σ
  | [], [], draft => .ok draft
  | [], _ :: _, _ => .error .text
  | field :: fields, [], draft =>
    if field.omissible then readItemsAs fields [] draft else .error .shape
  | field :: fields, item :: items, draft =>
    match field.read item draft with
    | .error fault => .error fault
    | .ok draft => readItemsAs fields items draft

def readRecord {σ : Type} (room : Nat) (fields : List (Field σ)) (unknown : Unknown) (draft : σ) :
    Tree → Except Fault σ
  | object members =>
    if room = 0 then .error .text else readMembersAs fields unknown members [] draft
  | array items => if room = 0 then .error .text else readItemsAs fields items draft
  | tree => .error tree.mismatch

/-- A field that the finished record must have. -/
def required {α : Type} : Option α → Except Fault α
  | some value => .ok value
  | none => .error .shape

/-- Reads a whole text as a value of one shape. -/
def readWhole {α : Type} (read : Tree → Except Fault α) (text : String) : Except Fault α :=
  let (tree, trailing) := Tree.read text
  match read tree with
  | .error fault => .error fault
  | .ok value => if trailing then .error .text else .ok value

end MockGraph.Tree
