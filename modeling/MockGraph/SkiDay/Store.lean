import MockGraph.Execution.Argument
import MockGraph.Execution.Handler
set_option autoImplicit false

namespace MockGraph.SkiDay

structure Day where
  id : String
  date : String
  mountain : String
  conditions : Option String
deriving DecidableEq, Inhabited, Repr

def Day.toJson (day : Day) : Json :=
  .object [("id", .string day.id), ("date", .string day.date), ("mountain", .string day.mountain),
    ("conditions", .ofText? day.conditions)]

structure NewDay where
  date : String
  mountain : String
  conditions : Option String
deriving DecidableEq, Inhabited, Repr

namespace NewDay

/-- A day of which not all members were read yet. -/
structure Draft where
  date : Option String
  mountain : Option String
  conditions : Option String

/-- Reads the members that a day has and skips all others. -/
def readMembers : List (String × Json) → Draft → Except Mismatch Draft
  | [], draft => .ok draft
  | (name, value) :: rest, draft =>
    let read : Except Mismatch Draft :=
      match name with
      | "date" => (Reader.text value).map fun date => { draft with date := some date }
      | "mountain" =>
        (Reader.text value).map fun mountain => { draft with mountain := some mountain }
      | "conditions" =>
        (Reader.optional Reader.text value).map fun conditions => { draft with conditions }
      | _ => .ok draft
    match read with
    | .error mismatch => .error mismatch
    | .ok draft => readMembers rest draft

def finish (draft : Draft) : Except Mismatch NewDay :=
  match draft.date, draft.mountain with
  | none, _ => .error (.missingField "date")
  | some _, none => .error (.missingField "mountain")
  | some date, some mountain => .ok ⟨date, mountain, draft.conditions⟩

def wanted : String := "struct AddDayInput"

/-- Reads the array form, whose last item may be left out. -/
def readItems : List Json → Except Mismatch NewDay
  | [] => .error (.length 0 (wanted ++ " with 3 elements"))
  | date :: rest => do
    let date ← Reader.text date
    match rest with
    | [] => .error (.length 1 (wanted ++ " with 3 elements"))
    | mountain :: rest => do
      let mountain ← Reader.text mountain
      match rest with
      | [] => .ok ⟨date, mountain, none⟩
      | conditions :: rest => do
        let conditions ← Reader.optional Reader.text conditions
        if rest.isEmpty then .ok ⟨date, mountain, conditions⟩
        else .error (.length (rest.length + 3) "fewer elements in array")

def read : Reader NewDay
  | .object members =>
    match readMembers members ⟨none, none, none⟩ with
    | .error mismatch => .error mismatch
    | .ok draft => finish draft
  | .array items => readItems items
  | value => .error (.kind value wanted)

end NewDay

structure Removal where
  day : Option Day
  totalBefore : Nat
  totalAfter : Nat
deriving DecidableEq, Inhabited, Repr

def Removal.toJson (removal : Removal) : Json :=
  .object [("day", (removal.day.map Day.toJson).getD .null), ("remove", .bool removal.day.isSome),
    ("totalBefore", .ofNat removal.totalBefore), ("totalAfter", .ofNat removal.totalAfter)]

/-- The days in the order in which they were added, by their identifiers. -/
structure Store where
  days : Ordered String Day
  nextId : Nat
deriving DecidableEq, Inhabited, Repr

namespace Store

/-- Identifiers are counted from one. -/
def empty : Store := ⟨[], 1⟩

def add (store : Store) (day : NewDay) : Day × Store :=
  let id := toString store.nextId
  let stored : Day := ⟨id, day.date, day.mountain, day.conditions⟩
  (stored, ⟨Ordered.insert store.days id stored, store.nextId + 1⟩)

def remove (store : Store) (id : String) : Removal × Store :=
  let days := Ordered.erase store.days id
  (⟨Ordered.get? store.days id, store.days.length, days.length⟩, { store with days })

def newDay (day : Day) : Event := ⟨"newDay", day.toJson⟩

def answerAdd (arguments : Ordered String Json) (store : Store) : Reply Store :=
  match Argument.require NewDay.read arguments "input" with
  | .error error => ⟨.error error, store, []⟩
  | .ok day =>
    let (stored, store) := store.add day
    ⟨.ok stored.toJson, store, [newDay stored]⟩

def answerRemove (arguments : Ordered String Json) (store : Store) : Reply Store :=
  match Argument.require Reader.text arguments "id" with
  | .error error => ⟨.error error, store, []⟩
  | .ok id =>
    let (removal, store) := store.remove id
    ⟨.ok removal.toJson, store, []⟩

def handlers : Handlers Store :=
  (Handlers.register [] "Mutation" "addDay"
      ⟨none, fun arguments _ store => answerAdd arguments store⟩).register "Mutation" "removeDay"
    ⟨none, fun arguments _ store => answerRemove arguments store⟩

end Store

end MockGraph.SkiDay
