import MockGraph.Ordered
set_option autoImplicit false

namespace MockGraph

structure TaskId where
  number : Nat
deriving DecidableEq, Inhabited, Repr

/-- Permits that nobody waits for, and tasks that wait for a permit. -/
structure Gate where
  permits : Nat
  waiting : List TaskId
deriving DecidableEq, Inhabited, Repr

namespace Gate

def shut : Gate := ⟨0, []⟩

/-- Hands permits to the tasks that wait, and keeps what is left. -/
def release (gate : Gate) (count : Nat) : List TaskId × Gate :=
  (gate.waiting.take count,
    ⟨gate.permits + (count - gate.waiting.length), gate.waiting.drop count⟩)

end Gate

abbrev Gates := Ordered String Gate

namespace Gates

def gate (gates : Gates) (name : String) : Gate := (Ordered.get? gates name).getD .shut

def take? (gates : Gates) (name : String) : Option Gates :=
  let gate := gates.gate name
  if gate.permits = 0 then none
  else some (Ordered.insert gates name { gate with permits := gate.permits - 1 })

/-- Puts a task at the end of those that wait. -/
def await (gates : Gates) (name : String) (task : TaskId) : Gates :=
  let gate := gates.gate name
  Ordered.insert gates name { gate with waiting := gate.waiting ++ [task] }

/-- Adds permits, and tells which tasks got one. -/
def release (gates : Gates) (name : String) (count : Nat) : List TaskId × Gates :=
  let (woken, gate) := (gates.gate name).release count
  (woken, Ordered.insert gates name gate)

end Gates

end MockGraph
