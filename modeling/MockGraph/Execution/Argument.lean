import MockGraph.Resolution
import MockGraph.Text.Printable
set_option autoImplicit false

namespace MockGraph

/-- Why a value does not read as a type. -/
inductive Mismatch where
  | kind (found : Json) (wanted : String)
  | range (found : Int) (wanted : String)
  | missingField (name : String)
  | length (count : Nat) (wanted : String)
deriving DecidableEq, Inhabited, Repr

namespace Mismatch

/-- What a value of the wrong kind is called. -/
def describe : Json → String
  | .null => "null"
  | .bool b => "boolean `" ++ toString b ++ "`"
  | .number (.integer n) => "integer `" ++ toString n ++ "`"
  | .number (.double x) => "floating point `" ++ (Json.number (.double x)).text ++ "`"
  | .string s => "string " ++ Text.quoted s
  | .array _ => "sequence"
  | .object _ => "map"

def message : Mismatch → String
  | kind found wanted => "invalid type: " ++ describe found ++ ", expected " ++ wanted
  | range found wanted => "invalid value: integer `" ++ toString found ++ "`, expected " ++ wanted
  | missingField name => "missing field `" ++ name ++ "`"
  | length count wanted => "invalid length " ++ toString count ++ ", expected " ++ wanted

end Mismatch

/-- Reads a value as a type. -/
abbrev Reader (α : Type) := Json → Except Mismatch α

namespace Reader

variable {α : Type}

def anything : Reader Json := .ok

def text : Reader String
  | .string s => .ok s
  | value => .error (.kind value "a string")

def boolean : Reader Bool
  | .bool b => .ok b
  | value => .error (.kind value "a boolean")

/-- An integer between two bounds, both included. -/
def integer (low high : Int) (wanted : String) : Reader Int
  | .number (.integer n) => if low ≤ n ∧ n ≤ high then .ok n else .error (.range n wanted)
  | value => .error (.kind value wanted)

def word32 : Reader Int := integer 0 (Int.pow 2 32 - 1) "u32"

def int64 : Reader Int := integer (-Int.pow 2 63) (Int.pow 2 63 - 1) "i64"

/-- A double, or the double next to an integer. -/
def double : Reader Double
  | .number (.double x) => .ok x
  | .number (.integer n) => .ok ((Double.ofInt? n).getD default)
  | value => .error (.kind value "f64")

/-- Absent values and `null` read as nothing. -/
def optional (read : Reader α) : Reader (Option α)
  | .null => .ok none
  | value => (read value).map some

/-- Reads items in order, up to the first that does not read. -/
def items (read : Reader α) : List Json → Except Mismatch (List α)
  | [] => .ok []
  | item :: rest =>
    match read item with
    | .error mismatch => .error mismatch
    | .ok first => (items read rest).map (first :: ·)

def list (read : Reader α) : Reader (List α)
  | .array values => items read values
  | value => .error (.kind value "a sequence")

def members (read : Reader α) : List (String × Json) → Except Mismatch (Ordered String α)
  | [] => .ok []
  | (name, value) :: rest =>
    match read value with
    | .error mismatch => .error mismatch
    | .ok first => (members read rest).map ((name, first) :: ·)

def map (read : Reader α) : Reader (Ordered String α)
  | .object entries => members read entries
  | value => .error (.kind value "a map")

end Reader

namespace Argument

variable {α : Type}

/-- Reads an argument that has to be there. -/
def require (read : Reader α) (arguments : Ordered String Json) (name : String) :
    Except ResolutionError α :=
  match Ordered.get? arguments name with
  | none => .error (.missingArgument name)
  | some value =>
    match read value with
    | .ok a => .ok a
    | .error mismatch => .error (.argumentParse name mismatch.message)

/-- An argument is missing, or is read, or is refused with a message. -/
theorem require_cases (read : Reader α) (arguments : Ordered String Json) (name : String) :
    (Ordered.get? arguments name = none ∧
      require read arguments name = .error (.missingArgument name)) ∨
    (∃ value a, Ordered.get? arguments name = some value ∧ read value = .ok a ∧
      require read arguments name = .ok a) ∨
    ∃ value message, Ordered.get? arguments name = some value ∧ (∀ a, read value ≠ .ok a) ∧
      require read arguments name = .error (.argumentParse name message) := by
  rw [require]
  cases Ordered.get? arguments name with
  | none => exact Or.inl ⟨rfl, rfl⟩
  | some value =>
    dsimp only
    cases success : read value with
    | ok a => exact Or.inr (Or.inl ⟨value, a, rfl, success, rfl⟩)
    | error mismatch =>
      refine Or.inr (Or.inr ⟨value, mismatch.message, rfl, fun a same => ?_, rfl⟩)
      rw [success] at same
      cases same

/-- Reads an argument, if it is there and of the type wanted. -/
def get? (read : Reader α) (arguments : Ordered String Json) (name : String) : Option α :=
  (Ordered.get? arguments name).bind fun value => (read value).toOption

end Argument

end MockGraph
