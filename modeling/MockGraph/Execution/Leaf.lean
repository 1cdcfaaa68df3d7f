import MockGraph.Resolution
import MockGraph.Schema.Basic
set_option autoImplicit false

namespace MockGraph.TypeDef

/-- An integer of 32 bits with a sign. -/
def isInt32 (value : Json) : Bool :=
  match value with
  | .number (.integer n) => decide (-Int.pow 2 31 ≤ n ∧ n < Int.pow 2 31)
  | _ => false

def isNumber : Json → Bool
  | .number _ => true
  | _ => false

/-- The value that a supplied value stands for. An integer stands for an identifier with its digits,
and scalars of a schema's own take any value. -/
def coerce (type : TypeDef) (value : Json) : Except ResolutionError Json :=
  let accept (valid : Bool) : Except ResolutionError Json :=
    if valid then .ok value else .error (.unexpected type.name value)
  match type with
  | .enum _ _ symbols => accept (value.asString?.any symbols.contains)
  | .scalar "Int" _ => accept (isInt32 value)
  | .scalar "Float" _ => accept (isNumber value)
  | .scalar "String" _ => accept value.asString?.isSome
  | .scalar "Boolean" _ => accept value.asBool?.isSome
  | .scalar "ID" _ =>
    match value.asInt64? with
    | some n => .ok (.string (toString n))
    | none => accept value.asString?.isSome
  | .scalar _ _ => .ok value
  | .object _ _ _ | .input _ _ _ => accept false

/-- A value stands for itself, unless its digits stand for it. -/
theorem coerce_cases {type : TypeDef} {value json : Json} (success : type.coerce value = .ok json) :
    json = value ∨ ∃ digits, json = .string digits := by
  have accepted : ∀ valid,
      (if valid = true then Except.ok value else .error (.unexpected type.name value)) =
          (.ok json : Except ResolutionError Json) → json = value := by
    intro valid success
    split at success
    · cases success
      rfl
    · cases success
  unfold coerce at success
  dsimp only at success
  split at success
  case h_6 =>
    split at success
    · cases success
      exact Or.inr ⟨_, rfl⟩
    · exact Or.inl (accepted _ success)
  case h_7 =>
    cases success
    exact Or.inl rfl
  all_goals exact Or.inl (accepted _ success)

end MockGraph.TypeDef
