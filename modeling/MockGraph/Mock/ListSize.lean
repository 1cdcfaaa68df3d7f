set_option autoImplicit false

namespace MockGraph

/-- The least and the greatest length of a list, both allowed. -/
structure ListSize where
  min : Nat
  max : Nat
  ordered : min ≤ max
deriving DecidableEq, Repr

namespace ListSize

/-- The range between two bounds, given in any order. -/
def between (a b : Nat) : ListSize :=
  if ordered : a ≤ b then ⟨a, b, ordered⟩ else ⟨b, a, by omega⟩

def exactly (n : Nat) : ListSize := ⟨n, n, Nat.le_refl n⟩

def contains (range : ListSize) (n : Nat) : Bool := range.min ≤ n && n ≤ range.max

/-- Lists that nothing else is known of have one to fifteen items. -/
def standard : ListSize := ⟨1, 15, by decide⟩

instance : Inhabited ListSize := ⟨standard⟩

theorem contains_iff (range : ListSize) (n : Nat) :
    range.contains n = true ↔ range.min ≤ n ∧ n ≤ range.max := by
  simp [contains]

end ListSize

end MockGraph
