import MockGraph.Json.Double
import MockGraph.Ordered
set_option autoImplicit false

namespace MockGraph

/-- Integers stay integers as long as they fit 64 bits; all other numbers are doubles. -/
inductive Number where
  | integer (value : Int)
  | double (value : Double)
deriving DecidableEq, Inhabited, Repr

/-- Objects keep the order of their members, and integers are told from doubles. -/
inductive Json where
  | null
  | bool (value : Bool)
  | number (value : Number)
  | string (value : String)
  | array (items : List Json)
  | object (members : List (String × Json))
deriving Inhabited, Repr

namespace Json

mutual

/-- Equality of values, member by member in order. -/
def same : Json → Json → Bool
  | null, null => true
  | bool a, bool b => a == b
  | number a, number b => decide (a = b)
  | string a, string b => a == b
  | array as, array bs => sameItems as bs
  | object as, object bs => sameMembers as bs
  | _, _ => false

def sameItems : List Json → List Json → Bool
  | [], [] => true
  | a :: as, b :: bs => same a b && sameItems as bs
  | _, _ => false

def sameMembers : List (String × Json) → List (String × Json) → Bool
  | [], [] => true
  | (k, a) :: as, (l, b) :: bs => k == l && same a b && sameMembers as bs
  | _, _ => false

end

mutual

theorem eq_of_same : ∀ a b : Json, same a b = true → a = b
  | null, b => by cases b <;> simp [same]
  | bool _, b => by cases b <;> simp [same]
  | number _, b => by cases b <;> simp [same]
  | string _, b => by cases b <;> simp [same]
  | array as, b => by
    cases b <;> simp [same]
    exact eq_of_sameItems as _
  | object as, b => by
    cases b <;> simp [same]
    exact eq_of_sameMembers as _

theorem eq_of_sameItems : ∀ as bs : List Json, sameItems as bs = true → as = bs
  | [], bs => by cases bs <;> simp [sameItems]
  | a :: as, bs => by
    cases bs with
    | nil => simp [sameItems]
    | cons b bs =>
      simp only [sameItems, Bool.and_eq_true, List.cons.injEq, and_imp]
      exact fun first rest => ⟨eq_of_same a b first, eq_of_sameItems as bs rest⟩

theorem eq_of_sameMembers : ∀ as bs : List (String × Json), sameMembers as bs = true → as = bs
  | [], bs => by cases bs <;> simp [sameMembers]
  | (k, a) :: as, bs => by
    cases bs with
    | nil => simp [sameMembers]
    | cons entry bs =>
      obtain ⟨l, b⟩ := entry
      simp only [sameMembers, Bool.and_eq_true, beq_iff_eq, List.cons.injEq, Prod.mk.injEq, and_imp]
      exact fun key first rest => ⟨⟨key, eq_of_same a b first⟩, eq_of_sameMembers as bs rest⟩

end

mutual

theorem same_refl : ∀ a : Json, same a a = true
  | null => rfl
  | bool _ => by simp [same]
  | number _ => by simp [same]
  | string _ => by simp [same]
  | array as => by simp [same, sameItems_refl as]
  | object as => by simp [same, sameMembers_refl as]

theorem sameItems_refl : ∀ as : List Json, sameItems as as = true
  | [] => rfl
  | a :: as => by simp [sameItems, same_refl a, sameItems_refl as]

theorem sameMembers_refl : ∀ as : List (String × Json), sameMembers as as = true
  | [] => rfl
  | (_, a) :: as => by simp [sameMembers, same_refl a, sameMembers_refl as]

end

instance : DecidableEq Json := fun a b =>
  decidable_of_iff (same a b = true) ⟨eq_of_same a b, fun h => h ▸ same_refl a⟩

def ofInt (n : Int) : Json := .number (.integer n)

def ofNat (n : Nat) : Json := .number (.integer n)

def ofText? (text : Option String) : Json := (text.map string).getD null

def strings (texts : List String) : Json := .array (texts.map .string)

def isNull : Json → Bool
  | null => true
  | _ => false

def asBool? : Json → Option Bool
  | bool b => some b
  | _ => none

def asString? : Json → Option String
  | string s => some s
  | _ => none

def asArray? : Json → Option (List Json)
  | array items => some items
  | _ => none

def asObject? : Json → Option (List (String × Json))
  | object members => some members
  | _ => none

/-- An integer of 64 bits with a sign. -/
def asInt64? : Json → Option Int
  | number (.integer n) => if -Int.pow 2 63 ≤ n ∧ n < Int.pow 2 63 then some n else none
  | _ => none

/-- An integer of 64 bits without a sign. -/
def asWord64? : Json → Option Nat
  | number (.integer n) => if 0 ≤ n ∧ n < Int.pow 2 64 then some n.toNat else none
  | _ => none

/-- The member of an object with the given name. -/
def member? (value : Json) (name : String) : Option Json :=
  value.asObject?.bind fun members => Ordered.get? members name

end Json

end MockGraph
