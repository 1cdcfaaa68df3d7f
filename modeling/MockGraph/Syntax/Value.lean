import MockGraph.Json.Basic
import MockGraph.Syntax.Tree
set_option autoImplicit false

namespace MockGraph.Syntax

/-- The parts of a written number: its sign, its digits as one number, and the power of ten that
scales them. -/
structure Scientific where
  negative : Bool
  digits : Nat
  power : Int
deriving DecidableEq, Repr

namespace Scientific

def digitsValue (digits : List Char) : Nat :=
  digits.foldl (fun value c => value * 10 + (c.toNat - '0'.toNat)) 0

def signedValue : List Char → Int
  | '-' :: digits => -(digitsValue digits : Int)
  | '+' :: digits => digitsValue digits
  | digits => digitsValue digits

def ofText (text : String) : Scientific :=
  let cs := text.toList
  let (negative, cs) := match cs with
    | '-' :: rest => (true, rest)
    | cs => (false, cs)
  let isExponent (c : Char) : Bool := c == 'e' || c == 'E'
  let mantissa := cs.takeWhile fun c => !isExponent c
  let exponent := signedValue ((cs.dropWhile fun c => !isExponent c).drop 1)
  let whole := mantissa.takeWhile (· != '.')
  let fraction := (mantissa.dropWhile (· != '.')).drop 1
  ⟨negative, digitsValue (whole ++ fraction), exponent - fraction.length⟩

/-- The nearest double, or nothing when the number is too large. -/
def double? (number : Scientific) : Option Double :=
  Double.ofDecimal? number.negative number.digits number.power

end Scientific

namespace Literal

/-- The value of a whole number as it is written. -/
def intValue (text : String) : Int := Scientific.signedValue text.toList

/-- A number that is too large for a double has no value. -/
def doubleValue (text : String) : Json :=
  match (Scientific.ofText text).double? with
  | some x => .number (.double x)
  | none => .null

/-- Whole numbers of 64 bits stay whole. -/
def numberValue (text : String) : Json :=
  let n := intValue text
  if -Int.pow 2 63 ≤ n ∧ n < Int.pow 2 63 then .ofInt n else doubleValue text

mutual

/-- The value inside a list or an object, where a variable without a value is `null`. -/
def valueOrNull (bindings : Ordered String Json) : Literal → Json
  | null => .null
  | bool value => .bool value
  | int text => numberValue text
  | float text => doubleValue text
  | string value => .string value
  | enum name => .string name
  | .variable name => (Ordered.get? bindings name).getD .null
  | list items => .array (itemValues bindings items)
  | object fields => .object (fieldValues bindings fields [])

def itemValues (bindings : Ordered String Json) : List Literal → List Json
  | [] => []
  | item :: items => valueOrNull bindings item :: itemValues bindings items

/-- Of fields with one name the last one counts. -/
def fieldValues (bindings : Ordered String Json) :
    List (String × Literal) → Ordered String Json → Ordered String Json
  | [], read => read
  | (name, value) :: fields, read =>
    fieldValues bindings fields (Ordered.insert read name (valueOrNull bindings value))

end

/-- The value of an argument: a variable without a value leaves the argument out. -/
def value? (bindings : Ordered String Json) : Literal → Option Json
  | .variable name => Ordered.get? bindings name
  | literal => some (literal.valueOrNull bindings)

/-- The value of a literal without variables. -/
def constant (literal : Literal) : Json := literal.valueOrNull []

end Literal

end MockGraph.Syntax
