import MockGraph.Json.Basic
import MockGraph.Json.Printer
import MockGraph.Mock.Calendar
import MockGraph.Mock.Random
set_option autoImplicit false

namespace MockGraph.Random

/-- A whole number between -100 and 100. -/
def drawInt (random : Random) : Json × Random :=
  let (offset, random) := random.below .w32 201
  (.ofInt ((offset : Int) - 100), random)

/-- The double `200 * n / 2^52 - 100`, rounded after the product and after the difference. -/
def percentage (n : Nat) : Double :=
  let product := (Double.round? false (200 * n) (Nat.pow 2 52)).getD default
  (product.add? ((Double.ofInt? (-100)).getD default)).getD default

/-- Below 100. -/
def isBelowHundred (x : Double) : Bool :=
  let (n, d) := x.signedFraction
  decide (n < 100 * (d : Int))

/-- Draws until rounding does not lead to the upper bound. -/
def drawFloatWithin : Nat → Random → Json × Random
  | 0, random => (.number (.double (percentage 0)), random)
  | attempts + 1, random =>
    let (word, random) := random.next64
    let x := percentage (word / Nat.pow 2 12)
    if isBelowHundred x then (.number (.double x), random) else drawFloatWithin attempts random

/-- A double from -100 up to, but not including, 100. -/
def drawFloat (random : Random) : Json × Random := drawFloatWithin maxAttempts random

def drawString (random : Random) : Json × Random := (.string "Hello World", random)

/-- The top bit of a word. -/
def drawBoolean (random : Random) : Json × Random :=
  let (word, random) := random.next32
  (.bool (Nat.pow 2 31 ≤ word), random)

/-- A number below `16^count` with exactly `count` hexadecimal digits. -/
def hexText : Nat → Nat → List Char
  | 0, _ => []
  | count + 1, n => hexText count (n / 16) ++ [hexDigit n]

def drawId (random : Random) : Json × Random :=
  let (word, random) := random.next64
  (.string (String.ofList (hexText 16 word)), random)

/-- A day from the start of 2000 to the end of 2030. -/
def drawDate (random : Random) : Json × Random :=
  let (day, random) := random.between .w32 730120 741442
  (.string (Date.ofDay day).text, random)

end MockGraph.Random
