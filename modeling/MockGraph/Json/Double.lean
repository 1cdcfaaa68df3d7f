set_option autoImplicit false

namespace MockGraph

/-- The finite number `(-1)^negative * significand * 2^exponent`, with a significand below `2^53`
and an exponent that is as small as the significand allows, but not below `-1074`. -/
structure Double where
  negative : Bool
  significand : Nat
  exponent : Int
deriving DecidableEq, Inhabited, Repr

namespace Double

/-- Zero keeps its sign. -/
def zero (negative : Bool) : Double := ⟨negative, 0, -1074⟩

def isZero (x : Double) : Bool := x.significand == 0

/-- The fraction `numerator / denominator / 2^exponent` over integers. -/
def scaled (numerator denominator : Nat) (exponent : Int) : Nat × Nat :=
  if 0 ≤ exponent then (numerator, denominator * Nat.pow 2 exponent.toNat)
  else (numerator * Nat.pow 2 (-exponent).toNat, denominator)

/-- The quotient to the nearest integer, a half to the even one. -/
def roundHalfEven (numerator denominator : Nat) : Nat :=
  let quotient := numerator / denominator
  let rest := numerator % denominator
  if 2 * rest < denominator then quotient
  else if denominator < 2 * rest then quotient + 1
  else quotient + quotient % 2

/-- The exponent at which a positive fraction has a 53 bit significand, or the least one. -/
def exponentOf (numerator denominator : Nat) : Int :=
  let guess : Int := (numerator.log2 : Int) - (denominator.log2 : Int) - 52
  let (n, d) := scaled numerator denominator guess
  max (-1074) (if n / d < Nat.pow 2 52 then guess - 1 else guess)

/-- The double nearest to a fraction, or nothing when it is too large. -/
def round? (negative : Bool) (numerator denominator : Nat) : Option Double :=
  if numerator = 0 then some (zero negative)
  else
    let exponent := exponentOf numerator denominator
    let (n, d) := scaled numerator denominator exponent
    let significand := roundHalfEven n d
    let (significand, exponent) :=
      if significand = Nat.pow 2 53 then (Nat.pow 2 52, exponent + 1) else (significand, exponent)
    if 971 < exponent then none else some ⟨negative, significand, exponent⟩

/-- The magnitude as a fraction of integers. -/
def fraction (x : Double) : Nat × Nat :=
  if 0 ≤ x.exponent then (x.significand * Nat.pow 2 x.exponent.toNat, 1)
  else (x.significand, Nat.pow 2 (-x.exponent).toNat)

def mul? (x y : Double) : Option Double :=
  let (xn, xd) := x.fraction
  let (yn, yd) := y.fraction
  round? (x.negative != y.negative) (xn * yn) (xd * yd)

/-- The quotient by a number other than zero. -/
def div? (x y : Double) : Option Double :=
  let (xn, xd) := x.fraction
  let (yn, yd) := y.fraction
  round? (x.negative != y.negative) (xn * yd) (xd * yn)

/-- The signed numerator over the denominator of `fraction`. -/
def signedFraction (x : Double) : Int × Nat :=
  let (n, d) := x.fraction
  (if x.negative then -(n : Int) else n, d)

def add? (x y : Double) : Option Double :=
  let (xn, xd) := x.signedFraction
  let (yn, yd) := y.signedFraction
  let sum := xn * yd + yn * xd
  round? (sum < 0) sum.natAbs (xd * yd)

def ofInt? (n : Int) : Option Double := round? (n < 0) n.natAbs 1

/-- The number of decimal digits, one for zero. -/
def digitCount (n : Nat) : Nat := (Nat.toDigits 10 n).length

/-- The double nearest to `digits * 10^exponent`, or nothing when it is too large. -/
def ofDecimal? (negative : Bool) (digits : Nat) (exponent : Int) : Option Double :=
  if digits = 0 then some (zero negative)
  else
    let leading := exponent + digitCount digits
    if 310 < leading then none
    else if leading < -330 then some (zero negative)
    else if 0 ≤ exponent then round? negative (digits * Nat.pow 10 exponent.toNat) 1
    else round? negative digits (Nat.pow 10 (-exponent).toNat)

/-- A positive decimal `0.d₁d₂… * 10^(point)` by its digits, none of them a trailing zero. -/
structure Decimal where
  digits : List Char
  point : Int
deriving DecidableEq, Repr

/-- The power of ten of the leading digit of a positive fraction. -/
def leadingPower (numerator denominator : Nat) : Int :=
  if denominator ≤ numerator then (digitCount (numerator / denominator) : Int) - 1
  else
    let quotient := denominator / numerator
    let count := digitCount quotient
    if denominator = quotient * numerator && quotient = Nat.pow 10 (count - 1) then
      -((count : Int) - 1)
    else -(count : Int)

/-- The fraction `numerator / denominator / 10^power` over integers. -/
def scaledByTen (numerator denominator : Nat) (power : Int) : Nat × Nat :=
  if 0 ≤ power then (numerator, denominator * Nat.pow 10 power.toNat)
  else (numerator * Nat.pow 10 (-power).toNat, denominator)

/-- The decimal `count * 10^power`, without the zeros at the end of `count`. -/
def Decimal.ofScaled (count : Nat) (power : Int) : Decimal :=
  let digits := Nat.toDigits 10 count
  ⟨(digits.reverse.dropWhile (· == '0')).reverse, power + digits.length⟩

/-- The interval of numbers that round to a double, as numerators over one denominator:
its lower end, the double itself and its upper end. -/
def roundingInterval (x : Double) : (Nat × Nat × Nat) × Nat :=
  let quarter : Nat × Nat :=
    if 0 ≤ x.exponent - 2 then (Nat.pow 2 (x.exponent - 2).toNat, 1)
    else (1, Nat.pow 2 (2 - x.exponent).toNat)
  let below := if x.significand = Nat.pow 2 52 && -1074 < x.exponent then 1 else 2
  let center := 4 * x.significand
  (((center - below) * quarter.1, center * quarter.1, (center + 2) * quarter.1), quarter.2)

/-- The multiple of `10^power` nearest to a double among those that read back as it. -/
def onGrid? (x : Double) (power : Int) : Option Decimal :=
  let ((low, center, high), denominator) := x.roundingInterval
  let even := x.significand % 2 = 0
  let inside (count : Nat) : Bool :=
    let (n, d) :=
      if 0 ≤ power then (count * Nat.pow 10 power.toNat, 1) else (count, Nat.pow 10 (-power).toNat)
    let point := n * denominator
    (low * d < point || (even && low * d = point)) &&
      (point < high * d || (even && high * d = point))
  let (n, d) := scaledByTen center denominator power
  let floor := n / d
  let rest := n % d
  let nearerAbove := d < 2 * rest || (d = 2 * rest && floor % 2 = 1)
  let (first, second) := if nearerAbove then (floor + 1, floor) else (floor, floor + 1)
  if inside first && first != 0 then some (.ofScaled first power)
  else if inside second then some (.ofScaled second power)
  else none

/-- The first of the finer and finer grids that has a decimal which reads back. Seventeen digits
always suffice, so the search has at most that many steps left. -/
def firstOnGrid (x : Double) (leading : Int) : Nat → Decimal
  | 0 => (x.onGrid? (leading - 17)).getD ⟨['0'], 0⟩
  | left + 1 =>
    match x.onGrid? (leading - (16 - left)) with
    | some decimal => decimal
    | none => firstOnGrid x leading left

/-- The decimal with the fewest digits that reads back as a number other than zero, the nearest of
those. -/
def shortest (x : Double) : Decimal :=
  let (n, d) := x.fraction
  firstOnGrid x (leadingPower n d) 17

end Double

end MockGraph
