import MockGraph.Json.Basic
set_option autoImplicit false

namespace MockGraph

/-- The digit of a value below sixteen, lower case. -/
def hexDigit (n : Nat) : Char := Nat.digitChar (n % 16)

/-- Quotes, backslashes and control characters are escaped, all other characters stand for
themselves. -/
def escapedChar (c : Char) : List Char :=
  if c = '"' then ['\\', '"']
  else if c = '\\' then ['\\', '\\']
  else if c = '\n' then ['\\', 'n']
  else if c = '\r' then ['\\', 'r']
  else if c = '\t' then ['\\', 't']
  else if c.toNat = 8 then ['\\', 'b']
  else if c.toNat = 12 then ['\\', 'f']
  else if c.toNat < 32 then ['\\', 'u', '0', '0', hexDigit (c.toNat / 16), hexDigit c.toNat]
  else [c]

namespace Double

/-- Digits with the point after the first `count` of them, and at least one digit on both sides. -/
def plainLayout (digits : List Char) (point : Int) : List Char :=
  if point ≤ 0 then ['0', '.'] ++ List.replicate (-point).toNat '0' ++ digits
  else
    let whole := digits.take point.toNat
    let rest := digits.drop point.toNat
    whole ++ List.replicate (point.toNat - whole.length) '0' ++ ['.'] ++
      (if rest.isEmpty then ['0'] else rest)

/-- One digit, a point if more follow, and the power of ten with its sign. -/
def powerLayout (digits : List Char) (power : Int) : List Char :=
  let rest := digits.drop 1
  digits.take 1 ++ (if rest.isEmpty then [] else '.' :: rest) ++
    ['e', if power < 0 then '-' else '+'] ++ Nat.toDigits 10 power.natAbs

/-- The fewest digits that read back, written out for powers of ten from `-5` to `15` and with an
exponent otherwise. -/
def text (x : Double) : List Char :=
  (if x.negative then ['-'] else []) ++
    if x.isZero then ['0', '.', '0']
    else
      let decimal := x.shortest
      let power := decimal.point - 1
      if -5 ≤ power ∧ power < 16 then plainLayout decimal.digits decimal.point
      else powerLayout decimal.digits power

end Double

namespace Number

def text : Number → List Char
  | integer n => (if n < 0 then ['-'] else []) ++ Nat.toDigits 10 n.natAbs
  | double x => x.text

end Number

namespace Json

/-- The characters of a quoted string, before what follows it. -/
def writeString (s : String) (rest : List Char) : List Char :=
  '"' :: (s.toList.flatMap escapedChar ++ '"' :: rest)

mutual

/-- The characters of a value, before what follows it. -/
def write : Json → List Char → List Char
  | null, rest => 'n' :: 'u' :: 'l' :: 'l' :: rest
  | bool true, rest => 't' :: 'r' :: 'u' :: 'e' :: rest
  | bool false, rest => 'f' :: 'a' :: 'l' :: 's' :: 'e' :: rest
  | number n, rest => n.text ++ rest
  | string s, rest => writeString s rest
  | array [], rest => '[' :: ']' :: rest
  | array (item :: items), rest => '[' :: write item (writeItems items rest)
  | object [], rest => '{' :: '}' :: rest
  | object ((name, value) :: members), rest =>
    '{' :: writeString name (':' :: write value (writeMembers members rest))

def writeItems : List Json → List Char → List Char
  | [], rest => ']' :: rest
  | item :: items, rest => ',' :: write item (writeItems items rest)

def writeMembers : List (String × Json) → List Char → List Char
  | [], rest => '}' :: rest
  | (name, value) :: members, rest =>
    ',' :: writeString name (':' :: write value (writeMembers members rest))

end

def text (value : Json) : String := String.ofList (write value [])

end Json

end MockGraph
