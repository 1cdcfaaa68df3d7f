import MockGraph.Json.Basic
import MockGraph.Text.Unicode
set_option autoImplicit false

namespace MockGraph

/-- What a JSON text holds, before it is known which of its parts are wanted. Repeated members are
kept, and the place where the text stops being JSON, so that it can be told which of two faults
comes first. A part that is skipped needs less than one that is read: numbers that are too large and
strings with half a surrogate pair have no value. -/
inductive Tree where
  | null
  | bool (value : Bool)
  | number (value : Option Number)
  | string (text : Option String)
  | array (items : List Tree)
  | object (members : List (Option String × Tree))
  | broken
deriving Inhabited, Repr

namespace Double

def powerOfTen (power : Nat) : Double := (round? false (Nat.pow 10 power) 1).getD default

/-- A double times a power of ten, rounded once for each factor of at most `10^308`. -/
def scaleByTen? (x : Double) (power : Int) : Option Double :=
  if power.natAbs ≤ 308 then
    if 0 ≤ power then x.mul? (powerOfTen power.toNat) else x.div? (powerOfTen (-power).toNat)
  else if x.isZero then some x
  else if 0 ≤ power then none
  else (x.div? (powerOfTen 308)).bind fun y => scaleByTen? y (power + 308)
termination_by power.natAbs

end Double

namespace Number

/-- Reads digits while the number they form fits 64 bits, and gives back those that are left. -/
def takeWord : Nat → List Char → Nat × List Char
  | value, [] => (value, [])
  | value, c :: rest =>
    let next := value * 10 + (c.toNat - '0'.toNat)
    if next < Nat.pow 2 64 then takeWord next rest else (value, c :: rest)

/-- A literal with a fraction or an exponent, or too many digits: the leading digits as one word,
times a power of ten. -/
def scaledLiteral? (negative : Bool) (whole fraction : List Char) (exponent : Int) :
    Option Number :=
  let (leading, dropped) := takeWord 0 whole
  let (digits, unread) := takeWord leading fraction
  let power : Int :=
    (dropped.length : Int) - ((fraction.length - unread.length : Nat) : Int) + exponent
  ((Double.round? false digits 1).bind fun x => x.scaleByTen? power).map fun x =>
    .double { x with negative }

/-- Whole literals that fit 64 bits are integers, apart from negative zero. -/
def literal? (negative : Bool) (whole : List Char) (fraction : Option (List Char))
    (exponent : Option Int) : Option Number :=
  match fraction, exponent, takeWord 0 whole with
  | none, none, (value, []) =>
    if !negative then some (.integer value)
    else if 0 < value ∧ value ≤ Nat.pow 2 63 then some (.integer (-(value : Int)))
    else (Double.round? true value 1).map .double
  | _, _, _ => scaledLiteral? negative whole (fraction.getD []) (exponent.getD 0)

end Number

namespace Tree

def isBlank (c : Char) : Bool := c == ' ' || c == '\n' || c == '\t' || c == '\r'

def skipBlanks (text : List Char) : List Char := text.dropWhile isBlank

/-- Reads a string after its opening quote, with the characters so far in reverse and `none` once
there has been half a surrogate pair. -/
def readString : List Char → Option (List Char) → Option (Option String × List Char)
  | [], _ => none
  | '"' :: rest, read => some (read.map fun cs => String.ofList cs.reverse, rest)
  | '\\' :: 'u' :: a :: b :: c :: d :: rest, read =>
    match Text.hexQuad? a b c d with
    | none => none
    | some unit =>
      if Text.isHighSurrogate unit then
        match Text.secondHalf rest with
        | .malformed => none
        | .absent => readString rest none
        | .unit low => readString (rest.drop 6) (read.map (Text.ofSurrogates unit low :: ·))
      else if Text.isLowSurrogate unit then readString rest none
      else readString rest (read.map (Char.ofNat unit :: ·))
  | '\\' :: c :: rest, read =>
    match Text.shortEscape? c with
    | some e => readString rest (read.map (e :: ·))
    | none => none
  | c :: rest, read => if c.toNat < 32 then none else readString rest (read.map (c :: ·))
termination_by text => text.length
decreasing_by all_goals simp only [List.length_cons, List.length_drop]; omega

def digitsValue (digits : List Char) : Nat :=
  digits.foldl (fun value c => value * 10 + (c.toNat - '0'.toNat)) 0

/-- The digits at the front, if there are any. -/
def readDigits? (text : List Char) : Option (List Char × List Char) :=
  let digits := text.takeWhile Char.isDigit
  if digits.isEmpty then none else some (digits, text.dropWhile Char.isDigit)

/-- The part of a number before point and exponent: no zero in front of other digits. -/
def readWhole? : List Char → Option (List Char × List Char)
  | '0' :: c :: rest => if c.isDigit then none else some (['0'], c :: rest)
  | text => readDigits? text

def readFraction? : List Char → Option (Option (List Char) × List Char)
  | '.' :: rest => (readDigits? rest).map fun (digits, rest) => (some digits, rest)
  | text => some (none, text)

def readExponent? (text : List Char) : Option (Option Int × List Char) :=
  match text with
  | [] => some (none, [])
  | c :: rest =>
    if c = 'e' ∨ c = 'E' then
      let (negative, rest) := match rest with
        | '-' :: rest => (true, rest)
        | '+' :: rest => (false, rest)
        | rest => (false, rest)
      (readDigits? rest).map fun (digits, rest) =>
        let value : Int := digitsValue digits
        (some (if negative then -value else value), rest)
    else some (none, text)

def readNumber (text : List Char) : Option (Option Number × List Char) := do
  let (negative, text) := match text with
    | '-' :: rest => (true, rest)
    | rest => (false, rest)
  let (whole, text) ← readWhole? text
  let (fraction, text) ← readFraction? text
  let (exponent, text) ← readExponent? text
  return (Number.literal? negative whole fraction exponent, text)

mutual

/-- Reads one value after blanks. Once the text is broken, nothing is left of it. -/
def readValue : Nat → List Char → Tree × List Char
  | 0, _ => (broken, [])
  | fuel + 1, text =>
    match skipBlanks text with
    | 'n' :: 'u' :: 'l' :: 'l' :: rest => (null, rest)
    | 't' :: 'r' :: 'u' :: 'e' :: rest => (bool true, rest)
    | 'f' :: 'a' :: 'l' :: 's' :: 'e' :: rest => (bool false, rest)
    | '"' :: rest =>
      match readString rest (some []) with
      | some (s, rest) => (string s, rest)
      | none => (broken, [])
    | '[' :: rest =>
      match skipBlanks rest with
      | ']' :: rest => (array [], rest)
      | rest =>
        let (items, rest) := readItems fuel rest
        (array items, rest)
    | '{' :: rest =>
      match skipBlanks rest with
      | '}' :: rest => (object [], rest)
      | rest =>
        let (members, rest) := readMembers fuel rest
        (object members, rest)
    | text =>
      match readNumber text with
      | some (n, rest) => (number n, rest)
      | none => (broken, [])

/-- Reads items up to the closing bracket. -/
def readItems : Nat → List Char → List Tree × List Char
  | 0, _ => ([broken], [])
  | fuel + 1, text =>
    let (item, rest) := readValue fuel text
    match skipBlanks rest with
    | ']' :: rest => ([item], rest)
    | ',' :: rest =>
      let (items, rest) := readItems fuel rest
      (item :: items, rest)
    | _ => ([item, broken], [])

/-- Reads members up to the closing brace. -/
def readMembers : Nat → List Char → List (Option String × Tree) × List Char
  | 0, _ => ([(none, broken)], [])
  | fuel + 1, text =>
    match skipBlanks text with
    | '"' :: rest =>
      match readString rest (some []) with
      | none => ([(none, broken)], [])
      | some (name, rest) =>
        match skipBlanks rest with
        | ':' :: rest =>
          let (value, rest) := readValue fuel rest
          match skipBlanks rest with
          | '}' :: rest => ([(name, value)], rest)
          | ',' :: rest =>
            let (members, rest) := readMembers fuel rest
            ((name, value) :: members, rest)
          | _ => ([(name, value), (none, broken)], [])
        | _ => ([(name, broken)], [])
    | _ => ([(none, broken)], [])

end

/-- The tree of a text, and whether anything but blanks follows it. -/
def read (text : String) : Tree × Bool :=
  let cs := text.toList
  let (tree, rest) := readValue (cs.length + 1) cs
  (tree, !(skipBlanks rest).isEmpty)

mutual

def isWhole : Tree → Bool
  | broken => false
  | array items => allWhole items
  | object members => membersWhole members
  | _ => true

def allWhole : List Tree → Bool
  | [] => true
  | item :: items => isWhole item && allWhole items

def membersWhole : List (Option String × Tree) → Bool
  | [] => true
  | (_, value) :: members => isWhole value && membersWhole members

end

/-- Why a text does not read as a value of some shape. -/
inductive Fault where
  /-- The text is not JSON, or holds a value that no reader accepts. -/
  | text
  /-- The text is JSON up to here, but of another shape. -/
  | shape
deriving DecidableEq, Repr

mutual

/-- The value of a tree, with `room` levels of nesting left. Of members with one name the last one
counts, at the place of the first. -/
def value : Nat → Tree → Except Fault Json
  | _, broken => .error .text
  | _, null => .ok .null
  | _, bool b => .ok (.bool b)
  | _, number n => match n with
    | some n => .ok (.number n)
    | none => .error .text
  | _, string s => match s with
    | some s => .ok (.string s)
    | none => .error .text
  | 0, array _ => .error .text
  | 0, object _ => .error .text
  | room + 1, array items => (values room items).map .array
  | room + 1, object members => (memberValues room members []).map .object

def values : Nat → List Tree → Except Fault (List Json)
  | _, [] => .ok []
  | room, item :: items =>
    match value room item with
    | .error fault => .error fault
    | .ok first => (values room items).map (first :: ·)

def memberValues :
    Nat → List (Option String × Tree) → Ordered String Json → Except Fault (Ordered String Json)
  | _, [], read => .ok read
  | _, (none, _) :: _, _ => .error .text
  | room, (some name, tree) :: members, read =>
    match value room tree with
    | .error fault => .error fault
    | .ok value => memberValues room members (read.insert name value)

end

/-- Values are nested at most this deep. -/
def maxDepth : Nat := 127

end Tree

def Json.parse? (text : String) : Option Json :=
  match Tree.read text with
  | (_, true) => none
  | (tree, false) => (tree.value Tree.maxDepth).toOption

end MockGraph
