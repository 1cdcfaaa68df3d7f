import MockGraph.Text.Unicode
set_option autoImplicit false

namespace MockGraph.Syntax

/-- Blanks, commas, comments and byte order marks stand between tokens and mean nothing. -/
inductive Token where
  /-- One of the signs `! $ & ( ) : = @ [ ] { | }`. -/
  | sign (c : Char)
  /-- Three points. -/
  | spread
  | name (text : String)
  /-- A whole number, as it is written. -/
  | int (text : String)
  /-- A number with a fraction or an exponent, as it is written. -/
  | float (text : String)
  /-- The value of a quoted or a block string. -/
  | string (value : String)
deriving DecidableEq, Inhabited, Repr

namespace Token

def isNameStart (c : Char) : Bool := c.isAlpha || c == '_'

def isNameRest (c : Char) : Bool := c.isAlphanum || c == '_'

def isSign (c : Char) : Bool := "!$&():=@[]{|}".toList.contains c

def isIgnored (c : Char) : Bool :=
  c == ' ' || c == '\t' || c == '\n' || c == '\r' || c == ',' || c.toNat == 0xFEFF

def isLineEnd (c : Char) : Bool := c == '\n' || c == '\r'

/-- Reads a quoted string after its opening quote, with the characters so far in reverse. It ends in
its line, and no code is half a surrogate pair. -/
def readQuoted : List Char → List Char → Option (String × List Char)
  | [], _ => none
  | '"' :: rest, read => some (String.ofList read.reverse, rest)
  | '\\' :: 'u' :: '{' :: rest, read =>
    match Text.hexNumber? (rest.takeWhile (· != '}')), rest.dropWhile (· != '}') with
    | some code, '}' :: _ =>
      if rest.head? ≠ some '}' ∧ code.isValidChar then
        readQuoted (rest.drop ((rest.takeWhile (· != '}')).length + 1)) (Char.ofNat code :: read)
      else none
    | _, _ => none
  | '\\' :: 'u' :: a :: b :: c :: d :: rest, read =>
    match Text.hexQuad? a b c d with
    | none => none
    | some unit =>
      if Text.isHighSurrogate unit then
        match Text.secondHalf rest with
        | .unit low => readQuoted (rest.drop 6) (Text.ofSurrogates unit low :: read)
        | _ => none
      else if Text.isLowSurrogate unit then none
      else readQuoted rest (Char.ofNat unit :: read)
  | '\\' :: c :: rest, read =>
    match Text.shortEscape? c with
    | some e => readQuoted rest (e :: read)
    | none => none
  | c :: rest, read => if isLineEnd c then none else readQuoted rest (c :: read)
termination_by text => text.length
decreasing_by all_goals simp only [List.length_cons, List.length_drop]; omega

/-- The characters of a block string before its closing quotes. Only a quoted triple quote is
escaped. -/
def readBlock : List Char → List Char → Option (List Char × List Char)
  | [], _ => none
  | '"' :: '"' :: '"' :: rest, read => some (read.reverse, rest)
  | '\\' :: '"' :: '"' :: '"' :: rest, read => readBlock rest ('"' :: '"' :: '"' :: read)
  | c :: rest, read => readBlock rest (c :: read)

/-- The lines of a text, which end in a line feed, a carriage return or both. -/
def splitLines : List Char → List Char → List (List Char)
  | [], line => [line.reverse]
  | '\r' :: '\n' :: rest, line => line.reverse :: splitLines rest []
  | '\n' :: rest, line => line.reverse :: splitLines rest []
  | '\r' :: rest, line => line.reverse :: splitLines rest []
  | c :: rest, line => splitLines rest (c :: line)

def isIndent (c : Char) : Bool := c == ' ' || c == '\t'

def isBlankLine (line : List Char) : Bool := line.all isIndent

/-- The least indentation of the lines after the first, blank ones apart. -/
def commonIndent (lines : List (List Char)) : Nat :=
  (((lines.drop 1).filter fun line => !isBlankLine line).map fun line =>
    (line.takeWhile isIndent).length).min?.getD 0

/-- The value of a block string: common indentation and blank lines at both ends are removed. -/
def blockValue (raw : List Char) : String :=
  let lines := splitLines raw []
  let indent := commonIndent lines
  let shifted := lines.take 1 ++ (lines.drop 1).map (List.drop indent)
  let trimmed := ((shifted.dropWhile isBlankLine).reverse.dropWhile isBlankLine).reverse
  String.ofList (List.intercalate ['\n'] trimmed)

/-- Digits without a zero in front of others. -/
def readWhole? (text : List Char) : Option (List Char × List Char) :=
  match text.takeWhile Char.isDigit with
  | [] => none
  | '0' :: _ :: _ => none
  | digits => some (digits, text.dropWhile Char.isDigit)

def readFraction? : List Char → Option (List Char × List Char)
  | '.' :: rest =>
    let digits := rest.takeWhile Char.isDigit
    if digits.isEmpty then none else some ('.' :: digits, rest.dropWhile Char.isDigit)
  | text => some ([], text)

def readExponent? : List Char → Option (List Char × List Char)
  | [] => some ([], [])
  | c :: rest =>
    if c = 'e' ∨ c = 'E' then
      let (mark, rest) := match rest with
        | '+' :: rest => (['+'], rest)
        | '-' :: rest => (['-'], rest)
        | rest => ([], rest)
      let digits := rest.takeWhile Char.isDigit
      if digits.isEmpty then none else some (c :: mark ++ digits, rest.dropWhile Char.isDigit)
    else some ([], c :: rest)

/-- Reads a number. No name, point or digit may follow it directly. -/
def readNumber? (text : List Char) : Option (Token × List Char) := do
  let (mark, text) := match text with
    | '-' :: rest => (['-'], rest)
    | text => ([], text)
  let (whole, text) ← readWhole? text
  let (fraction, text) ← readFraction? text
  let (exponent, text) ← readExponent? text
  let literal := String.ofList (mark ++ whole ++ fraction ++ exponent)
  let clear := match text with
    | c :: _ => !(isNameRest c || c == '.')
    | [] => true
  if clear then
    return (if fraction.isEmpty && exponent.isEmpty then .int literal else .float literal, text)
  else none

/-- Reads one token from a text that starts with neither blank nor comment. -/
def readOne? : List Char → Option (Token × List Char)
  | '.' :: '.' :: '.' :: rest => some (spread, rest)
  | '"' :: '"' :: '"' :: rest =>
    (readBlock rest []).map fun (raw, rest) => (string (blockValue raw), rest)
  | '"' :: rest => (readQuoted rest []).map fun (value, rest) => (string value, rest)
  | c :: rest =>
    if isSign c then some (sign c, rest)
    else if isNameStart c then
      some (name (String.ofList (c :: rest.takeWhile isNameRest)), rest.dropWhile isNameRest)
    else readNumber? (c :: rest)
  | [] => none

/-- Reads tokens with at most `fuel` steps. -/
def readAll? : Nat → List Char → Option (List Token)
  | 0, _ => none
  | _ + 1, [] => some []
  | fuel + 1, c :: rest =>
    if isIgnored c then readAll? fuel rest
    else if c = '#' then readAll? fuel (rest.dropWhile fun c => !isLineEnd c)
    else
      match readOne? (c :: rest) with
      | none => none
      | some (token, rest) => (readAll? fuel rest).map (token :: ·)

end Token

/-- The tokens of a text. Every step takes at least one character, so the length bounds their
number. -/
def tokens? (text : String) : Option (List Token) :=
  Token.readAll? (text.toList.length + 1) text.toList

end MockGraph.Syntax
