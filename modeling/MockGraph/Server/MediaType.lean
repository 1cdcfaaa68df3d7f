set_option autoImplicit false

namespace MockGraph.Server

structure MediaType where
  type : String
  subtype : String
  /-- What follows the last plus sign of the subtype. -/
  suffix : Option String
deriving DecidableEq, Inhabited, Repr

namespace MediaType

def isTokenChar (c : Char) : Bool :=
  ('0' ≤ c ∧ c ≤ '9') ∨ ('A' ≤ c ∧ c ≤ 'Z') ∨ ('a' ≤ c ∧ c ≤ 'z') ∨ c ∈ "!#$%&'*+-.^_`|~".toList

/-- Characters that may stand between quotes. -/
def isQuotable (c : Char) : Bool := 31 < c.toNat && c.toNat ≠ 127

def lower (cs : List Char) : String := String.ofList (cs.map Char.toLower)

/-- Parts a subtype from its suffix, which follows the last plus sign that is not in front. -/
def splitSuffix (cs : List Char) : List Char × Option (List Char) :=
  let suffix := (cs.reverse.takeWhile (· ≠ '+')).reverse
  let name := cs.take (cs.length - suffix.length - 1)
  if name.isEmpty || suffix.length = cs.length then (cs, none) else (name, some suffix)

mutual

/-- What follows the quote that ends a value. -/
def afterQuote : List Char → Bool
  | [] => true
  | ' ' :: rest => afterQuote rest
  | ';' :: rest => parameterName rest true
  | _ :: _ => false

/-- The rest of a value between quotes, which is not empty. -/
def quotedValue : List Char → Bool → Bool
  | [], _ => false
  | c :: rest, isFirst =>
    if c = '"' && !isFirst then afterQuote rest else isQuotable c && quotedValue rest false

def parameterValue : List Char → Bool → Bool
  | [], _ => true
  | c :: rest, isFirst =>
    if c = '"' && isFirst then quotedValue rest true
    else if c = ';' && !isFirst then parameterName rest true
    else isTokenChar c && parameterValue rest false

/-- The rest of a parameter's name. Blanks may stand in front of it, and no name needs to follow. -/
def parameterName : List Char → Bool → Bool
  | [], isFirst => isFirst
  | c :: rest, isFirst =>
    if c = ' ' && isFirst then parameterName rest true
    else if c = '=' && !isFirst then parameterValue rest true
    else isTokenChar c && parameterName rest false

end

def parse? (text : String) : Option MediaType :=
  let cs := text.toList
  let type := cs.takeWhile isTokenChar
  match cs.dropWhile isTokenChar with
  | '/' :: rest =>
    let subtype := rest.takeWhile isTokenChar
    let parameters := match rest.dropWhile isTokenChar with
      | [] => true
      | ';' :: parameters | ' ' :: parameters => parameterName parameters true
      | _ => false
    if type.isEmpty || (subtype.isEmpty && !(rest.dropWhile isTokenChar).isEmpty) ||
        !parameters then
      none
    else
      let (name, suffix) := splitSuffix subtype
      some ⟨lower type, lower name, suffix.map lower⟩
  | _ => none

/-- JSON itself, or a format that is written in JSON. -/
def isJson (media : MediaType) : Bool :=
  media.type == "application" && (media.subtype == "json" || media.suffix == some "json")

end MediaType

end MockGraph.Server
