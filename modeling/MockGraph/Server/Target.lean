import MockGraph.Server.Http
set_option autoImplicit false

namespace MockGraph.Server

namespace Target

/-- Characters of a path. Those beyond ASCII may stand as they are. -/
def isPathChar (c : Char) : Bool :=
  c = '!' || c = '"' || ('$' ≤ c && c ≤ ';') || c = '=' || ('@' ≤ c && c ≤ '_') || 'a' ≤ c

def isQueryChar (c : Char) : Bool :=
  c = '!' || ('$' ≤ c && c ≤ ';') || c = '=' || '?' ≤ c

/-- The path in front of a query and a fragment. Nothing is looked at in a fragment. -/
def path? (text : List Char) : Option (List Char) :=
  let path := text.takeWhile fun c => c ≠ '?' && c ≠ '#'
  let query := match text.dropWhile fun c => c ≠ '?' && c ≠ '#' with
    | '?' :: rest => rest.takeWhile (· ≠ '#')
    | _ => []
  if path.all isPathChar && query.all isQueryChar then some (if path.isEmpty then ['/'] else path)
  else none

def isSchemeChar (c : Char) : Bool := c.isAlphanum || c = '+' || c = '-' || c = '.'

def maxScheme : Nat := 64

/-- The text behind a scheme, if one stands in front. -/
def afterScheme? (text : List Char) : Option (List Char) :=
  match text.dropWhile isSchemeChar with
  | ':' :: '/' :: '/' :: rest => some rest
  | _ => none

structure Authority where
  colons : Nat
  opened : Bool
  closed : Bool
  percent : Bool
  /-- The last character was an `@`. -/
  atEnd : Bool

def isAuthorityChar (c : Char) : Bool :=
  c.isAlphanum || "!$&'()*+,-.;=_~".toList.contains c

/-- Reads a character. Colons and percent signs of user data and of addresses in brackets do not
count. -/
def Authority.read (seen : Authority) (c : Char) : Option Authority :=
  let seen := { seen with atEnd := false }
  if c = ':' then if seen.colons ≥ 8 then none else some { seen with colons := seen.colons + 1 }
  else
    if c = '[' then if seen.percent || seen.opened then none else some { seen with opened := true }
  else if c = ']' then
    if !seen.opened || seen.closed then none
    else some { seen with closed := true, colons := 0, percent := false }
  else if c = '@' then some { seen with colons := 0, percent := false, atEnd := true }
  else if c = '%' then some { seen with percent := true }
  else if isAuthorityChar c then some seen
  else none

def isAuthority (text : List Char) : Bool :=
  match text.foldlM Authority.read ⟨0, false, false, false, false⟩ with
  | none => false
  | some seen => seen.opened == seen.closed && seen.colons ≤ 1 && !seen.atEnd && !seen.percent

def isAuthorityEnd (c : Char) : Bool := c = '/' || c = '?' || c = '#'

def maxBytes : Nat := 65534

/-- The path that a target leads to. An authority alone has none. -/
def read? (target : String) : Option String :=
  if target.utf8ByteSize > maxBytes then none
  else
    match target.toList with
    | [] => none
    | ['*'] => some "*"
    | '/' :: rest => (path? ('/' :: rest)).map String.ofList
    | text =>
      match afterScheme? text with
      | none => if isAuthority text then some "" else none
      | some rest =>
        let authority := rest.takeWhile fun c => !isAuthorityEnd c
        if authority.isEmpty || !isAuthority authority ||
            text.length > rest.length + 3 + maxScheme then
          none
        else (path? (rest.drop authority.length)).map String.ofList

end Target

def isTokenChar (c : Char) : Bool := c.isAlphanum || "!#$%&'*+-.^_`|~".toList.contains c

/-- A word that can name a method or a header. -/
def isToken (text : String) : Bool := !text.isEmpty && text.toList.all isTokenChar

/-- A text that can be the value of a header. -/
def isHeaderValue (text : String) : Bool :=
  text.toList.all fun c => c = '\t' || (32 ≤ c.toNat && c.toNat ≠ 127)

/-- A request from its parts, if each of them can stand in one. -/
def HttpRequest.ofParts? (method target : String) (headers : List (String × String))
    (body : String) : Option HttpRequest :=
  if isToken method && headers.all fun (name, value) => isToken name && isHeaderValue value then
    (Target.read? target).map fun path =>
      ⟨method, path, headers.map fun (name, value) => (HttpRequest.lowered name, value), body⟩
  else none

end MockGraph.Server
