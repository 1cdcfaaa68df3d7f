import MockGraph.Server.Config
set_option autoImplicit false

namespace MockGraph.Server

/-- Why a command line does not lead to a configuration. -/
inductive Usage where
  /-- An option stands without its value. -/
  | missingValue
  | invalidValue
  | unknownArgument
  | repeatedArgument
  /-- A flag stands with a value. -/
  | unexpectedValue
  /-- The help text is asked for. -/
  | help
  | version
deriving DecidableEq, Inhabited, Repr

namespace CommandLine

inductive Setting where
  | host | port | path | schema | mocks | seed | drainTimeout | keepalive
deriving DecidableEq, Repr

inductive Argument where
  | setting (setting : Setting)
  | noPlayground
  | help
  | version
deriving DecidableEq, Repr

def long? (name : String) : Option Argument :=
  match name with
  | "host" => some (.setting .host)
  | "port" => some (.setting .port)
  | "path" => some (.setting .path)
  | "schema" => some (.setting .schema)
  | "mocks" => some (.setting .mocks)
  | "seed" => some (.setting .seed)
  | "drain-timeout" => some (.setting .drainTimeout)
  | "keepalive" => some (.setting .keepalive)
  | "no-playground" => some .noPlayground
  | "help" => some .help
  | "version" => some .version
  | _ => none

def short? (letter : Char) : Option Argument :=
  match letter with
  | 'p' => some (.setting .port)
  | 's' => some (.setting .schema)
  | 'm' => some (.setting .mocks)
  | 'h' => some .help
  | 'V' => some .version
  | _ => none

/-- The value of decimal digits, of which there is at least one. -/
def digits? (digits : List Char) : Option Nat :=
  if digits.isEmpty || !digits.all Char.isDigit then none
  else some (digits.foldl (fun n c => 10 * n + (c.toNat - '0'.toNat)) 0)

/-- A number of 64 bits, perhaps with a plus sign. -/
def word64? (text : String) : Option Nat :=
  let digits := match text.toList with
    | '+' :: rest => rest
    | cs => cs
  (digits? digits).filter (· < Nat.pow 2 64)

def port? (text : String) : Option Nat :=
  match text.toList with
  | '-' :: rest => (digits? rest).filter (· = 0)
  | _ => (word64? text).filter (· < Nat.pow 2 16)

def assign (config : Config) (setting : Setting) (value : String) : Except Usage Config :=
  let number (change : Nat → Config) : Except Usage Config :=
    match word64? value with
    | some n => .ok (change n)
    | none => .error .invalidValue
  let file (change : String → Config) : Except Usage Config :=
    if value.isEmpty then .error .missingValue else .ok (change value)
  match setting with
  | .host => .ok { config with host := value }
  | .port =>
    match port? value with
    | some port => .ok { config with port }
    | none => .error .invalidValue
  | .path => .ok (config.withPath value)
  | .schema => file fun path => { config with schemaFile := some path }
  | .mocks => file fun path => { config with mocksFile := some path }
  | .seed => number fun seed => { config with seed := some seed }
  | .drainTimeout => number fun seconds => { config with drainTimeout := 1000 * seconds }
  | .keepalive => number fun seconds => config.withKeepalive (1000 * seconds)

structure Draft where
  config : Config
  /-- The arguments that were dealt with. -/
  seen : List Argument
  /-- An option whose value was not looked at, or did not come yet. -/
  pending : Option (Setting × Option String)

namespace Draft

def give (draft : Draft) (setting : Setting) (value : String) : Except Usage Draft :=
  if .setting setting ∈ draft.seen then .error .repeatedArgument
  else
    match assign draft.config setting value with
    | .error usage => .error usage
    | .ok config => .ok { config, seen := .setting setting :: draft.seen, pending := none }

def settle (draft : Draft) : Except Usage Draft :=
  match draft.pending with
  | none => .ok draft
  | some (_, none) => .error .missingValue
  | some (setting, some value) => draft.give setting value

/-- Takes an argument with the value that is attached to it, if any. -/
def take (draft : Draft) (argument : Argument) (attached : Option String) : Except Usage Draft :=
  match argument, attached with
  | .setting setting, some value => draft.settle.bind fun draft => draft.give setting value
  | .setting setting, none =>
    draft.settle.map fun draft => { draft with pending := some (setting, none) }
  | _, some _ => .error .unexpectedValue
  | .noPlayground, none =>
    draft.settle.bind fun draft =>
      if .noPlayground ∈ draft.seen then .error .repeatedArgument
      else .ok { draft with config.playground := false, seen := .noPlayground :: draft.seen }
  | .help, none => draft.settle.bind fun _ => .error .help
  | .version, none => draft.settle.bind fun _ => .error .version

/-- The name of a long option and the value behind its equals sign. -/
def splitLong (word : List Char) : String × Option String :=
  let name := word.takeWhile (· ≠ '=')
  match word.dropWhile (· ≠ '=') with
  | [] => (String.ofList name, none)
  | _ :: value => (String.ofList name, some (String.ofList value))

/-- The value that is attached to a short option. -/
def shortValue : List Char → Option String
  | [] => none
  | '=' :: value => some (String.ofList value)
  | value => some (String.ofList value)

/-- Takes a word that stands before any `--`. -/
def word (draft : Draft) (text : String) : Except Usage Draft :=
  match text.toList with
  | '-' :: '-' :: rest =>
    let (name, attached) := splitLong rest
    match long? name with
    | some argument => draft.take argument attached
    | none => .error .unknownArgument
  | '-' :: letter :: rest =>
    match short? letter with
    | some (.setting setting) => draft.take (.setting setting) (shortValue rest)
    | some argument => draft.take argument none
    | none => .error .unknownArgument
  | _ =>
    match draft.pending with
    | some (setting, none) => .ok { draft with pending := some (setting, some text) }
    | _ => .error .unknownArgument

end Draft

/-- Takes words one after the other. Behind `--` no word can stand. -/
def words : List String → Draft → Except Usage Draft
  | [], draft => draft.settle
  | "--" :: rest, draft => if rest.isEmpty then draft.settle else .error .unknownArgument
  | text :: rest, draft =>
    match draft.word text with
    | .error usage => .error usage
    | .ok draft => words rest draft

/-- The configuration that a command line asks for. -/
def parse (arguments : List String) : Except Usage Config :=
  (words arguments ⟨.standard, [], none⟩).map Draft.config

end CommandLine

end MockGraph.Server
