import MockGraph.Execution.Run
import MockGraph.Mock.RulesFile
import MockGraph.Schema.Load
import MockGraph.Server.Config
import MockGraph.SkiDay.Assets
import MockGraph.SkiDay.Store
set_option autoImplicit false

namespace MockGraph.Server

/-- Why a server does not start. -/
inductive BuildError where
  | read (path : String)
  | mockRules (path : String)
  | schema (error : SchemaError)
deriving DecidableEq, Inhabited, Repr

def BuildError.message : BuildError → String
  | read path => "failed to read " ++ path
  | mockRules path => "invalid mock rules file " ++ path
  | schema error => error.message

/-- An engine, and the seed for its mock values if one is asked for. -/
structure Built where
  engine : Engine SkiDay.Store
  seed : Option Nat

namespace Config

/-- The text of a file, or the bundled text if none is configured. -/
def load (readFile : String → Option String) (file : Option String) (bundled : String) :
    Except BuildError String :=
  match file with
  | none => .ok bundled
  | some path =>
    match readFile path with
    | some text => .ok text
    | none => .error (.read path)

def loadSchema (config : Config) (readFile : String → Option String) :
    Except BuildError TypeSystem := do
  let text ← load readFile config.schemaFile SkiDay.schemaText
  match TypeSystem.parse text with
  | .ok schema => .ok schema
  | .error error => .error (.schema error)

/-- The mock rules and the seed, which the configuration may override. -/
def loadMocks (config : Config) (readFile : String → Option String) :
    Except BuildError (Mocks × Option Nat) := do
  let text ← load readFile config.mocksFile SkiDay.mocksText
  match RulesFile.parse? text with
  | none => .error (.mockRules (config.mocksFile.getD "skiday-mocks.json"))
  | some file =>
    match file.rules with
    | .error error => .error (.schema error)
    | .ok rules => .ok (⟨rules, file.listSize⟩, config.seed.orElse fun _ => file.seed)

/-- The engine that a configuration asks for. The store of ski days stands behind their own schema
only. -/
def build (config : Config) (readFile : String → Option String) : Except BuildError Built := do
  let schema ← config.loadSchema readFile
  let (mocks, seed) ← config.loadMocks readFile
  match mocks.rules.check schema with
  | .error error => .error (.schema error)
  | .ok () =>
    .ok ⟨⟨schema, mocks, if config.schemaFile.isNone then SkiDay.Store.handlers else []⟩, seed⟩

end Config

end MockGraph.Server
