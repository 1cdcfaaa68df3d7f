import MockGraph.Operation.Description
import MockGraph.Server.Basic
import MockGraph.Server.Build
import MockGraph.Server.CommandLine
set_option autoImplicit false

namespace MockGraph

def ResolutionError.kind : ResolutionError → String
  | missingArgument _ => "MissingArgument"
  | argumentParse _ _ => "ArgumentParse"
  | invalidValue _ _ => "InvalidValue"
  | noGenerator _ => "NoGenerator"
  | nullForNonNull _ => "NullForNonNull"
  | custom _ => "Custom"
  | internal _ => "Internal"

def ResolutionError.report (error : ResolutionError) : Json :=
  .report error.kind (some error.message)

def RegistryError.kind : RegistryError → String
  | duplicateSubscription _ => "DuplicateSubscription"
  | notASubscription _ => "NotASubscription"

def RegistryError.report (error : RegistryError) : Json :=
  .object [("error", .string error.kind), ("message", .string error.message),
    ("code", .string error.code)]

def Draining.report (error : Draining) : Json := .report "Draining" (some error.message)

namespace Server

def Usage.kind : Usage → String
  | missingValue => "InvalidValue"
  | invalidValue => "ValueValidation"
  | unknownArgument => "UnknownArgument"
  | repeatedArgument => "ArgumentConflict"
  | unexpectedValue => "TooManyValues"
  | help => "DisplayHelp"
  | version => "DisplayVersion"

def Usage.report (usage : Usage) : Json := .report usage.kind none

/-- A schema that does not load is reported in full. -/
def BuildError.report : BuildError → Json
  | read path => .report "Read" (some (read path).message)
  | mockRules path => .report "MockRules" (some (mockRules path).message)
  | schema error => .object [("error", .string "Schema"), ("schema", error.report)]

end Server

end MockGraph
