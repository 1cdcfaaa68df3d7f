import MockGraph.Json.Record
import MockGraph.Mock.Rules
set_option autoImplicit false

namespace MockGraph

/-- What a file says of a type or a field. -/
inductive RuleEntry where
  | listSize (first second : Nat)
  | constant (value : Json)
deriving DecidableEq, Inhabited, Repr

/-- The rule of an entry, whose bounds may stand in any order. -/
def RuleEntry.rule : RuleEntry → MockRule
  | listSize first second => .listSize (.between first second)
  | constant value => .constant value

structure RulesFile where
  seed : Option Nat
  defaultListSize : Option (Nat × Nat)
  types : Ordered String RuleEntry
  fields : Ordered String RuleEntry
deriving DecidableEq, Inhabited, Repr

namespace Tree

def word64? : Tree → Option Nat
  | number (some n) => (Json.number n).asWord64?
  | _ => none

def bounds? : Tree → Option (Nat × Nat)
  | array [first, second] => do return (← first.word64?, ← second.word64?)
  | _ => none

/-- An object with nothing but a list size, or the record's array form. -/
def listSize? : Tree → Option (Nat × Nat)
  | object [(some "listSize", tree)] => tree.bounds?
  | array [tree] => tree.bounds?
  | _ => none

/-- An entry is a constant unless it is exactly a list size. -/
def readEntry (room : Nat) (tree : Tree) : Except Fault RuleEntry :=
  match tree.value room with
  | .error fault => .error fault
  | .ok value =>
    match tree.listSize? with
    | some (first, second) => .ok (.listSize first second)
    | none => .ok (.constant value)

def readEntries (room : Nat) : List (Option String × Tree) → Ordered String RuleEntry →
    Except Fault (Ordered String RuleEntry)
  | [], entries => .ok entries
  | (none, _) :: _, _ => .error .text
  | (some name, tree) :: members, entries =>
    match readEntry room tree with
    | .error fault => .error fault
    | .ok entry => readEntries room members (entries.insert name entry)

/-- Entries by name. The last entry of a name counts. -/
def readTable (room : Nat) : Tree → Except Fault (Ordered String RuleEntry)
  | object members => readEntries (room - 1) members []
  | tree => .error tree.mismatch

def readRulesFile (room : Nat) (tree : Tree) : Except Fault RulesFile :=
  let fields : List (Field RulesFile) :=
    [⟨"seed", true, fun tree file =>
      (readOptional (fun tree => required tree.word64?) tree).map fun seed => { file with seed }⟩,
      ⟨"defaultListSize", true, fun tree file =>
        (readOptional (fun tree => required tree.bounds?) tree).map fun defaultListSize =>
          { file with defaultListSize }⟩,
      ⟨"types", true, fun tree file =>
        (readTable (room - 1) tree).map fun types => { file with types }⟩,
      ⟨"fields", true, fun tree file =>
        (readTable (room - 1) tree).map fun fields => { file with fields }⟩]
  readRecord room fields .refuse ⟨none, none, [], []⟩ tree

end Tree

namespace RulesFile

/-- Reads a file. Members it does not know are refused. -/
def parse? (text : String) : Option RulesFile :=
  (Tree.readWhole (Tree.readRulesFile Tree.maxDepth) text).toOption

/-- The type and the field of a key, which are divided by its first dot. -/
def splitKey? : List Char → Option (List Char × List Char)
  | [] => none
  | '.' :: field => some ([], field)
  | c :: rest => (splitKey? rest).map fun (type, field) => (c :: type, field)

/-- Adds the rules of fields in the order of the file. -/
def addFields : List (String × RuleEntry) → MockRules → Except SchemaError MockRules
  | [], rules => .ok rules
  | (key, entry) :: rest, rules =>
    match splitKey? key.toList with
    | none => .error (.invalidMockRule key "field rules are keyed as Type.field")
    | some (type, field) =>
      addFields rest (rules.withField (String.ofList type) (String.ofList field) entry.rule)

/-- The rules of a file on top of the standard ones. -/
def rules (file : RulesFile) : Except SchemaError MockRules :=
  addFields file.fields
    (file.types.foldl (fun rules entry => rules.withType entry.1 entry.2.rule) .standard)

/-- The size of lists that no rule speaks of. -/
def listSize (file : RulesFile) : ListSize :=
  match file.defaultListSize with
  | some (first, second) => .between first second
  | none => .standard

end RulesFile

end MockGraph
