import MockGraph.Execution.Run
import MockGraph.Proofs.Operation.Collection
import MockGraph.Proofs.Schema.WellFormed
set_option autoImplicit false

namespace MockGraph

variable {σ : Type}

/-- A handler that is called for a root field. -/
structure HandlerCall (σ : Type) where
  field : FieldSelection
  handler : Handler σ

/-- What a call does to the state of the handlers and the channel of events. -/
def HandlerCall.perform (context : Context) (met : σ × Channel) (call : HandlerCall σ) :
    σ × Channel :=
  let reply := call.handler.answer call.field.arguments context met.1
  (reply.state, met.2.publishAll reply.events)

def World.handled (world : World σ) : σ × Channel := (world.state, world.channel)

namespace Run

/-- The handler that the next field calls, if there is one. -/
def call? (run : Run) (handlers : Handlers σ) (field : FieldSelection) : Option (HandlerCall σ) :=
  (run.handler? handlers field).map (⟨field, ·⟩)

/-- The handlers that are called for root fields, in order. -/
def calls (engine : Engine σ) : List FieldSelection → Run → World σ → List (HandlerCall σ)
  | [], _, _ => []
  | field :: rest, run, world =>
    (run.call? engine.handlers field).toList ++
      match run.step engine field world with
      | (.running next, after) => calls engine rest next after
      | (.finished _, _) => []

/-- The source of a value does what the handler does that it calls. -/
theorem source_handled {run : Run} {handlers : Handlers σ} {field : FieldSelection}
    {definition : FieldDef} (named : field.name ≠ "__typename")
    (declared : run.schema.field run.root field.name = .ok definition) (world : World σ) :
    (run.source handlers field world).2.handled =
      (run.call? handlers field).toList.foldl (HandlerCall.perform run.context) world.handled := by
  unfold source call? handler?
  cases supplied : run.payload with
  | some payload => simp
  | none =>
    cases found : handlers.find? run.root field.name with
    | none => simp [named, declared]
    | some handler => simp [named, declared, HandlerCall.perform, World.handled]

theorem step_performs (run : Run) (engine : Engine σ) (field : FieldSelection) (world : World σ) :
    (run.step engine field world).2.handled =
      (run.call? engine.handlers field).toList.foldl (HandlerCall.perform run.context)
        world.handled := by
  rcases run.step_cases engine field world with
    ⟨isTypename, stepped⟩ | ⟨named, ⟨error, undeclared, stepped⟩ |
      ⟨definition, source, met, done, declared, sourced, -, outcome⟩⟩
  · rw [stepped, call?, handler?]
    simp [isTypename]
  · rw [stepped, call?, handler?]
    simp [undeclared]
  · have handled : met.handled =
        (run.call? engine.handlers field).toList.foldl (HandlerCall.perform run.context)
          world.handled := by
      rw [← source_handled named declared, sourced]
    rcases outcome with ⟨value, -, stepped⟩ | ⟨-, stepped⟩
    · rw [stepped]
      exact handled
    · rw [stepped]
      exact handled

theorem finish_performs (engine : Engine σ) (selection : List FieldSelection) (run : Run)
    (world : World σ) :
    (run.finish engine selection world).2.handled =
      (run.calls engine selection world).foldl (HandlerCall.perform run.context) world.handled := by
  induction selection generalizing run world with
  | nil => rfl
  | cons field rest ih =>
    rw [finish, calls, List.foldl_append, ← run.step_performs engine field world]
    rcases stepped : run.step engine field world with ⟨progress, after⟩
    cases progress with
    | running next =>
      obtain ⟨-, -, -, context⟩ := step_keeps (congrArg Prod.fst stepped)
      have later := ih next after
      rw [context] at later
      exact later
    | finished response => rfl

theorem call?_eq_some {run : Run} {handlers : Handlers σ} {field : FieldSelection}
    {call : HandlerCall σ} (called : run.call? handlers field = some call) :
    call.field = field ∧ field.name ≠ "__typename" ∧
      (∃ definition, run.schema.field run.root field.name = .ok definition) ∧
      handlers.find? run.root field.name = some call.handler := by
  obtain ⟨handler, found, rfl⟩ := Option.map_eq_some_iff.mp called
  unfold handler? at found
  split at found
  · cases found
  · rename_i free
    simp only [Bool.or_eq_true, decide_eq_true_eq, not_or] at free
    cases declared : run.schema.field run.root field.name with
    | error error => simp [declared] at found
    | ok definition =>
      simp only [declared] at found
      exact ⟨rfl, free.1, ⟨definition, rfl⟩, found⟩

/-- A handler is called for a root field that the schema declares. -/
theorem mem_calls {engine : Engine σ} {selection : List FieldSelection} {run : Run}
    {world : World σ} {call : HandlerCall σ} (member : call ∈ run.calls engine selection world) :
    call.field ∈ selection ∧ call.field.name ≠ "__typename" ∧
      (∃ definition, run.schema.field run.root call.field.name = .ok definition) ∧
      engine.handlers.find? run.root call.field.name = some call.handler := by
  induction selection generalizing run world with
  | nil => cases member
  | cons field rest ih =>
    rw [calls] at member
    rcases List.mem_append.mp member with now | later
    · obtain ⟨same, called⟩ := call?_eq_some (Option.mem_toList.mp now)
      rw [← same] at called
      exact ⟨same ▸ List.mem_cons_self, called⟩
    · rcases stepped : run.step engine field world with ⟨progress, after⟩
      rw [stepped] at later
      cases progress with
      | running next =>
        obtain ⟨schema, root, -⟩ := step_keeps (congrArg Prod.fst stepped)
        have below := ih later
        rw [schema, root] at below
        exact ⟨List.mem_cons_of_mem _ below.1, below.2⟩
      | finished response => cases later

end Run

theorem get?_withDefaults_of_given (inputs : Ordered String InputDef) {given : Ordered String Json}
    {name : String} {value : Json} (present : Ordered.get? given name = some value) :
    Ordered.get? (withDefaults inputs given) name = some value := by
  induction inputs generalizing given with
  | nil => exact present
  | cons entry rest ih =>
    rw [withDefaults_cons]
    apply ih
    split
    · exact present
    · rename_i absent
      cases entry.2.default with
      | none => exact present
      | some default =>
        have other : entry.1 ≠ name := by
          intro same
          simp [Ordered.contains, same, present] at absent
        exact (Ordered.get?_insert _ _ _ _).trans (by rw [if_neg other, present])

/-- The value of an argument is the one that is given, or else the default. -/
theorem get?_withDefaults {inputs : Ordered String InputDef} {name : String} {input : InputDef}
    (declared : Ordered.get? inputs name = some input) {default : Json}
    (defaulted : input.default = some default) (given : Ordered String Json) :
    Ordered.get? (withDefaults inputs given) name =
      some ((Ordered.get? given name).getD default) := by
  cases present : Ordered.get? given name with
  | some value => exact get?_withDefaults_of_given inputs present
  | none =>
    induction inputs generalizing given with
    | nil => cases declared
    | cons entry rest ih =>
      obtain ⟨key, first⟩ := entry
      unfold Ordered.get? at declared
      split at declared
      · rename_i same
        obtain rfl := Option.some.inj declared
        rw [withDefaults_cons]
        apply get?_withDefaults_of_given
        simp [Ordered.contains, same, present, defaulted, Ordered.get?_insert]
      · rename_i different
        rw [withDefaults_cons]
        apply ih declared
        split
        · exact present
        · cases first.default with
          | none => exact present
          | some other =>
            exact (Ordered.get?_insert _ _ _ _).trans (by rw [if_neg different, present])

theorem mem_of_givenArguments {bindings : Ordered String Json}
    {arguments : List (String × Syntax.Literal)} {name : String} {value : Json}
    (found : Ordered.get? (givenArguments bindings arguments) name = some value) :
    ∃ literal, (name, literal) ∈ arguments ∧ literal.value? bindings = some value := by
  let Comes (given : Ordered String Json) : Prop := Ordered.get? given name = some value →
    ∃ literal, (name, literal) ∈ arguments ∧ literal.value? bindings = some value
  have all : Comes (givenArguments bindings arguments) := by
    apply List.foldlRecOn arguments _ (motive := Comes)
    · nofun
    · intro given comes argument member found
      split at found
      · rename_i other read
        rw [Ordered.get?_insert] at found
        split at found
        · rename_i same
          obtain rfl := Option.some.inj found
          exact ⟨argument.2, by rw [← same]; exact member, read⟩
        · exact comes found
      · exact comes found
  exact all found

def Engine.calls (engine : Engine σ) (operation : Operation) (world : World σ) :
    List (HandlerCall σ) :=
  match engine.start operation none with
  | .ok (.running run) => run.calls engine operation.selection world
  | _ => []

/-- Why a handler gets `null` for an argument that may not be null. Either the document gives it by
something whose value is `null`, a variable say, and its default does not count then; or it is left
out, and its default is `null`. -/
inductive NullArgument (bindings : Ordered String Json) (arguments : List (String × Syntax.Literal))
    (name : String) (default : Json) : Prop
  | given (literal : Syntax.Literal) : (name, literal) ∈ arguments →
      literal.value? bindings = some .null → NullArgument bindings arguments name default
  | defaulted : Ordered.get? (givenArguments bindings arguments) name = none → default = .null →
      NullArgument bindings arguments name default

/-- A root field that runs, and the first field under its key that the text selects. -/
structure RootField (schema : TypeSystem) (text : String) (operation : Operation) (root : String)
    (field : FieldSelection) (node : FieldNode) : Prop where
  parent : node.parent = root
  name : field.name = node.name
  arguments : field.arguments = node.values schema operation.bindings
  selected : ∃ document definition nodes, Syntax.Document.parse? text = some document ∧
    definition ∈ document.operations ∧ definition.kind = operation.kind ∧
    Expands document.fragments operation.bindings root definition.selection nodes ∧
    nodes.find? (·.responseKey = field.responseKey) = some node

namespace TypeSystem

variable {schema : TypeSystem} {parent : String}

theorem mem_of_operation? {document : Syntax.Document} {name : Option String}
    {definition : Syntax.OperationDefinition} (found : document.operation? name = .ok definition) :
    definition ∈ document.operations := by
  unfold Syntax.Document.operation? at found
  split at found
  · split at found
    · rename_i operation present
      rw [← Except.ok.inj found]
      exact List.mem_of_find?_eq_some present
    · cases found
  · split at found
    · rename_i operation single
      rw [← Except.ok.inj found, single]
      exact List.mem_cons_self
    · cases found

/-- An operation that was read is one of a sound document, lowered with the values that its
variables got. -/
theorem parseOperation_cases {text : String} {name : Option String}
    {provided : Option (Ordered String Json)} {operation : Operation}
    (parsed : schema.parseOperation text name provided = .ok operation) :
    ∃ document definition bindings, Syntax.Document.parse? text = some document ∧
      schema.documentSound document = true ∧ document.operation? name = .ok definition ∧
      coerceVariables definition.variableDefs (provided.getD []) = .ok bindings ∧
      operation = schema.lowerOperation document definition bindings := by
  unfold parseOperation at parsed
  cases read : Syntax.Document.parse? text with
  | none => simp [read] at parsed
  | some document =>
    simp only [read] at parsed
    split at parsed
    · rename_i sound
      cases found : document.operation? name with
      | error error => simp [found] at parsed
      | ok definition =>
        simp only [found] at parsed
        cases coerced : coerceVariables definition.variableDefs (provided.getD []) with
        | error error =>
          rw [coerced] at parsed
          cases parsed
        | ok bindings =>
          rw [coerced] at parsed
          exact ⟨document, definition, bindings, rfl, sound, found, coerced,
            (Except.ok.inj parsed).symm⟩
    · cases parsed

/-- What a text that is accepted runs at its root, it selects there. -/
theorem rootField_of_parsed {text : String} {name : Option String}
    {provided : Option (Ordered String Json)} {operation : Operation} {root : String}
    (parsed : schema.parseOperation text name provided = .ok operation)
    (known : schema.root? operation.kind = some root) {field : FieldSelection}
    (member : field ∈ operation.selection) :
    ∃ node, RootField schema text operation root field node := by
  obtain ⟨document, definition, bindings, read, sound, found, -, rfl⟩ := parseOperation_cases parsed
  have inside := mem_of_operation? found
  obtain ⟨there, nodes, knownThere, parents, expands, collects⟩ := collects_of_sound sound inside
  obtain rfl : there = root := Option.some.inj (knownThere.symm.trans known)
  obtain ⟨node, first, named, values⟩ := collects.first member
  exact ⟨node, parents node (List.mem_of_find?_eq_some first), named, values,
    document, definition, nodes, read, inside, rfl, expands, first⟩

theorem selectable?_of_field {name : String} {definition : FieldDef}
    (declared : schema.field parent name = .ok definition) (named : name ≠ "__typename") :
    schema.selectable? parent name = some definition := by
  obtain ⟨typeName, description, fields, resolved, found⟩ := object_of_field declared
  rw [selectable?, typeNamed?_of_resolve resolved]
  simp [named, found]

/-- An argument without a default that may not be null has a value, or else its field is refused. -/
theorem given_of_valid {field : FieldSelection} (valid : schema.fieldErrors parent field = [])
    (named : field.name ≠ "__typename") {definition : FieldDef}
    (declared : schema.field parent field.name = .ok definition) {name : String} {input : InputDef}
    (member : (name, input) ∈ definition.arguments) (required : input.isRequired = true) :
    ∃ value, Ordered.get? field.arguments name = some value ∧ value ≠ .null := by
  obtain ⟨fieldName, aliasName, arguments, selection⟩ := field
  rw [fieldErrors, if_neg named, declared] at valid
  simp only [List.append_eq_nil_iff] at valid
  have present := List.filterMap_eq_nil_iff.mp valid.1.2 (name, input) member
  cases found : Ordered.get? arguments name with
  | none => simp [found, required] at present
  | some value =>
    refine ⟨value, rfl, ?_⟩
    rintro rfl
    simp [found, required, Json.isNull] at present

section

open Syntax

variable {document : Document} {definition : OperationDefinition} {root name : String}
  {aliasName : Option String} {arguments : List (String × Literal)} {directives : List Directive}
  {bindings : Ordered String Json}

/-- A document with one operation and no fragments is sound if what it selects can be merged, and
all else it says is allowed. -/
theorem documentSound_of_single (known : schema.root? definition.kind = some root)
    (selected : schema.selectionSound definition.variableDefs [] root definition.selection = true)
    (merged : mergeable [] (depthBound ⟨[definition], []⟩ definition) definition.selection = true)
    (around : (Document.namesSound ⟨[definition], []⟩ &&
      schema.directivesAllowed (operationLocation definition.kind) definition.variableDefs
        definition.directives && schema.variablesSound definition.variableDefs &&
      (definition.variableDefs.all fun declared =>
        (Document.variablesUsed ⟨[definition], []⟩ definition).contains declared.name) &&
      Document.subscriptionSound ⟨[definition], []⟩ definition) = true) :
    schema.documentSound ⟨[definition], []⟩ = true := by
  simp only [Bool.and_eq_true] at around
  have sound : schema.operationSound ⟨[definition], []⟩ definition = true := by
    rw [operationSound, known]
    simp only [selected, merged, around, Bool.and_self]
  simp [documentSound, sound, around]

/-- A document whose only operation selects one leaf is sound if what it says there, and around it,
is allowed. -/
theorem documentSound_of_leaf {declared : FieldDef}
    (known : schema.root? definition.kind = some root)
    (selects : definition.selection = [.field aliasName name arguments directives []])
    (selectable : schema.selectable? root name = some declared)
    (allowed : (schema.directivesAllowed .field definition.variableDefs directives &&
      schema.argumentsAllowed definition.variableDefs declared.arguments arguments &&
      schema.selectsRightly declared.type []) = true)
    (around : (Document.namesSound ⟨[definition], []⟩ &&
      schema.directivesAllowed (operationLocation definition.kind) definition.variableDefs
        definition.directives && schema.variablesSound definition.variableDefs &&
      (definition.variableDefs.all fun declared =>
        (Document.variablesUsed ⟨[definition], []⟩ definition).contains declared.name) &&
      Document.subscriptionSound ⟨[definition], []⟩ definition) = true) :
    schema.documentSound ⟨[definition], []⟩ = true := by
  apply documentSound_of_single known _ _ around
  · rw [selects, selectionSound, selectable]
    simp [selectionSound, allowed]
  · -- There are two levels: the leaf, and nothing.
    have bound : depthBound ⟨[definition], []⟩ definition = 2 := by
      rw [depthBound, selects]
      rfl
    rw [bound, selects]
    simp [mergeable, levelFields, distinctKeys]

theorem lowerOperation_of_leaf {values : Ordered String Json}
    (known : schema.root? definition.kind = some root)
    (selects : definition.selection = [.field aliasName name arguments directives []])
    (isIncluded : included bindings directives = true)
    (given : FieldNode.values schema bindings ⟨root, name, aliasName, arguments, []⟩ = values) :
    schema.lowerOperation document definition bindings =
      ⟨definition.kind, definition.name, [⟨name, aliasName, values, []⟩], bindings⟩ := by
  rw [lowerOperation, known, Option.getD_some, selects, lowerSelection_field isIncluded,
    lowerSelection_nil, FieldNode.lower, lowerSelection_nil, given]
  rfl

end

end TypeSystem

namespace Engine

/-- An operation does what the handlers do that it calls, in order, and nothing if it is
rejected. -/
theorem execute_performs (engine : Engine σ) (operation : Operation) (world : World σ) :
    (engine.execute operation world).2.handled =
        (engine.calls operation world).foldl (HandlerCall.perform operation.context) world.handled ∧
      ∀ rejection, (engine.execute operation world).1 = .error rejection →
        engine.calls operation world = [] ∧ (engine.execute operation world).2 = world := by
  unfold execute Engine.run calls
  cases started : engine.start operation none with
  | error rejection => exact ⟨rfl, fun _ _ => ⟨rfl, rfl⟩⟩
  | ok progress =>
    cases progress with
    | finished response => exact ⟨rfl, nofun⟩
    | running run =>
      obtain ⟨root, -, -, ⟨error, -, impossible⟩ | ⟨seed, -, same⟩⟩ := start_cases started
      · cases impossible
      · obtain rfl := Progress.running.inj same
        exact ⟨Run.finish_performs engine operation.selection _ world, nofun⟩

/-- A handler gets a value for each argument that may not be null. It is `null` only for an argument
with a default, where the document gives `null` all the same, or nothing and the default is `null`.
An argument without a default is never `null`: the operation is rejected, and no handler is
called. -/
theorem execute_passes_arguments (engine : Engine σ) (text : String) (name : Option String)
    (provided : Option (Ordered String Json)) (operation : Operation) (world : World σ)
    (parsed : engine.schema.parseOperation text name provided = .ok operation) :
    ((engine.execute operation world).2.handled =
          (engine.calls operation world).foldl (HandlerCall.perform operation.context)
            world.handled ∧ ∀ rejection, (engine.execute operation world).1 = .error rejection →
        engine.calls operation world = [] ∧ (engine.execute operation world).2 = world) ∧
      ∀ call ∈ engine.calls operation world, ∃ root definition node,
        engine.schema.root? operation.kind = some root ∧
          engine.schema.field root call.field.name = .ok definition ∧
          engine.handlers.find? root call.field.name = some call.handler ∧
          RootField engine.schema text operation root call.field node ∧
          ∀ argument input, Ordered.get? definition.arguments argument = some input →
            input.type.isNonNull = true →
            ∃ value, Ordered.get? call.field.arguments argument = some value ∧
              (value = .null → ∃ default, input.default = some default ∧
                NullArgument operation.bindings node.arguments argument default) := by
  refine ⟨engine.execute_performs operation world, ?_⟩
  intro call member
  unfold calls at member
  split at member
  · rename_i run started
    obtain ⟨root, known, valid, ⟨error, -, impossible⟩ | ⟨seed, -, same⟩⟩ := start_cases started
    · cases impossible
    obtain rfl := Progress.running.inj same
    obtain ⟨inside, named, ⟨definition, declared⟩, handler⟩ := Run.mem_calls member
    obtain ⟨node, selects⟩ := TypeSystem.rootField_of_parsed parsed known inside
    refine ⟨root, definition, node, known, declared, handler, selects, ?_⟩
    intro argument input found nonNull
    cases defaulted : input.default with
    | none =>
      -- Validation asks for this one, and takes no null for it.
      have required : input.isRequired = true := by simp [InputDef.isRequired, nonNull, defaulted]
      obtain ⟨value, given, notNull⟩ :=
        TypeSystem.given_of_valid (TypeSystem.fieldErrors_of_mem valid inside) named declared
          (Ordered.mem_of_get? found) required
      exact ⟨value, given, fun isNull => absurd isNull notNull⟩
    | some default =>
      -- Validation asks for nothing here. The value is the one that lowering took.
      have inputs : node.values engine.schema operation.bindings =
          withDefaults definition.arguments (givenArguments operation.bindings node.arguments) := by
        rw [FieldNode.values, FieldNode.inputs, selects.parent, ← selects.name,
          TypeSystem.selectable?_of_field declared named]
        rfl
      rw [selects.arguments, inputs, get?_withDefaults found defaulted]
      refine ⟨_, rfl, fun isNull => ⟨default, rfl, ?_⟩⟩
      cases given : Ordered.get? (givenArguments operation.bindings node.arguments) argument with
      | none =>
        rw [given] at isNull
        exact .defaulted given isNull
      | some value =>
        rw [given] at isNull
        obtain rfl : value = .null := isNull
        obtain ⟨literal, written, read⟩ := mem_of_givenArguments given
        exact .given literal written read
  · cases member

end Engine

namespace Lift

open Syntax TypeSystem

/-- How many lifts there are, open ones if nothing else is asked for. -/
def schema : TypeSystem where
  query := "Query"
  mutation := none
  subscription := none
  types :=
    [("Query", .object "Query" none
        [("lifts", ⟨"lifts", none, .named "Int",
          [("open", ⟨"open", none, .nonNull (.named "Boolean"), some (.bool true)⟩)]⟩)]),
      ("Int", .scalar "Int" none), ("Boolean", .scalar "Boolean" none)]
  directives := Introspection.directives

def handler : Handler (List (Ordered String Json)) :=
  ⟨none, fun arguments _ state => ⟨.ok (.ofNat 7), state ++ [arguments], []⟩⟩

def engine : Engine (List (Ordered String Json)) :=
  ⟨schema, ⟨MockRules.standard, .standard⟩, Handlers.register [] "Query" "lifts" handler⟩

def world : World (List (Ordered String Json)) := ⟨.ofSeed 0, [], .new⟩

def text : String := "query($o:Boolean=true){lifts(open:$o)}"

def definition : OperationDefinition :=
  ⟨.query, none, [⟨"o", .named "Boolean", some (.bool true), []⟩], [],
    [.field none "lifts" [("open", .variable "o")] [] []]⟩

def document : Document := ⟨[definition], []⟩

def provided : Ordered String Json := [("o", .null)]

def field : FieldSelection := ⟨"lifts", none, [("open", .null)], []⟩

def operation : Operation := ⟨.query, none, [field], provided⟩

theorem parsed : schema.parseOperation text none (some provided) = .ok operation := by
  have read : Document.parse? text = some document := rfl
  have sound : schema.documentSound document = true := documentSound_of_leaf rfl rfl rfl rfl rfl
  have lowered : schema.lowerOperation document definition provided = operation :=
    lowerOperation_of_leaf rfl rfl rfl rfl
  rw [← lowered]
  exact parseOperation_of_sound read sound rfl rfl

theorem calls_operation : engine.calls operation world = [⟨field, handler⟩] := rfl

theorem execute_passes_arguments_null :
    schema.parseOperation text none (some provided) = .ok operation ∧
      ⟨field, handler⟩ ∈ engine.calls operation world ∧
      ∃ node, RootField schema text operation "Query" field node ∧
        NullArgument provided node.arguments "open" (.bool true) := by
  have member : ⟨field, handler⟩ ∈ engine.calls operation world := by
    rw [calls_operation]
    exact List.mem_cons_self
  obtain ⟨-, passed⟩ :=
    engine.execute_passes_arguments text none (some provided) operation world parsed
  obtain ⟨root, definition, node, known, declared, -, selects, arguments⟩ := passed _ member
  obtain rfl : "Query" = root := Option.some.inj known
  obtain rfl := Except.ok.inj declared
  obtain ⟨value, found, why⟩ := arguments "open" _ rfl rfl
  obtain ⟨default, same, null⟩ := why (Option.some.inj found).symm
  obtain rfl := Option.some.inj same
  exact ⟨parsed, member, node, selects, null⟩

/-- Where an argument has a default, a handler gets the `null` of a variable for it, though it may
not be null. -/
theorem null_passed_over_default :
    schema.parseOperation text none (some provided) = .ok operation ∧
      (∃ definition input, schema.field "Query" "lifts" = .ok definition ∧
        Ordered.get? definition.arguments "open" = some input ∧ input.type.isNonNull = true) ∧
      engine.calls operation world = [⟨field, handler⟩] ∧
      Ordered.get? field.arguments "open" = some .null ∧
      (engine.execute operation world).2.state = [[("open", .null)]] :=
  ⟨parsed, ⟨_, _, rfl, rfl, rfl⟩, rfl, rfl, rfl⟩

end Lift

end MockGraph
