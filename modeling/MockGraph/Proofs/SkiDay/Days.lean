import MockGraph.Proofs.Execution.Replies
import MockGraph.Proofs.Json.Distinct
import MockGraph.Server.Build
set_option autoImplicit false

namespace MockGraph.SkiDay

open Syntax

section Schema

private def declares (name : String) (type : TypeRef) : String × FieldDef :=
  (name, ⟨name, none, type, []⟩)

private def takes (name : String) (type : TypeRef) : String × InputDef :=
  (name, ⟨name, none, type, none⟩)

private def required (name : String) : TypeRef := .nonNull (.named name)

/-- The schema of ski days. -/
def schema : TypeSystem where
  query := "Query"
  mutation := some "Mutation"
  subscription := some "Subscription"
  types :=
    [("Int", .scalar "Int" none), ("String", .scalar "String" none),
      ("Boolean", .scalar "Boolean" none), ("ID", .scalar "ID" none), ("Date", .scalar "Date" none),
      ("SkiDay", .object "SkiDay" (some "An object that describes the characteristics of a ski day")
        [("id", ⟨"id", some "A ski day's unique identifier", required "ID", []⟩),
          declares "date" (required "Date"), declares "mountain" (required "String"),
          declares "conditions" (.named "Conditions")]),
      ("Conditions", .enum "Conditions" none ["POWDER", "HEAVY", "ICE", "THIN"]),
      ("Query", .object "Query" none [declares "totalDays" (required "Int"),
        declares "allDays" (.nonNull (.list (required "SkiDay")))]),
      ("AddDayInput", .input "AddDayInput" none [takes "date" (required "Date"),
        takes "mountain" (required "String"), takes "conditions" (.named "Conditions")]),
      ("RemoveDayPayload", .object "RemoveDayPayload" none [declares "day" (.named "SkiDay"),
        declares "remove" (.named "Boolean"), declares "totalBefore" (.named "Int"),
        declares "totalAfter" (.named "Int")]),
      ("Mutation", .object "Mutation" none
        [("addDay", ⟨"addDay", none, required "SkiDay", [takes "input" (required "AddDayInput")]⟩),
          ("removeDay",
            ⟨"removeDay", none, required "RemoveDayPayload", [takes "id" (required "ID")]⟩)]),
      ("Subscription", .object "Subscription" none [declares "newDay" (required "SkiDay")])]
  directives := Introspection.directives

end Schema

theorem tokens?_intercalate (lines : List String) : tokens? (String.intercalate "\n" lines) =
    Token.readAll? ((['\n'].intercalate (lines.map String.toList)).length + 1)
      (['\n'].intercalate (lines.map String.toList)) := by
  rw [tokens?, String.toList_intercalate]
  rfl

theorem parse_schemaText : TypeSystem.parse schemaText = .ok schema := by
  have read : tokens? schemaText = _ := tokens?_intercalate _
  have parsed : (TypeSystem.parse schemaText).toOption = some schema := by
    -- The lines are put together as characters, since the text itself takes long to be evaluated.
    rw [TypeSystem.parse, parseSchema?, read]
    decide +kernel
  cases result : TypeSystem.parse schemaText with
  | error error =>
    rw [result] at parsed
    cases parsed
  | ok found =>
    rw [result] at parsed
    rw [Option.some.inj parsed]

namespace Store

/-- The days that are stored afterwards and were not before, by their identifiers. -/
def stored (before after : Store) : List Day :=
  (after.days.filter fun entry => !Ordered.contains before.days entry.1).map (·.2)

/-- Identifiers are numbers that were counted already. -/
def Numbered (store : Store) : Prop :=
  ∀ id ∈ Ordered.keys store.days, ∃ number < store.nextId, id = toString number

variable {store : Store}

theorem toString_inj {n m : Nat} (same : toString n = toString m) : n = m := by
  rw [Nat.toString_eq_ofList_toDigits, Nat.toString_eq_ofList_toDigits] at same
  exact Number.toDigits_inj (String.ofList_injective same)

theorem Numbered.fresh (numbered : store.Numbered) :
    toString store.nextId ∉ Ordered.keys store.days := by
  intro member
  obtain ⟨number, less, same⟩ := numbered _ member
  have equal := toString_inj same
  omega

theorem numbered_empty : empty.Numbered := nofun

theorem Numbered.add (numbered : store.Numbered) (day : NewDay) : (store.add day).2.Numbered := by
  intro id member
  change id ∈ Ordered.keys (Ordered.insert store.days _ _) at member
  rw [Ordered.keys_insert, if_neg numbered.fresh, List.mem_append, List.mem_singleton] at member
  change ∃ number < store.nextId + 1, id = toString number
  rcases member with old | rfl
  · obtain ⟨number, less, same⟩ := numbered id old
    exact ⟨number, by omega, same⟩
  · exact ⟨store.nextId, by omega, rfl⟩

theorem Numbered.remove (numbered : store.Numbered) (id : String) :
    (store.remove id).2.Numbered := by
  intro other member
  apply numbered other
  change other ∈ Ordered.keys (Ordered.erase store.days id) at member
  rw [Ordered.keys_erase] at member
  exact (List.mem_filter.mp member).1

theorem stored_of_subset {before after : Store} (old : ∀ entry ∈ after.days, entry ∈ before.days) :
    stored before after = [] := by
  rw [stored, List.map_eq_nil_iff, List.filter_eq_nil_iff]
  intro entry member
  have known : entry.1 ∈ Ordered.keys before.days := List.mem_map_of_mem (old entry member)
  simp [Ordered.contains_iff_mem_keys.mpr known]

theorem stored_self (store : Store) : stored store store = [] :=
  stored_of_subset fun _ member => member

theorem stored_remove (store : Store) (id : String) : stored store (store.remove id).2 = [] :=
  stored_of_subset fun _ member => (List.mem_filter.mp member).1

theorem stored_add (numbered : store.Numbered) (day : NewDay) :
    stored store (store.add day).2 = [(store.add day).1] := by
  have fresh := numbered.fresh
  have days : (store.add day).2.days = store.days ++ [(toString store.nextId, (store.add day).1)] :=
    Ordered.insert_of_notMem _ _ _ fresh
  have before := stored_self store
  rw [stored, List.map_eq_nil_iff] at before
  have absent : Ordered.contains store.days (toString store.nextId) = false := by
    rw [Ordered.contains, (Ordered.get?_eq_none_iff _ _).mpr fresh]
    rfl
  rw [stored, days, List.filter_append, before, List.nil_append, List.filter_cons, absent]
  rfl

/-- What is found to answer a field is `addDay` or `removeDay` of mutations, and waits at no
gate. -/
theorem handlers_cases {root field : String} {handler : Handler Store}
    (found : Handlers.find? handlers root field = some handler) : handler.gate = none ∧
      ((Handlers.key root field = "Mutation.addDay" ∧
          handler.answer = fun arguments _ store => answerAdd arguments store) ∨
        (Handlers.key root field = "Mutation.removeDay" ∧
          handler.answer = fun arguments _ store => answerRemove arguments store)) := by
  unfold Handlers.find? handlers Handlers.register at found
  rw [Ordered.get?_insert, Ordered.get?_insert] at found
  split at found
  · rename_i same
    obtain rfl := Option.some.inj found
    exact ⟨rfl, Or.inr ⟨same.symm, rfl⟩⟩
  · split at found
    · rename_i same
      obtain rfl := Option.some.inj found
      exact ⟨rfl, Or.inl ⟨same.symm, rfl⟩⟩
    · cases found

/-- What is stored with a reply is what it publishes. -/
structure Publishes (met : Store) (reply : Reply Store) : Prop where
  numbered : reply.state.Numbered
  events : reply.events = (stored met reply.state).map newDay

theorem publishes_add (numbered : store.Numbered) (arguments : Ordered String Json) :
    Publishes store (answerAdd arguments store) := by
  unfold answerAdd
  split
  · exact ⟨numbered, by rw [stored_self]; rfl⟩
  · rename_i day _
    exact ⟨numbered.add day, by rw [stored_add numbered]; rfl⟩

theorem publishes_remove (numbered : store.Numbered) (arguments : Ordered String Json) :
    Publishes store (answerRemove arguments store) := by
  unfold answerRemove
  split
  · exact ⟨numbered, by rw [stored_self]; rfl⟩
  · rename_i id _
    exact ⟨numbered.remove id, by rw [stored_remove]; rfl⟩

/-- Whatever handler is asked, it publishes what it stores. -/
theorem publishes_handlers (numbered : store.Numbered) {root field : String}
    {handler : Handler Store} (found : Handlers.find? handlers root field = some handler)
    (arguments : Ordered String Json) (context : Context) :
    Publishes store (handler.answer arguments context store) := by
  rcases (handlers_cases found).2 with ⟨-, answer⟩ | ⟨-, answer⟩
  · rw [answer]
    exact publishes_add numbered arguments
  · rw [answer]
    exact publishes_remove numbered arguments

end Store

theorem root_of_handlers {kind : OperationKind} {root field : String} {handler : Handler Store}
    (known : schema.root? kind = some root)
    (found : Handlers.find? Store.handlers root field = some handler) :
    kind = .mutation ∧ root = "Mutation" := by
  have start : (Handlers.key root field).toList.head? = some 'M' := by
    rcases (Store.handlers_cases found).2 with ⟨key, -⟩ | ⟨key, -⟩ <;> rw [key] <;> rfl
  cases kind with
  | mutation =>
    cases known
    exact ⟨rfl, rfl⟩
  | query | subscription =>
    cases known
    simp [Handlers.key, schema] at start

theorem field_of_handlers {field : String} {handler : Handler Store}
    (found : Handlers.find? Store.handlers "Mutation" field = some handler) :
    (field = "addDay" ∧ handler.answer = fun arguments _ store => Store.answerAdd arguments store) ∨
      (field = "removeDay" ∧
        handler.answer = fun arguments _ store => Store.answerRemove arguments store) := by
  have named : ∀ name, Handlers.key "Mutation" field = "Mutation" ++ "." ++ name → field = name :=
    fun name same => (String.append_right_inj _).mp same
  rcases (Store.handlers_cases found).2 with ⟨key, answer⟩ | ⟨key, answer⟩
  · exact Or.inl ⟨named "addDay" key, answer⟩
  · exact Or.inr ⟨named "removeDay" key, answer⟩

/-- A handler that an operation calls is that of a field of mutations. -/
theorem found_of_exchange {mocks : Mocks} {operation : Operation} {world : World Store}
    {exchange : Exchange Store}
    (member : exchange ∈
      (⟨schema, mocks, Store.handlers⟩ : Engine Store).exchanges operation world) :
    schema.root? operation.kind = some "Mutation" ∧ exchange.call.field ∈ operation.selection ∧
      schema.selectionErrors "Mutation" operation.selection = [] ∧
      Handlers.find? Store.handlers "Mutation" exchange.call.field.name =
        some exchange.call.handler ∧
      exchange.reply =
        exchange.call.handler.answer exchange.call.field.arguments operation.context
          exchange.met := by
  obtain ⟨root, known, valid, inside, -, found, replied⟩ := Engine.exchange_cases member
  obtain ⟨-, rfl⟩ := root_of_handlers known found
  exact ⟨known, inside, valid, found, replied⟩

/-- What a call of a handler does. -/
inductive Settles (exchange : Exchange Store) : Prop
  /-- A day is stored under an identifier of its own, and it is the answer. -/
  | adds (input : NewDay) (day : Day) : exchange.call.field.name = "addDay" →
      Argument.require NewDay.read exchange.call.field.arguments "input" = .ok input →
      day = ⟨toString exchange.met.nextId, input.date, input.mountain, input.conditions⟩ →
      day.id ∉ Ordered.keys exchange.met.days → exchange.reply.result = .ok day.toJson →
      Store.stored exchange.met exchange.reply.state = [day] → Settles exchange
  /-- What is to be added is refused, and the store stays as it is. -/
  | refuses (error : ResolutionError) : exchange.call.field.name = "addDay" →
      Argument.require NewDay.read exchange.call.field.arguments "input" = .error error →
      exchange.reply.result = .error error → exchange.reply.state = exchange.met →
      Store.stored exchange.met exchange.reply.state = [] → Settles exchange
  /-- A removal stores nothing. -/
  | removes : exchange.call.field.name = "removeDay" →
      Store.stored exchange.met exchange.reply.state = [] → Settles exchange

/-- Every call of a handler adds a day, is refused, or is a removal. -/
theorem settles_of_found {exchange : Exchange Store} (numbered : exchange.met.Numbered)
    {context : Context}
    (found : Handlers.find? Store.handlers "Mutation" exchange.call.field.name =
      some exchange.call.handler)
    (replied : exchange.reply =
      exchange.call.handler.answer exchange.call.field.arguments context exchange.met) :
    Settles exchange := by
  rcases field_of_handlers found with ⟨name, answer⟩ | ⟨name, answer⟩
  · rw [answer] at replied
    change exchange.reply = Store.answerAdd exchange.call.field.arguments exchange.met at replied
    unfold Store.answerAdd at replied
    cases read : Argument.require NewDay.read exchange.call.field.arguments "input" with
    | error error =>
      rw [read] at replied
      apply Settles.refuses error name read <;> rw [replied]
      exact Store.stored_self _
    | ok input =>
      rw [read] at replied
      apply Settles.adds input (exchange.met.add input).1 name read rfl numbered.fresh <;>
        rw [replied]
      exact Store.stored_add numbered input
  · rw [answer] at replied
    change exchange.reply = Store.answerRemove exchange.call.field.arguments exchange.met at replied
    apply Settles.removes name
    rw [replied]
    unfold Store.answerRemove
    split
    · exact Store.stored_self _
    · exact Store.stored_remove _ _

/-- An engine for the schema of ski days, with the handlers of their store. -/
structure Serves (engine : Engine Store) : Prop where
  schema : engine.schema = schema
  handlers : engine.handlers = Store.handlers

/-- The handlers of ski days wait at no gate, and answer no subscription. -/
theorem Serves.prompt {engine : Engine Store} (serves : Serves engine) : engine.Prompt := by
  refine ⟨?_, ?_⟩
  · intro root field handler found
    rw [serves.handlers] at found
    exact (Store.handlers_cases found).1
  · intro root field known
    rw [serves.schema] at known
    rw [serves.handlers, Option.eq_none_iff_forall_ne_some]
    intro handler found
    cases (root_of_handlers known found).1

end MockGraph.SkiDay

namespace MockGraph.Server.Config

open SkiDay

variable {config : Config} {readFile : String → Option String} {text : String}

theorem loadSchema_of_text {schema : TypeSystem}
    (found : load readFile config.schemaFile schemaText = .ok text)
    (parsed : TypeSystem.parse text = .ok schema) : config.loadSchema readFile = .ok schema := by
  rw [loadSchema, found]
  refine (pure_bind text _).trans ?_
  rw [parsed]

theorem loadMocks_of_text {file : RulesFile} {rules : MockRules}
    (found : load readFile config.mocksFile mocksText = .ok text)
    (read : RulesFile.parse? text = some file) (accepted : file.rules = .ok rules) :
    config.loadMocks readFile =
      .ok (⟨rules, file.listSize⟩, config.seed.orElse fun _ => file.seed) := by
  rw [loadMocks, found]
  refine (pure_bind text _).trans ?_
  rw [read]
  dsimp only
  rw [accepted]

/-- With its schema loaded, a server is built if the mock rules can be loaded and fit. -/
theorem build_of_loaded {schema : TypeSystem} (loaded : config.loadSchema readFile = .ok schema) :
    config.build readFile = match config.loadMocks readFile with
      | .error error => .error error
      | .ok (mocks, seed) => match mocks.rules.check schema with
        | .error error => .error (.schema error)
        | .ok () =>
          .ok ⟨⟨schema, mocks, if config.schemaFile.isNone then Store.handlers else []⟩, seed⟩ := by
  rw [build, loaded]
  change (config.loadMocks readFile >>= _) = _
  cases config.loadMocks readFile with
  | error error => rfl
  | ok found => rfl

/-- Without a schema of its own, a server serves the one of ski days with the handlers of their
store. -/
theorem serves_of_bundled {built : Built} (bundled : config.schemaFile = none)
    (isBuilt : config.build readFile = .ok built) : Serves built.engine := by
  have loaded : config.loadSchema readFile = .ok schema :=
    loadSchema_of_text (by rw [bundled]; rfl) parse_schemaText
  rw [build_of_loaded loaded] at isBuilt
  split at isBuilt
  · cases isBuilt
  · split at isBuilt
    · cases isBuilt
    · cases isBuilt
      rw [bundled]
      exact ⟨rfl, rfl⟩

end MockGraph.Server.Config
