import MockGraph.Proofs.Server.Broadcast
import MockGraph.Proofs.SkiDay.Days
set_option autoImplicit false

namespace MockGraph

namespace Server

variable {σ : Type} {server : Server σ}

theorem collect_sublist {α : Type} {less more : Server σ → Action → List α}
    (within : ∀ server action, (less server action).Sublist (more server action))
    (actions : List Action) :
    (server.collect less actions).Sublist (server.collect more actions) := by
  induction actions generalizing server with
  | nil => exact .slnil
  | cons action rest ih => exact (within server action).append ih

theorem heard_sublist (registration : Registration) (server : Server σ) (action : Action) :
    (heard registration server action).Sublist (server.taken action) := by
  unfold heard
  split
  · exact List.filter_sublist
  · exact List.nil_sublist _

end Server

namespace SkiDay

open Server

/-- The days that are stored with a call of a handler. -/
def added (exchange : Exchange Store) : List Day := Store.stored exchange.met exchange.reply.state

/-- What the handlers of a run publish are the days that they store. -/
theorem published_eq {exchanges : List (Exchange Store)}
    (each : ∀ exchange ∈ exchanges, Store.Publishes exchange.met exchange.reply) :
    Exchange.published exchanges = (exchanges.flatMap added).map Store.newDay := by
  rw [Exchange.published, List.map_flatMap]
  apply List.flatMap_congr
  intro exchange member
  exact (each exchange member).events

variable {engine : Engine Store} {server : Server Store} {actions : List Action}

section Run

variable (wired : Wired engine server) (serves : Serves engine)
  (isWired : ∀ action ∈ actions, action.isWired = true)
include wired serves isWired

/-- Whenever a handler is called, the identifiers of days are numbers that were counted. -/
theorem numbered_run (numbered : server.world.state.Numbered) :
    ∀ exchange ∈ server.collect Server.exchanges actions, exchange.met.Numbered := by
  apply wired.kept_run _ serves.prompt numbered isWired
  intro root field handler found arguments context met kept
  rw [serves.handlers] at found
  exact (Store.publishes_handlers kept found arguments context).numbered

/-- A run calls no handlers but those of mutations, and each replies to the state that it meets. -/
theorem found_run {exchange : Exchange Store}
    (member : exchange ∈ server.collect Server.exchanges actions) :
    Handlers.find? Store.handlers "Mutation" exchange.call.field.name = some exchange.call.handler ∧
      ∃ context, exchange.reply =
        exchange.call.handler.answer exchange.call.field.arguments context exchange.met := by
  obtain ⟨front, action, back, rfl, inside⟩ := mem_collect member
  have reached :=
    wired.run serves.prompt fun other before => isWired other (List.mem_append_left _ before)
  obtain ⟨operation, root, known, found, replied⟩ := exchange_of_mem inside
  rw [reached.engine, serves.schema] at known
  rw [reached.engine, serves.handlers] at found
  obtain ⟨-, rfl⟩ := root_of_handlers known found
  exact ⟨found, operation.context, replied⟩

/-- What was taken of the channel and what is left there are the days that were stored, in order. -/
theorem taken_run (numbered : server.world.state.Numbered)
    (empty : server.world.channel.queue = []) :
    server.collect taken actions ++ (server.run actions).world.channel.queue =
      ((server.collect Server.exchanges actions).flatMap added).map Store.newDay := by
  rw [wired.flows_run serves.prompt isWired, empty, List.nil_append]
  apply published_eq
  intro exchange member
  obtain ⟨found, context, replied⟩ := found_run wired serves isWired member
  rw [replied]
  exact Store.publishes_handlers (numbered_run wired serves isWired numbered exchange member) found
    _ context

end Run

/-- However calls, clients and the steps of the pump come one after the other, every day that is
stored is announced once. Calls of `addDay` that are accepted store a day each, and no other call of
a handler stores one. What is taken of the channel are the stored days, in order, and the channel
holds those that are still to come. A registration on `newDay` gets one message for each day that is
taken while the registration is there and its connection is open, in order, with what its operation
makes of that day, and these messages are queued for the client. -/
theorem run_announces_days (config : Config) (readFile : String → Option String) (built : Built)
    (bundled : config.schemaFile = none) (isBuilt : config.build readFile = .ok built)
    (random : Random) (drainTimeout : Nat) (actions : List Action)
    (isWired : ∀ action ∈ actions, action.isWired = true) :
    let first := Server.start built.engine ⟨random, Store.empty, .new⟩ drainTimeout
    let exchanges := first.collect Server.exchanges actions
    let days := exchanges.flatMap added
    (∀ exchange ∈ exchanges, Settles exchange) ∧
    first.collect taken actions ++ (first.run actions).world.channel.queue = days.map Store.newDay ∧
    (∀ front back registration, actions = front ++ back →
      registration ∈ (first.run front).registry.registered → registration.rootField = "newDay" →
      ∃ told : List Day, told.Sublist days ∧
        first.collect (heard registration) actions = told.map Store.newDay ∧
        List.Forall₂ (fun day message => registration.Tells built.engine (Store.newDay day) message)
          told (first.collect (received registration) actions)) ∧
    ∀ front back connection, actions = front ++ .pump :: back →
      let server := first.run front
      (server.act .pump).outbox connection = server.outbox connection ++
        ((server.deliveries .pump).filter (·.sink = sinkOf connection)).map (·.message) := by
  intro first exchanges days
  have serves := Config.serves_of_bundled bundled isBuilt
  have wired : Wired built.engine first := .start built.engine rfl drainTimeout
  have announced := taken_run wired serves isWired Store.numbered_empty rfl
  refine ⟨?_, announced, ?_, ?_⟩
  · intro exchange member
    obtain ⟨found, context, replied⟩ := found_run wired serves isWired member
    exact settles_of_found (numbered_run wired serves isWired Store.numbered_empty exchange member)
      found replied
  · intro front back registration split member field
    have inOrder :
        (first.collect (heard registration) actions).Sublist (days.map Store.newDay) := by
      rw [← announced]
      exact (collect_sublist (heard_sublist registration) actions).trans
        (List.sublist_append_left _ _)
    obtain ⟨told, within, heard⟩ := List.sublist_map_iff.mp inOrder
    have received :=
      wired.received_run serves.prompt isWired fun before after parts other there same =>
        wired.swept.sole split member parts there same
    rw [heard, List.forall₂_map_left_iff] at received
    exact ⟨told, within, heard, received⟩
  · intro front back connection split
    have reached := wired.run serves.prompt fun action before =>
      isWired action (by rw [split]; exact List.mem_append_left _ before)
    exact reached.outbox_pump connection

end SkiDay

namespace Alpine

open Server SkiDay Syntax TypeSystem

def rulesFile : RulesFile :=
  ⟨none, none,
    [("Date", .constant (.string "1/2/2025")), ("String", .constant (.string "Cool date"))],
    [("Query.allDays", .listSize 1 15)]⟩

def mocks : Mocks where
  rules := { MockRules.standard with
    types := [("Date", .constant (.string "1/2/2025")), ("String", .constant (.string "Cool date"))]
    fields := [(("Query", "allDays"), .listSize (.between 1 15))] }
  listSize := .standard

/-- The server that is built if nothing is configured. -/
def built : Built := ⟨⟨SkiDay.schema, mocks, Store.handlers⟩, none⟩

/-- Where no mock rules are configured, they are those of ski days. -/
theorem loadMocks_bundled {config : Config} (readFile : String → Option String)
    (unset : config.mocksFile = none) : config.loadMocks readFile = .ok (mocks, config.seed) := by
  have found : Config.load readFile config.mocksFile mocksText = .ok mocksText := by
    rw [unset]
    rfl
  have read : RulesFile.parse? mocksText = some rulesFile := by decide +kernel
  have rules : rulesFile.rules = .ok mocks.rules := rfl
  rw [Config.loadMocks_of_text found read rules]
  cases config.seed <;> rfl

theorem build_standard : Config.standard.build (fun _ => none) = .ok built := by
  have found : Config.load (fun _ => none) Config.standard.schemaFile schemaText = .ok schemaText :=
    rfl
  have fits : mocks.rules.check SkiDay.schema = .ok () := rfl
  rw [Config.build_of_loaded (Config.loadSchema_of_text found parse_schemaText),
    loadMocks_bundled _ rfl]
  dsimp only
  rw [fits]
  rfl

def watch : Request := ⟨"subscription{newDay{id}}", none, none⟩

def watchDefinition : OperationDefinition :=
  ⟨.subscription, none, [], [], [.field none "newDay" [] [] [.field none "id" [] [] []]]⟩

def watching : Operation :=
  ⟨.subscription, none, [⟨"newDay", none, [], [⟨"id", none, [], []⟩]⟩], []⟩

theorem parsed_watch :
    SkiDay.schema.parseOperation watch.query watch.operationName watch.bindings = .ok watching := by
  have read : Document.parse? watch.query = some ⟨[watchDefinition], []⟩ := rfl
  have selected : SkiDay.schema.selectionSound [] [] "Subscription" watchDefinition.selection =
      true := by
    simp [watchDefinition, TypeSystem.selectionSound]
    decide
  have merged : mergeable [] 3 watchDefinition.selection = true := by
    simp [watchDefinition, mergeable, levelFields, distinctKeys]
  have sound := documentSound_of_single rfl selected merged rfl
  have lowered : SkiDay.schema.lowerOperation ⟨[watchDefinition], []⟩ watchDefinition [] =
      watching := by
    simp [watchDefinition, lowerOperation, lowerSelection]
    rfl
  rw [← lowered]
  exact parseOperation_of_sound read sound rfl rfl

def input : Json := .object [("date", .string "1/2/2025"), ("mountain", .string "Alta")]

def add : Request :=
  ⟨"mutation($day:AddDayInput!){addDay(input:$day){id}}", some [("day", input)], none⟩

def addDefinition : OperationDefinition :=
  ⟨.mutation, none, [⟨"day", .nonNull (.named "AddDayInput"), none, []⟩], [],
    [.field none "addDay" [("input", .variable "day")] [] [.field none "id" [] [] []]]⟩

def adding : Operation :=
  ⟨.mutation, none, [⟨"addDay", none, [("input", input)], [⟨"id", none, [], []⟩]⟩],
    [("day", input)]⟩

theorem parsed_add :
    SkiDay.schema.parseOperation add.query add.operationName add.bindings = .ok adding := by
  have read : Document.parse? add.query = some ⟨[addDefinition], []⟩ := rfl
  have selected :
      SkiDay.schema.selectionSound addDefinition.variableDefs [] "Mutation"
        addDefinition.selection = true := by
    simp [addDefinition, TypeSystem.selectionSound]
    decide
  have merged : mergeable [] 3 addDefinition.selection = true := by
    simp [addDefinition, mergeable, levelFields, distinctKeys]
  have sound := documentSound_of_single rfl selected merged rfl
  have lowered : SkiDay.schema.lowerOperation ⟨[addDefinition], []⟩ addDefinition [("day", input)] =
      adding := by
    simp [addDefinition, lowerOperation, lowerSelection]
    rfl
  rw [← lowered]
  exact parseOperation_of_sound read sound rfl rfl

def first : Server Store := .start built.engine ⟨.ofSeed 0, .empty, .new⟩ 1000

def opened : Server Store := first.act .openConnection

def begun : Server Store := (opened.spawn (.register ⟨1⟩ "days" watching)).2

def watched : Server Store := begun.act (.advance ⟨0⟩)

/-- Someone else asks for a day to be added. -/
def asked : Server Store := (watched.spawn (.request (.queued adding))).2

def stored : Server Store := asked.act (.advance ⟨1⟩)

def front : List Action := [.openConnection, .handle ⟨1⟩ (.start "days" watch), .advance ⟨0⟩]

def actions : List Action := front ++ [.submit add, .advance ⟨1⟩, .pump]

theorem act_watch : opened.act (.handle ⟨1⟩ (.start "days" watch)) = begun := by
  have isOpen : opened.phase? ⟨1⟩ = some .open := rfl
  have engine : opened.engine = built.engine := rfl
  have served : built.engine.schema = SkiDay.schema := rfl
  have accepted :
      opened.engine.schema.parseOperation watch.query watch.operationName
        watch.bindings = .ok watching := by
    rw [engine, served]
    exact parsed_watch
  rw [handle_start_of_parsed isOpen accepted]
  rfl

theorem act_add : watched.act (.submit add) = asked := by
  have calm : watched.draining = false := rfl
  have engine : watched.engine = built.engine := rfl
  have served : built.engine.schema = SkiDay.schema := rfl
  have accepted : watched.engine.schema.parseOperation add.query add.operationName add.bindings =
      .ok adding := by
    rw [engine, served]
    exact parsed_add
  rw [act, submit, calm, accepted]
  rfl

theorem run_front : first.run front = watched := by
  have opens : first.act .openConnection = opened := rfl
  rw [front, run_cons, opens, run_cons, act_watch]
  rfl

theorem collect_actions {α : Type} (each : Server Store → Action → List α) :
    first.collect each actions =
      each first .openConnection ++
        (each opened (.handle ⟨1⟩ (.start "days" watch)) ++
          (each begun (.advance ⟨0⟩) ++
            (each watched (.submit add) ++
              (each asked (.advance ⟨1⟩) ++ (each stored .pump ++ []))))) := by
  have opens : first.act .openConnection = opened := rfl
  have registers : begun.act (.advance ⟨0⟩) = watched := rfl
  have runs : asked.act (.advance ⟨1⟩) = stored := rfl
  change first.collect each [_, _, _, _, _, _] = _
  rw [collect, collect, collect, collect, collect, collect, collect, opens, act_watch, registers,
    act_add, runs]

def day : Day := ⟨"1", "1/2/2025", "Alta", none⟩

def registration : Registration := ⟨⟨0⟩, "days", ⟨1⟩, "newDay", watching, ⟨1⟩⟩

/-- A client watches, a day is added, and the client is told of it. -/
theorem run_announces_days_alta :
    Config.standard.build (fun _ => none) = .ok built ∧
      (∀ action ∈ actions, action.isWired = true) ∧
      registration ∈ (first.run front).registry.registered ∧
      (first.collect Server.exchanges actions).flatMap added = [day] ∧
      first.collect (received registration) actions =
        [.next "days" (.executed (.object [("newDay", .object [("id", .string "1")])]) [])] ∧
      List.Forall₂ (fun day message => registration.Tells built.engine (Store.newDay day) message)
        [day] (first.collect (received registration) actions) := by
  have isWired : ∀ action ∈ actions, action.isWired = true := by decide
  have member : registration ∈ (first.run front).registry.registered := by
    rw [run_front]
    exact List.mem_singleton.mpr rfl
  have days : (first.collect Server.exchanges actions).flatMap added = [day] := by
    rw [collect_actions]
    rfl
  have hears : first.collect (heard registration) actions = [Store.newDay day] := by
    rw [collect_actions]
    rfl
  have queued : first.collect (received registration) actions =
      [.next "days" (.executed (.object [("newDay", .object [("id", .string "1")])]) [])] := by
    rw [collect_actions]
    rfl
  obtain ⟨-, -, tells, -⟩ :=
    run_announces_days Config.standard (fun _ => none) built rfl build_standard (.ofSeed 0) 1000
      actions isWired
  obtain ⟨told, within, heard, received⟩ := tells front _ registration rfl member rfl
  have within : told.Sublist [day] := by
    rw [← days]
    exact within
  have once : told.map Store.newDay = [Store.newDay day] := heard.symm.trans hears
  have only : told = [day] := within.eq_of_length (by simpa using congrArg List.length once)
  rw [only] at received
  exact ⟨build_standard, isWired, member, days, queued, received⟩

end Alpine

end MockGraph
