import Mathlib.Data.List.Basic
import MockGraph.Proofs.Subscription.Index
import MockGraph.Server.Basic
set_option autoImplicit false

namespace MockGraph

/-- A call that takes its turn at the registry. A publish comes with what each registration meets,
since sinks and the world may change between two evaluations. -/
inductive Call (σ : Type) where
  | register (connection : ConnectionId) (sink : SinkId) (operationId : String)
    (operation : Operation)
  | unregister (id : RegistrationId)
  | unregisterOperation (connection : ConnectionId) (operationId : String)
  | purge (connection : ConnectionId)
  | publish (event : Event) (turn : RegistrationId → Turn σ)

namespace Call

variable {σ : Type}

/-- The call closes the registration, if that is open. -/
def removes (registration : Registration) : Call σ → Bool
  | register .. | publish .. => false
  | unregister id => registration.id = id
  | unregisterOperation connection operationId =>
    registration.connection = connection ∧ registration.operationId = operationId
  | purge connection => registration.connection = connection

/-- What the call sends to an open registration. -/
def messageFor (registration : Registration) : Call σ → Option ServerMessage
  | publish event turn =>
    let met := turn registration.id
    if registration.rootField = event.field ∧ met.sink = .accepting then
      some (.next registration.operationId
        (responseOfRun (met.engine.executeEvent registration.operation event.payload met.world).1))
    else none
  | _ => none

end Call

namespace Registry

variable {σ : Type}

/-- The deliveries of an event, if each registration meets what it does at its turn. -/
def deliveries (registry : Registry) (event : Event) (turn : RegistrationId → Turn σ) :
    List Delivery :=
  registry.registered.filterMap fun registration =>
    (registration.offer event (turn registration.id)).1

/-- What calls did: the messages that sinks took, the registrations that were opened, and the
registry after all. -/
structure Outcome where
  delivered : List Delivery
  opened : List Registration
  registry : Registry

def act (registry : Registry) : Call σ → Outcome
  | .register connection sink operationId operation =>
    let (result, registry) := registry.register connection sink operationId operation
    ⟨[], result.toOption.toList, registry⟩
  | .unregister id => ⟨[], [], (registry.unregister id).2⟩
  | .unregisterOperation connection operationId =>
    ⟨[], [], (registry.unregisterOperation connection operationId).2⟩
  | .purge connection => ⟨[], [], (registry.purge connection).2⟩
  | .publish event turn => ⟨registry.deliveries event turn, [], registry⟩

/-- Calls in the order in which they take their turns. -/
def run (registry : Registry) : List (Call σ) → Outcome
  | [] => ⟨[], [], registry⟩
  | call :: rest =>
    let first := registry.act call
    let others := first.registry.run rest
    ⟨first.delivered ++ others.delivered, first.opened ++ others.opened, others.registry⟩

theorem run_append (registry : Registry) (front back : List (Call σ)) :
    registry.run (front ++ back) =
      ⟨(registry.run front).delivered ++ ((registry.run front).registry.run back).delivered,
        (registry.run front).opened ++ ((registry.run front).registry.run back).opened,
        ((registry.run front).registry.run back).registry⟩ := by
  induction front generalizing registry with
  | nil => rfl
  | cons call rest ih => simp only [List.cons_append, run, ih, List.append_assoc]

end Registry

/-- A registration on the field of an event gets it exactly if its sink takes it. -/
theorem Registration.offer_eq {σ : Type} (registration : Registration) (event : Event)
    (turn : RegistrationId → Turn σ) :
    (registration.offer event (turn registration.id)).1 =
      ((Call.publish event turn).messageFor registration).map fun message =>
        ⟨registration.id, registration.sink, message⟩ := by
  unfold offer Call.messageFor
  by_cases field : registration.rootField = event.field
  · cases met : (turn registration.id).sink <;> simp [field, met]
  · simp [field]

namespace Registry

variable {σ : Type} {registry : Registry}

/-- A call closes what it is to close, and puts what it opens at the end under the next number. -/
structure Changes (registry : Registry) (call : Call σ) : Prop where
  consistent : Consistent (registry.act call).registry
  registered : (registry.act call).registry.registered =
      (registry.registered.filter fun registration => !call.removes registration) ++
        (registry.act call).opened
  grows : registry.nextId ≤ (registry.act call).registry.nextId
  numbered : ∀ registration ∈ (registry.act call).opened,
    registration.id.number = registry.nextId ∧ registry.nextId < (registry.act call).registry.nextId

theorem Keeps.changes {next : Registry} {keep : Registration → Bool} {call : Call σ}
    (keeps : Keeps registry next keep) (consistent : Consistent registry)
    (acts : registry.act call = ⟨[], [], next⟩)
    (closes : ∀ registration, keep registration = !call.removes registration) :
    Changes registry call := by
  refine ⟨?_, ?_, ?_, ?_⟩
  · rw [acts]
    exact consistent.keeps keeps
  · rw [acts, List.append_nil, ← funext closes]
    exact keeps.registered
  · rw [acts]
    exact Nat.le_of_eq keeps.nextId.symm
  · rw [acts]
    nofun

theorem Consistent.changes (consistent : Consistent registry) (call : Call σ) :
    Changes registry call := by
  have nothing : ∀ call : Call σ, (∀ registration, call.removes registration = false) →
      (registry.registered.filter fun registration => !call.removes registration) =
        registry.registered := by
    intro call none
    exact List.filter_eq_self.mpr fun registration _ => by rw [none]; rfl
  cases call with
  | register connection sink operationId operation =>
    rcases register_cases registry connection sink operationId operation with
      ⟨error, refused⟩ | ⟨registration, next, opened, opens, -⟩
    · have acts : registry.act (.register connection sink operationId operation : Call σ) =
          ⟨[], [], registry⟩ := by
        rw [act, refused]
        rfl
      refine ⟨?_, ?_, Nat.le_of_eq (by rw [acts]), ?_⟩ <;> rw [acts]
      · exact consistent
      · rw [nothing _ fun _ => rfl, List.append_nil]
      · nofun
    · have acts : registry.act (.register connection sink operationId operation : Call σ) =
          ⟨[], [registration], next⟩ := by
        rw [act, opened]
        rfl
      refine ⟨?_, ?_, ?_, ?_⟩ <;> rw [acts]
      · exact consistent.opens opens
      · rw [nothing _ fun _ => rfl]
        exact consistent.registered_opens opens
      · dsimp only
        rw [opens.nextId]
        omega
      · intro other last
        obtain rfl := List.mem_singleton.mp last
        dsimp only
        rw [opens.nextId, opens.number]
        exact ⟨rfl, Nat.lt_succ_self _⟩
  | unregister id =>
    exact (consistent.keeps_unregister id).changes consistent rfl fun registration =>
      by simp [Call.removes]
  | unregisterOperation connection operationId =>
    exact (consistent.keeps_unregisterOperation connection operationId).changes consistent rfl
      fun registration => by
      simp [Call.removes]
  | purge connection =>
    exact (consistent.keeps_purge connection).changes consistent rfl fun registration =>
      by simp [Call.removes]
  | publish event turn =>
    refine ⟨consistent, ?_, Nat.le_refl _, nofun⟩
    rw [nothing _ fun _ => rfl]
    exact (List.append_nil _).symm

/-- Calls keep the indexes in agreement. Numbers rise, and what is delivered goes to numbers that
were given. -/
structure Extends (registry : Registry) (outcome : Outcome) : Prop where
  consistent : Consistent outcome.registry
  grows : registry.nextId ≤ outcome.registry.nextId
  numbered : ∀ registration ∈ outcome.opened,
    registry.nextId ≤ registration.id.number ∧ registration.id.number < outcome.registry.nextId
  addressed : ∀ delivery ∈ outcome.delivered, delivery.registration.number < outcome.registry.nextId

theorem mem_delivered {call : Call σ} {delivery : Delivery}
    (member : delivery ∈ (registry.act call).delivered) :
    ∃ registration ∈ registry.registered, delivery.registration = registration.id := by
  cases call with
  | publish event turn =>
    obtain ⟨registration, inside, offered⟩ := List.mem_filterMap.mp member
    rw [registration.offer_eq] at offered
    obtain ⟨message, -, rfl⟩ := Option.map_eq_some_iff.mp offered
    exact ⟨registration, inside, rfl⟩
  | register | unregister | unregisterOperation | purge => cases member

theorem Consistent.extended (consistent : Consistent registry) (calls : List (Call σ)) :
    Extends registry (registry.run calls) := by
  induction calls generalizing registry with
  | nil => exact ⟨consistent, Nat.le_refl _, nofun, nofun⟩
  | cons call rest ih =>
    have first := consistent.changes call
    have others := ih first.consistent
    refine ⟨others.consistent, Nat.le_trans first.grows others.grows, ?_, ?_⟩
    · intro registration member
      rcases List.mem_append.mp member with now | later
      · obtain ⟨number, less⟩ := first.numbered registration now
        rw [number]
        exact ⟨Nat.le_refl _, Nat.lt_of_lt_of_le less others.grows⟩
      · obtain ⟨above, less⟩ := others.numbered registration later
        exact ⟨Nat.le_trans first.grows above, less⟩
    · intro delivery member
      rcases List.mem_append.mp member with now | later
      · obtain ⟨registration, inside, same⟩ := mem_delivered now
        rw [same]
        exact Nat.lt_of_lt_of_le (consistent.below registration inside)
          (Nat.le_trans first.grows others.grows)
      · exact others.addressed delivery later

/-- Nothing is delivered to a number that is no longer open, whatever comes. -/
theorem Consistent.silent (consistent : Consistent registry) {id : RegistrationId}
    (given : id.number < registry.nextId)
    (closed : ∀ registration ∈ registry.registered, registration.id ≠ id) (calls : List (Call σ)) :
    (registry.run calls).delivered.filter (·.registration = id) = [] := by
  induction calls generalizing registry with
  | nil => rfl
  | cons call rest ih =>
    have first := consistent.changes call
    have later := ih first.consistent (Nat.lt_of_lt_of_le given first.grows) (by
      rw [first.registered]
      intro registration member
      rcases List.mem_append.mp member with old | new
      · exact closed registration (List.mem_filter.mp old).1
      · rintro rfl
        have number := (first.numbered registration new).1
        omega)
    have now : (registry.act call).delivered.filter (·.registration = id) = [] := by
      rw [List.filter_eq_nil_iff]
      intro delivery member
      obtain ⟨registration, inside, same⟩ := mem_delivered member
      rw [decide_eq_true_eq, same]
      exact closed registration inside
    rw [run, List.filter_append, now, later]
    rfl

/-- Of all that an open registration is offered by a call, its sink takes the message that is for
it. -/
theorem Consistent.filter_delivered (consistent : Consistent registry) {registration : Registration}
    (member : registration ∈ registry.registered) (call : Call σ) :
    (registry.act call).delivered.filter (·.registration = registration.id) =
      (call.messageFor registration).toList.map fun message =>
        ⟨registration.id, registration.sink, message⟩ := by
  cases call with
  | register | unregister | unregisterOperation | purge => rfl
  | publish event turn =>
    obtain ⟨front, back, split⟩ := List.append_of_mem member
    have apart := consistent.increasing
    rw [split, List.pairwise_append] at apart
    obtain ⟨-, behind, before⟩ := apart
    have elsewhere : ∀ others : List Registration, (∀ other ∈ others, other.id ≠ registration.id) →
        (others.filterMap fun other => (other.offer event (turn other.id)).1).filter
          (·.registration = registration.id) = [] := by
      intro others different
      rw [List.filter_eq_nil_iff]
      intro delivery inside
      obtain ⟨other, there, offered⟩ := List.mem_filterMap.mp inside
      rw [other.offer_eq] at offered
      obtain ⟨message, -, rfl⟩ := Option.map_eq_some_iff.mp offered
      simpa using different other there
    have noneBefore := elsewhere front fun other there same => by
      have less := before other there registration (List.mem_cons_self ..)
      rw [same] at less
      omega
    have noneBehind := elsewhere back fun other there same => by
      have less := List.rel_of_pairwise_cons behind there
      rw [same] at less
      omega
    rw [act, deliveries, split, List.filterMap_append, List.filter_append, noneBefore,
      List.filterMap_cons, registration.offer_eq]
    cases (Call.publish event turn).messageFor registration with
    | none => exact noneBehind
    | some message => simpa using noneBehind

/-- An open registration gets a message for each call that has one for it, until a call closes
it. -/
theorem Consistent.received (consistent : Consistent registry) {registration : Registration}
    (member : registration ∈ registry.registered) (calls : List (Call σ)) :
    (registry.run calls).delivered.filter (·.registration = registration.id) =
      ((calls.takeWhile fun call => !call.removes registration).filterMap
          (Call.messageFor registration)).map fun message =>
        ⟨registration.id, registration.sink, message⟩ := by
  induction calls generalizing registry with
  | nil => rfl
  | cons call rest ih =>
    have first := consistent.changes call
    rw [run, List.filter_append, consistent.filter_delivered member call]
    cases closes : call.removes registration with
    | false =>
      have still : registration ∈ (registry.act call).registry.registered := by
        rw [first.registered]
        exact List.mem_append_left _ (List.mem_filter.mpr ⟨member, by rw [closes]; rfl⟩)
      rw [ih first.consistent still, List.takeWhile_cons_of_pos (by rw [closes]; rfl),
        List.filterMap_cons]
      cases call.messageFor registration <;> rfl
    | true =>
      have closed : ∀ other ∈ (registry.act call).registry.registered,
          other.id ≠ registration.id := by
        rw [first.registered]
        intro other there same
        rcases List.mem_append.mp there with old | new
        · obtain ⟨inside, kept⟩ := List.mem_filter.mp old
          rw [consistent.eq_of_id_eq inside member same, closes] at kept
          cases kept
        · have number := (first.numbered other new).1
          have less := consistent.below registration member
          rw [same] at number
          omega
      have given := Nat.lt_of_lt_of_le (consistent.below registration member) first.grows
      rw [first.consistent.silent given closed, List.takeWhile_cons_of_neg (by rw [closes]; nofun),
        List.append_nil]
      cases call with
      | publish => cases closes
      | register | unregister | unregisterOperation | purge => rfl

/-- A publish goes through the open registrations in order, and each meets the engine, its sink and
what those before it left of the world. -/
theorem Consistent.publish_eq (consistent : Consistent registry) (engine : Engine σ)
    (sinks : SinkId → SinkState) (event : Event) (world : World σ) :
    ∃ turn,
      (∀ registration ∈ registry.registered, (turn registration.id).engine = engine ∧
          (turn registration.id).sink = sinks registration.sink) ∧
        (registry.publish engine sinks event world).1 = registry.deliveries event turn := by
  unfold publish deliveries
  have apart := consistent.increasing
  generalize registry.registered = registrations at apart
  induction registrations generalizing world with
  | nil => exact ⟨fun _ => ⟨engine, .gone, world⟩, nofun, rfl⟩
  | cons registration rest ih =>
    obtain ⟨above, apart⟩ := List.pairwise_cons.mp apart
    obtain ⟨turn, meets, delivered⟩ :=
      ih (registration.offer event ⟨engine, sinks registration.sink, world⟩).2 apart
    have other : ∀ later ∈ rest, later.id ≠ registration.id := by
      intro later member same
      have less := above later member
      rw [same] at less
      omega
    refine
      ⟨fun id => if id = registration.id then ⟨engine, sinks registration.sink, world⟩ else turn id,
        ?_, ?_⟩
    · intro later member
      rcases List.mem_cons.mp member with rfl | member
      · simp
      · dsimp only
        rw [if_neg (other later member)]
        exact meets later member
    · have same :
          rest.filterMap (fun later => (later.offer event (if later.id = registration.id then
          ⟨engine, sinks registration.sink, world⟩ else turn later.id)).1) =
            rest.filterMap fun later => (later.offer event (turn later.id)).1 :=
        List.filterMap_congr fun later member => by rw [if_neg (other later member)]
      rw [List.filterMap_cons, same, ← delivered]
      dsimp only
      rw [if_pos rfl, deliver]
      dsimp only
      cases (registration.offer event ⟨engine, sinks registration.sink, world⟩).1 <;> rfl

/-- The registrations that a publish reaches are those on the field of the event whose sinks take
it, in the order of registration. -/
theorem map_deliveries (registry : Registry) (event : Event) (turn : RegistrationId → Turn σ) :
    (registry.deliveries event turn).map (·.registration) =
      (registry.registered.filter fun registration =>
          registration.rootField = event.field ∧ (turn registration.id).sink = .accepting).map
        (·.id) := by
  unfold deliveries
  induction registry.registered with
  | nil => rfl
  | cons registration rest ih =>
    rw [List.filterMap_cons, registration.offer_eq, List.filter_cons]
    by_cases takes : registration.rootField = event.field ∧ (turn registration.id).sink = .accepting
    · simp [Call.messageFor, takes, ih]
    · simp only [Call.messageFor, takes, if_false, decide_false, Option.map_none,
        Bool.false_eq_true]
      exact ih

/-- An event is delivered as often as there are registrations on its field whose sinks take it. -/
theorem length_deliver (engine : Engine σ) (sinks : SinkId → SinkState) (event : Event)
    (registrations : List Registration) (world : World σ) :
    (deliver engine sinks event registrations world).1.length =
      (registrations.filter fun registration =>
        registration.rootField = event.field ∧ sinks registration.sink = .accepting).length := by
  induction registrations generalizing world with
  | nil => rfl
  | cons registration rest ih =>
    have offered := registration.offer_eq event fun _ => ⟨engine, sinks registration.sink, world⟩
    rw [deliver, List.length_append, ih, offered, List.filter_cons]
    by_cases takes : registration.rootField = event.field ∧ sinks registration.sink = .accepting
    · simp [Call.messageFor, takes, Nat.add_comm]
    · simp [Call.messageFor, takes]

/-- From when a registration is opened until a call closes it, its sink gets one message for each
event on its root field that it takes, in order, and nothing before or after. Its number is not
given again. In every publish, the registrations that are reached come in the order of registration,
and the server returns their number. -/
theorem run_delivers (before later : List (Call σ)) (connection : ConnectionId) (sink : SinkId)
    (operationId : String) (operation : Operation) (registration : Registration)
    (opened : ((empty.run before).registry.register connection sink operationId operation).1 =
      .ok registration) :
    let whole := empty.run (before ++ .register connection sink operationId operation :: later)
    (registration.connection = connection ∧ registration.sink = sink ∧
        registration.operationId = operationId ∧ registration.operation = operation ∧
        registration.rootField = operation.rootFieldName?.getD "") ∧
    whole.delivered.filter (·.registration = registration.id) =
      ((later.takeWhile fun call => !call.removes registration).filterMap
          (Call.messageFor registration)).map
        (fun message => ⟨registration.id, registration.sink, message⟩) ∧
    whole.opened.filter (·.id = registration.id) = [registration] ∧
    ∀ (calls : List (Call σ)) (event : Event),
      let registry := (empty.run calls).registry
      registry.registered.Pairwise (fun one other => one.id.number < other.id.number) ∧
      (∀ turn : RegistrationId → Turn σ, (registry.act (.publish event turn)).registry = registry ∧
        (registry.act (.publish event turn)).delivered.map (·.registration) =
          (registry.registered.filter fun other =>
            other.rootField = event.field ∧ (turn other.id).sink = .accepting).map (·.id)) ∧
      (∀ (engine : Engine σ) (sinks : SinkId → SinkState) (world : World σ), ∃ turn,
          (∀ other ∈ registry.registered, (turn other.id).engine = engine ∧
              (turn other.id).sink = sinks other.sink) ∧
            (registry.publish engine sinks event world).1 =
              (registry.act (.publish event turn)).delivered) ∧
      ∀ server : Server σ, server.registry = registry →
        (server.publish event).1 = (registry.registered.filter fun other =>
          other.rootField = event.field ∧ server.sinkState other.sink = .accepting).length := by
  have start : Extends empty (empty.run before) := Consistent.empty.extended before
  have every : ∀ calls : List (Call σ), Consistent (empty.run calls).registry :=
    fun calls => (Consistent.empty.extended calls).consistent
  rcases register_cases (empty.run before).registry connection sink operationId operation with
    ⟨error, refused⟩ | ⟨given, next, accepted, opens, made⟩
  · rw [refused] at opened
    cases opened
  · rw [accepted] at opened
    obtain rfl : given = registration := Except.ok.inj opened
    have acts :
        (empty.run before).registry.act (.register connection sink operationId operation : Call σ) =
          ⟨[], [given], next⟩ := by
      rw [act, accepted]
      rfl
    have consistent := start.consistent.opens opens
    have member : given ∈ next.registered := by
      rw [start.consistent.registered_opens opens]
      simp
    have earlier : ∀ id : RegistrationId, id.number < (empty.run before).registry.nextId →
        id ≠ given.id := by
      rintro id less rfl
      rw [opens.number] at less
      exact Nat.lt_irrefl _ less
    dsimp only
    refine ⟨made, ?_, ?_, ?_⟩
    · have none : (empty.run before).delivered.filter (·.registration = given.id) = [] := by
        rw [List.filter_eq_nil_iff]
        intro delivery inside
        simpa using earlier _ (start.addressed delivery inside)
      rw [run_append, run, acts, List.filter_append, none]
      exact consistent.received member later
    · have none : (empty.run before).opened.filter (·.id = given.id) = [] := by
        rw [List.filter_eq_nil_iff]
        intro other inside
        simpa using earlier _ (start.numbered other inside).2
      have noneLater : (next.run later).opened.filter (·.id = given.id) = [] := by
        rw [List.filter_eq_nil_iff]
        intro other inside
        have above := ((consistent.extended later).numbered other inside).1
        rw [opens.nextId] at above
        rw [decide_eq_true_eq]
        intro same
        rw [same, opens.number] at above
        exact Nat.not_succ_le_self _ above
      rw [run_append, run, acts, List.filter_append, none]
      dsimp only
      rw [List.filter_append, noneLater]
      simp
    · intro calls event
      refine ⟨(every calls).increasing, fun turn => ⟨rfl, map_deliveries _ event turn⟩, ?_, ?_⟩
      · intro engine sinks world
        exact (every calls).publish_eq engine sinks event world
      · rintro server same
        rw [← same]
        exact length_deliver _ _ _ _ _

end Registry

namespace Slope

/-- Whether a slope is open, as it changes. -/
def schema : TypeSystem where
  query := "Query"
  mutation := none
  subscription := some "Subscription"
  types :=
    [("Query", .object "Query" none []),
      ("Subscription", .object "Subscription" none
        [("isOpen", ⟨"isOpen", none, .nonNull (.named "Boolean"), []⟩)]),
      ("Boolean", .scalar "Boolean" none)]
  directives := []

def engine : Engine Unit := ⟨schema, ⟨MockRules.standard, .standard⟩, []⟩

def world : World Unit := ⟨.ofSeed 0, (), .new⟩

def operation : Operation := ⟨.subscription, none, [⟨"isOpen", none, [], []⟩], []⟩

def before : List (Call Unit) := [.register ⟨1⟩ ⟨1⟩ "early" operation]

/-- The slope opens, its state is lost while one sink refuses, and it closes after the subscription
has ended. -/
def later : List (Call Unit) :=
  [.publish ⟨"isOpen", .bool true⟩ fun _ => ⟨engine, .accepting, world⟩,
    .publish ⟨"isOpen", .null⟩ fun id =>
      ⟨engine, if id = ⟨0⟩ then .refusing else .accepting, world⟩, .unregisterOperation ⟨2⟩ "late",
    .publish ⟨"isOpen", .bool false⟩ fun _ => ⟨engine, .accepting, world⟩]

def registration : Registration := ⟨⟨1⟩, "late", ⟨2⟩, "isOpen", operation, ⟨2⟩⟩

def opened : Response := .executed (.object [("isOpen", .bool true)]) []

def lost : Response :=
  .executed .null [⟨"Cannot return null for non-nullable field Subscription.isOpen.",
    some [.field "isOpen"], none⟩]

theorem run_delivers_late :
    ((Registry.empty.run before).registry.register ⟨2⟩ ⟨2⟩ "late" operation).1 = .ok registration ∧
      (Registry.empty.run (before ++ .register ⟨2⟩ ⟨2⟩ "late" operation :: later)).delivered.filter
          (·.registration = registration.id) =
        [⟨⟨1⟩, ⟨2⟩, .next "late" opened⟩, ⟨⟨1⟩, ⟨2⟩, .next "late" lost⟩] :=
  ⟨rfl, (Registry.run_delivers before later ⟨2⟩ ⟨2⟩ "late" operation registration rfl).2.1⟩

end Slope

end MockGraph
