import MockGraph.Proofs.Subscription.Index
set_option autoImplicit false

namespace MockGraph

/-- An open subscription, as far as it can be asked for. -/
structure Entry where
  id : RegistrationId
  connection : ConnectionId
  operationId : String
deriving DecidableEq, Inhabited, Repr

def Registration.entry (registration : Registration) : Entry :=
  ⟨registration.id, registration.connection, registration.operationId⟩

/-- What a registry is asked to do or to tell. -/
inductive Ask where
  | register (connection : ConnectionId) (sink : SinkId) (operationId : String)
    (operation : Operation)
  | unregister (id : RegistrationId)
  | unregisterOperation (connection : ConnectionId) (operationId : String)
  | purge (connection : ConnectionId)
  | operations (connection : ConnectionId)
  | size

inductive Answer where
  | registered (result : Except RegistryError Registration)
  | removed (wasOpen : Bool)
  | names (operationIds : List String)
  | size (count : Nat)

def Ask.answers {α : Type} (answer : α → Ask → Answer × α) : α → List Ask → List Answer × α
  | state, [] => ([], state)
  | state, ask :: rest =>
    let (first, state) := answer state ask
    let (others, state) := answers answer state rest
    (first :: others, state)

def Registry.answer (registry : Registry) : Ask → Answer × Registry
  | .register connection sink operationId operation =>
    let (result, registry) := registry.register connection sink operationId operation
    (.registered result, registry)
  | .unregister id =>
    let (wasOpen, registry) := registry.unregister id
    (.removed wasOpen, registry)
  | .unregisterOperation connection operationId =>
    let (wasOpen, registry) := registry.unregisterOperation connection operationId
    (.removed wasOpen, registry)
  | .purge connection =>
    let (operationIds, registry) := registry.purge connection
    (.names operationIds, registry)
  | .operations connection => (.names (registry.operations connection), registry)
  | .size => (.size registry.size, registry)

/-- The open subscriptions in the order of registration, and how many were opened so far. -/
structure Roster where
  opened : Nat
  entries : List Entry
deriving DecidableEq, Inhabited, Repr

namespace Roster

def empty : Roster := ⟨0, []⟩

/-- Some entry is of the kind, and what is left without those that are. -/
def strike (roster : Roster) (kind : Entry → Bool) : Bool × Roster :=
  (roster.entries.any kind,
    { roster with entries := roster.entries.filter fun entry => !kind entry })

/-- The names of a connection's entries in the order of registration. -/
def namesOf (roster : Roster) (connection : ConnectionId) : List String :=
  (roster.entries.filter (·.connection = connection)).map (·.operationId)

/-- A subscription goes to the end of the list, unless its connection has an entry of that name. -/
def register (roster : Roster) (connection : ConnectionId) (sink : SinkId) (operationId : String)
    (operation : Operation) : Except RegistryError Registration × Roster :=
  if operation.kind ≠ .subscription then (.error (.notASubscription operation.kind), roster)
  else if ∃ entry ∈ roster.entries, entry.connection = connection ∧
      entry.operationId = operationId then
    (.error (.duplicateSubscription operationId), roster)
  else
    let registration : Registration :=
      ⟨⟨roster.opened⟩, operationId, connection, operation.rootFieldName?.getD "", operation, sink⟩
    (.ok registration, ⟨roster.opened + 1, roster.entries ++ [registration.entry]⟩)

def answer (roster : Roster) : Ask → Answer × Roster
  | .register connection sink operationId operation =>
    let (result, roster) := roster.register connection sink operationId operation
    (.registered result, roster)
  | .unregister id =>
    let (wasOpen, roster) := roster.strike (·.id = id)
    (.removed wasOpen, roster)
  | .unregisterOperation connection operationId =>
    let (wasOpen, roster) := roster.strike fun entry =>
      entry.connection = connection ∧ entry.operationId = operationId
    (.removed wasOpen, roster)
  | .purge connection =>
    (.names (roster.namesOf connection), (roster.strike (·.connection = connection)).2)
  | .operations connection => (.names (roster.namesOf connection), roster)
  | .size => (.size roster.entries.length, roster)

end Roster

namespace Registry

variable {registry next : Registry}

/-- Each connection has its names in the order of registration. -/
def InOrder (registry : Registry) : Prop :=
  ∀ connection, registry.operationsOf connection =
    (registry.registered.filter (·.connection = connection)).map fun registration =>
      (registration.operationId, registration.id)

theorem inOrder_empty : InOrder empty := fun _ => rfl

theorem InOrder.opens (inOrder : InOrder registry) (consistent : Consistent registry)
    {registration : Registration} (opens : Opens registry next registration) : InOrder next := by
  intro connection
  rw [opens.operationsOf, consistent.registered_opens opens, List.filter_append, List.map_append]
  by_cases here : registration.connection = connection
  · have fresh : registration.operationId ∉
        Ordered.keys (registry.operationsOf registration.connection) :=
      (Ordered.get?_eq_none_iff _ _).mp opens.absent
    rw [if_pos here, Ordered.insert_of_notMem _ _ _ fresh, here, ← inOrder connection]
    simp [here]
  · rw [if_neg here, ← inOrder connection]
    simp [here]

/-- Where names are left out just as their registrations are, those that stay are in order. -/
theorem InOrder.keeps (inOrder : InOrder registry) {keep : Registration → Bool}
    (keeps : Keeps registry next keep) (stays : ConnectionId → String × RegistrationId → Bool)
    (names : ∀ connection,
      next.operationsOf connection = (registry.operationsOf connection).filter (stays connection))
    (same : ∀ registration ∈ registry.registered,
      stays registration.connection (registration.operationId, registration.id) =
        keep registration) : InOrder next := by
  intro connection
  rw [names, inOrder connection, keeps.registered, List.filter_map, List.filter_filter,
    List.filter_filter]
  refine congrArg (List.map _) (List.filter_congr fun registration member => ?_)
  by_cases here : registration.connection = connection
  · subst here
    simp [← same registration member]
  · simp [here]

theorem operationsOf_unregister {id : RegistrationId} {closed : Registration}
    (found : Ordered.get? registry.registrations id = some closed) (connection : ConnectionId) :
    (registry.unregister id).2.operationsOf connection =
      if closed.connection = connection then
        Ordered.erase (registry.operationsOf connection) closed.operationId
      else registry.operationsOf connection := by
  unfold unregister
  rw [found]
  exact get?_forget _ _ _ _

theorem operationsOf_purge (connection other : ConnectionId) :
    (registry.purge connection).2.operationsOf other =
      if connection = other then [] else registry.operationsOf other := by
  unfold purge
  cases found : Ordered.get? registry.byConnection connection with
  | none =>
    dsimp only
    split
    · rename_i same
      rw [← same, operationsOf, found]
      rfl
    · rfl
  | some operations =>
    dsimp only
    rw [operationsOf, Ordered.get?_erase]
    split <;> rfl

theorem InOrder.unregister (inOrder : InOrder registry) (consistent : Consistent registry)
    (id : RegistrationId) : InOrder (registry.unregister id).2 := by
  cases found : Ordered.get? registry.registrations id with
  | none =>
    unfold Registry.unregister
    rw [found]
    exact inOrder
  | some closed =>
    obtain ⟨member, rfl⟩ := (consistent.get?_registrations id closed).mp found
    refine inOrder.keeps (consistent.keeps_unregister closed.id)
      (fun connection name => !(closed.connection = connection ∧ closed.operationId = name.1)) ?_ ?_
    · intro connection
      rw [operationsOf_unregister found]
      by_cases here : closed.connection = connection
      · rw [if_pos here, Ordered.erase]
        refine List.filter_congr fun name _ => ?_
        simp [here, eq_comm]
      · rw [if_neg here]
        exact (List.filter_eq_self.mpr fun name _ => by simp [here]).symm
    · intro registration inside
      by_cases same : registration.id = closed.id
      · rw [consistent.eq_of_id_eq inside member same]
        simp
      · have apart : ¬ (closed.connection = registration.connection ∧
            closed.operationId = registration.operationId) := by
          rintro ⟨place, name⟩
          exact same
            (congrArg Registration.id (consistent.eq_of_name_eq inside member place.symm name.symm))
        simp [same, apart]

theorem InOrder.purge (inOrder : InOrder registry) (consistent : Consistent registry)
    (connection : ConnectionId) : InOrder (registry.purge connection).2 := by
  refine inOrder.keeps (consistent.keeps_purge connection) (fun other _ => other ≠ connection) ?_ ?_
  · intro other
    rw [operationsOf_purge]
    split
    · rename_i same
      exact (List.filter_eq_nil_iff.mpr fun name _ => by simp [same]).symm
    · rename_i different
      exact (List.filter_eq_self.mpr fun name _ => by simp [Ne.symm different]).symm
  · intro registration _
    rfl

theorem InOrder.operations_eq (inOrder : InOrder registry) (connection : ConnectionId) :
    registry.operations connection =
      (registry.registered.filter (·.connection = connection)).map (·.operationId) := by
  rw [operations, inOrder connection, Ordered.keys, List.map_map]
  rfl

theorem purge_names (registry : Registry) (connection : ConnectionId) :
    (registry.purge connection).1 = registry.operations connection := by
  unfold purge operations operationsOf
  cases Ordered.get? registry.byConnection connection <;> rfl

/-- A registry and a list tell the same. -/
structure Agrees (registry : Registry) (roster : Roster) : Prop where
  consistent : Consistent registry
  inOrder : InOrder registry
  opened : registry.nextId = roster.opened
  entries : registry.registered.map Registration.entry = roster.entries

namespace Agrees

variable {roster : Roster}

theorem empty : Agrees Registry.empty Roster.empty := ⟨.empty, inOrder_empty, rfl, rfl⟩

theorem any_entries (agrees : Agrees registry roster) (kind : Entry → Bool) :
    roster.entries.any kind = true ↔
      ∃ registration ∈ registry.registered, kind registration.entry = true := by
  simp [← agrees.entries]

theorem namesOf (agrees : Agrees registry roster) (connection : ConnectionId) :
    registry.operations connection = roster.namesOf connection := by
  rw [agrees.inOrder.operations_eq, Roster.namesOf, ← agrees.entries, List.filter_map, List.map_map]
  rfl

theorem size (agrees : Agrees registry roster) : registry.size = roster.entries.length := by
  rw [← agrees.entries, List.length_map, registered, List.length_map]
  rfl

/-- Closing the registrations of a kind strikes their entries. -/
theorem keeps (agrees : Agrees registry roster) {keep : Registration → Bool}
    (keeps : Keeps registry next keep) (inOrder : InOrder next) {kind : Entry → Bool}
    (same : ∀ registration, keep registration = !kind registration.entry) :
    Agrees next (roster.strike kind).2 := by
  refine ⟨agrees.consistent.keeps keeps, inOrder, keeps.nextId.trans agrees.opened, ?_⟩
  rw [keeps.registered, Roster.strike, ← agrees.entries, List.filter_map]
  exact congrArg (List.map _) (List.filter_congr fun registration _ => same registration)

theorem opens (agrees : Agrees registry roster) {registration : Registration}
    (opens : Opens registry next registration) :
    Agrees next ⟨roster.opened + 1, roster.entries ++ [registration.entry]⟩ := by
  refine ⟨agrees.consistent.opens opens, agrees.inOrder.opens agrees.consistent opens, ?_, ?_⟩
  · rw [opens.nextId, agrees.opened]
  · rw [agrees.consistent.registered_opens opens, List.map_append, agrees.entries]
    rfl

/-- A name is taken on a connection where the list has an entry of it. -/
theorem contains_iff (agrees : Agrees registry roster) (connection : ConnectionId)
    (operationId : String) :
    Ordered.contains (registry.operationsOf connection) operationId = true ↔
      ∃ entry ∈ roster.entries, entry.connection = connection ∧
        entry.operationId = operationId := by
  rw [Ordered.contains, Option.isSome_iff_exists, ← agrees.entries]
  constructor
  · rintro ⟨id, found⟩
    obtain ⟨registration, member, -, place, name⟩ := (agrees.consistent.indexed ..).mp found
    exact ⟨registration.entry, List.mem_map_of_mem member, place, name⟩
  · rintro ⟨entry, member, place, name⟩
    obtain ⟨registration, inside, rfl⟩ := List.mem_map.mp member
    exact ⟨registration.id,
      (agrees.consistent.indexed ..).mpr ⟨registration, inside, rfl, place, name⟩⟩

theorem register (agrees : Agrees registry roster) (connection : ConnectionId) (sink : SinkId)
    (operationId : String) (operation : Operation) :
    (registry.register connection sink operationId operation).1 =
        (roster.register connection sink operationId operation).1 ∧
      Agrees (registry.register connection sink operationId operation).2
        (roster.register connection sink operationId operation).2 := by
  have taken := agrees.contains_iff connection operationId
  unfold Registry.register Roster.register
  by_cases kind : operation.kind = .subscription
  · rw [if_neg (not_not_intro kind), if_neg (not_not_intro kind)]
    by_cases duplicate : Ordered.contains (registry.operationsOf connection) operationId = true
    · rw [if_pos (taken.mp duplicate)]
      dsimp only
      rw [if_pos duplicate]
      exact ⟨rfl, agrees⟩
    · rw [if_neg (mt taken.mpr duplicate)]
      dsimp only
      rw [if_neg duplicate, ← agrees.opened]
      have absent : Ordered.get? (registry.operationsOf connection) operationId = none := by
        simpa [Ordered.contains] using duplicate
      refine ⟨rfl, ?_⟩
      rw [agrees.opened]
      exact agrees.opens ⟨by rw [agrees.opened], absent, by rw [agrees.opened], rfl, rfl⟩
  · rw [if_pos kind, if_pos kind]
    exact ⟨rfl, agrees⟩

theorem unregister (agrees : Agrees registry roster) (id : RegistrationId) :
    (registry.unregister id).1 = (roster.strike (·.id = id)).1 ∧
      Agrees (registry.unregister id).2 (roster.strike (·.id = id)).2 := by
  refine ⟨?_, ?_⟩
  · rw [Bool.eq_iff_iff, Roster.strike, agrees.any_entries]
    unfold Registry.unregister
    cases found : Ordered.get? registry.registrations id with
    | none =>
      refine ⟨nofun, ?_⟩
      rintro ⟨registration, member, same⟩
      have known :=
        (agrees.consistent.get?_registrations id registration).mpr ⟨member, of_decide_eq_true same⟩
      rw [found] at known
      cases known
    | some closed =>
      obtain ⟨member, same⟩ := (agrees.consistent.get?_registrations id closed).mp found
      exact ⟨fun _ => ⟨closed, member, decide_eq_true same⟩, fun _ => rfl⟩
  · exact agrees.keeps (agrees.consistent.keeps_unregister id)
      (agrees.inOrder.unregister agrees.consistent id) fun _ => decide_not

theorem unregisterOperation (agrees : Agrees registry roster) (connection : ConnectionId)
    (operationId : String) :
    let kind (entry : Entry) : Bool :=
      entry.connection = connection ∧ entry.operationId = operationId
    (registry.unregisterOperation connection operationId).1 = (roster.strike kind).1 ∧
      Agrees (registry.unregisterOperation connection operationId).2 (roster.strike kind).2 := by
  have consistent := agrees.consistent
  refine ⟨?_, agrees.keeps (consistent.keeps_unregisterOperation connection operationId) ?_ ?_⟩
  · rw [Bool.eq_iff_iff, Roster.strike, agrees.any_entries]
    unfold Registry.unregisterOperation
    cases found : Ordered.get? (registry.operationsOf connection) operationId with
    | none =>
      refine ⟨nofun, ?_⟩
      rintro ⟨registration, member, same⟩
      obtain ⟨place, name⟩ := of_decide_eq_true same
      have known :=
        (consistent.indexed _ _ registration.id).mpr ⟨registration, member, rfl, place, name⟩
      rw [found] at known
      cases known
    | some id =>
      obtain ⟨closed, member, rfl, place, name⟩ := (consistent.indexed ..).mp found
      refine ⟨fun _ => ⟨closed, member, decide_eq_true ⟨place, name⟩⟩, fun _ => ?_⟩
      dsimp only
      rw [Registry.unregister, (consistent.get?_registrations _ closed).mpr ⟨member, rfl⟩]
  · unfold Registry.unregisterOperation
    cases Ordered.get? (registry.operationsOf connection) operationId with
    | none => exact agrees.inOrder
    | some id => exact agrees.inOrder.unregister consistent id
  · exact fun _ => decide_not

theorem purge (agrees : Agrees registry roster) (connection : ConnectionId) :
    (registry.purge connection).1 = roster.namesOf connection ∧
      Agrees (registry.purge connection).2 (roster.strike (·.connection = connection)).2 := by
  refine ⟨(purge_names registry connection).trans (agrees.namesOf connection), ?_⟩
  exact agrees.keeps (agrees.consistent.keeps_purge connection)
    (agrees.inOrder.purge agrees.consistent connection) fun _ => decide_not

/-- A registry and a list that tell the same answer the same, and go on to tell the same. -/
theorem answer (agrees : Agrees registry roster) (ask : Ask) :
    (registry.answer ask).1 = (roster.answer ask).1 ∧
      Agrees (registry.answer ask).2 (roster.answer ask).2 := by
  cases ask with
  | register connection sink operationId operation =>
    exact (agrees.register connection sink operationId operation).imp_left
      (congrArg Answer.registered)
  | unregister id => exact (agrees.unregister id).imp_left (congrArg Answer.removed)
  | unregisterOperation connection operationId =>
    exact (agrees.unregisterOperation connection operationId).imp_left (congrArg Answer.removed)
  | purge connection => exact (agrees.purge connection).imp_left (congrArg Answer.names)
  | operations connection => exact ⟨congrArg Answer.names (agrees.namesOf connection), agrees⟩
  | size => exact ⟨congrArg Answer.size agrees.size, agrees⟩

theorem answers (agrees : Agrees registry roster) (asks : List Ask) :
    (Ask.answers Registry.answer registry asks).1 = (Ask.answers Roster.answer roster asks).1 ∧
      Agrees (Ask.answers Registry.answer registry asks).2
        (Ask.answers Roster.answer roster asks).2 := by
  induction asks generalizing registry roster with
  | nil => exact ⟨rfl, agrees⟩
  | cons ask rest ih =>
    obtain ⟨first, next⟩ := agrees.answer ask
    obtain ⟨others, last⟩ := ih next
    exact ⟨List.cons_eq_cons.mpr ⟨first, others⟩, last⟩

end Agrees

/-- The two indexes of a registry are one list, seen in two ways. -/
structure Indexed (registry : Registry) : Prop where
  /-- A registration has a number exactly if its connection has that number under its name. -/
  bijective : ∀ id connection operationId,
      (∃ registration, Ordered.get? registry.registrations id = some registration ∧
          registration.id = id ∧ registration.connection = connection ∧
          registration.operationId = operationId) ↔
        ∃ operations, Ordered.get? registry.byConnection connection = some operations ∧
          Ordered.get? operations operationId = some id
  occupied : ∀ connection, Ordered.get? registry.byConnection connection ≠ some []
  increasing :
      (Ordered.keys registry.registrations).Pairwise fun one other => one.number < other.number
  increasingOf : ∀ connection operations,
      Ordered.get? registry.byConnection connection = some operations →
        operations.Pairwise fun one other => one.2.number < other.2.number

theorem Agrees.indexed {roster : Roster} (agrees : Agrees registry roster) : Indexed registry := by
  have consistent := agrees.consistent
  refine ⟨?_, consistent.occupied, ?_, ?_⟩
  · intro id connection operationId
    have names : (∃ operations, Ordered.get? registry.byConnection connection = some operations ∧
        Ordered.get? operations operationId = some id) ↔
          Ordered.get? (registry.operationsOf connection) operationId = some id := by
      unfold operationsOf
      cases Ordered.get? registry.byConnection connection <;> simp [Ordered.get?]
    rw [names, consistent.indexed]
    constructor
    · rintro ⟨registration, found, same, place, name⟩
      exact ⟨registration, ((consistent.get?_registrations _ _).mp found).1, same, place, name⟩
    · rintro ⟨registration, member, same, place, name⟩
      exact ⟨registration, (consistent.get?_registrations _ _).mpr ⟨member, same⟩, same, place,
        name⟩
  · rw [consistent.keys_registrations, List.pairwise_map]
    exact consistent.increasing
  · intro connection operations found
    have names := agrees.inOrder connection
    rw [operationsOf, found, Option.getD_some] at names
    rw [names, List.pairwise_map]
    exact consistent.increasing.filter _

/-- A registration that is refused leaves everything as it was. -/
theorem register_refused {connection : ConnectionId} {sink : SinkId} {operationId : String}
    {operation : Operation} {error : RegistryError}
    (refused : (registry.register connection sink operationId operation).1 = .error error) :
    (registry.register connection sink operationId operation).2 = registry := by
  rcases register_cases registry connection sink operationId operation with
    ⟨_, same⟩ | ⟨registration, next, accepted, -⟩
  · rw [same]
  · rw [accepted] at refused
    cases refused

/-- Whatever a new registry is asked, it answers as the list does, and its indexes stay one list.
What it refuses leaves it as it was. -/
theorem answers_as_roster (asks : List Ask) :
    let (answers, registry) := Ask.answers Registry.answer empty asks
    let (expected, roster) := Ask.answers Roster.answer Roster.empty asks
    answers = expected ∧ registry.nextId = roster.opened ∧
      registry.registered.map Registration.entry = roster.entries ∧ Indexed registry ∧
      ∀ connection sink operationId operation error,
        (registry.register connection sink operationId operation).1 = .error error →
        (registry.register connection sink operationId operation).2 = registry := by
  obtain ⟨same, agrees⟩ := Agrees.empty.answers asks
  refine ⟨same, agrees.opened, agrees.entries, agrees.indexed, ?_⟩
  intro connection sink operationId operation error refused
  exact register_refused refused

end Registry

namespace Ticket

/-- Asks once whether a ticket is valid, and does not subscribe. -/
def query : Operation := ⟨.query, none, [⟨"isValid", none, [], []⟩], []⟩

/-- A name that is not taken is not enough: what is no subscription is not opened. -/
theorem register_query_refused :
    ¬ ∀ (asks : List Ask) (connection : ConnectionId) (sink : SinkId) (operationId : String)
        (operation : Operation),
      let registry := (Ask.answers Registry.answer Registry.empty asks).2
      let taken := ∃ registration ∈ registry.registered,
        registration.connection = connection ∧ registration.operationId = operationId
      let (result, next) := registry.register connection sink operationId operation
      (result = .error (.duplicateSubscription operationId) ↔ taken) ∧
        (taken ∨ next.registered.length = registry.registered.length + 1) := by
  intro all
  rcases (all [] ⟨1⟩ ⟨1⟩ "valid" query).2 with ⟨registration, member, -⟩ | longer
  · cases member
  · cases longer

end Ticket

end MockGraph
