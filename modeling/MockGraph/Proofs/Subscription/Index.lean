import MockGraph.Subscription.Registry
set_option autoImplicit false

namespace MockGraph.Registry

/-- A registration with the next number goes to the end of the list and under its name. -/
structure Opens (registry next : Registry) (registration : Registration) : Prop where
  number : registration.id = ⟨registry.nextId⟩
  absent : Ordered.get? (registry.operationsOf registration.connection) registration.operationId =
      none
  nextId : next.nextId = registry.nextId + 1
  registrations : next.registrations =
      Ordered.insert registry.registrations registration.id registration
  byConnection : next.byConnection =
      Ordered.insert registry.byConnection registration.connection
        (Ordered.insert (registry.operationsOf registration.connection) registration.operationId
          registration.id)

theorem register_cases (registry : Registry) (connection : ConnectionId) (sink : SinkId)
    (operationId : String) (operation : Operation) :
    (∃ error, registry.register connection sink operationId operation = (.error error, registry)) ∨
      ∃ registration next,
        registry.register connection sink operationId operation = (.ok registration, next) ∧
          Opens registry next registration ∧ registration.connection = connection ∧
          registration.sink = sink ∧ registration.operationId = operationId ∧
          registration.operation = operation ∧
          registration.rootField = operation.rootFieldName?.getD "" := by
  unfold register
  split
  · exact Or.inl ⟨_, rfl⟩
  · dsimp only
    split
    · exact Or.inl ⟨_, rfl⟩
    · rename_i absent
      refine Or.inr ⟨_, _, rfl, ⟨rfl, ?_, rfl, rfl, rfl⟩, rfl, rfl, rfl, rfl, rfl⟩
      simpa [Ordered.contains] using absent

theorem Opens.operationsOf {registry next : Registry} {registration : Registration}
    (opens : Opens registry next registration) (connection : ConnectionId) :
    next.operationsOf connection = if registration.connection = connection then
      Ordered.insert (registry.operationsOf registration.connection) registration.operationId
        registration.id
      else registry.operationsOf connection := by
  rw [Registry.operationsOf, opens.byConnection, Ordered.get?_insert]
  split <;> rfl

theorem get?_forget (byConnection : Ordered ConnectionId (Ordered String RegistrationId))
    (connection other : ConnectionId) (operationId : String) :
    (Ordered.get? (forget byConnection connection operationId) other).getD [] =
      if connection = other then
        Ordered.erase ((Ordered.get? byConnection other).getD []) operationId
      else (Ordered.get? byConnection other).getD [] := by
  unfold forget
  cases found : Ordered.get? byConnection connection with
  | none =>
    by_cases same : connection = other
    · simp [← same, found, Ordered.erase]
    · simp [same]
  | some operations =>
    dsimp only
    cases left : Ordered.erase operations operationId with
    | nil =>
      by_cases same : connection = other
      · simp [← same, found, left, Ordered.get?_erase]
      · simp [same, Ordered.get?_erase]
    | cons operation others =>
      by_cases same : connection = other
      · simp [← same, found, left, Ordered.get?_insert]
      · simp [same, Ordered.get?_insert]

theorem forget_ne_nil {byConnection : Ordered ConnectionId (Ordered String RegistrationId)}
    (occupied : ∀ connection, Ordered.get? byConnection connection ≠ some [])
    (connection : ConnectionId) (operationId : String) (other : ConnectionId) :
    Ordered.get? (forget byConnection connection operationId) other ≠ some [] := by
  unfold forget
  cases found : Ordered.get? byConnection connection with
  | none => exact occupied other
  | some operations =>
    dsimp only
    split
    · rw [Ordered.get?_erase]
      split
      · intro impossible
        cases impossible
      · exact occupied other
    · rename_i others nonempty
      rw [Ordered.get?_insert]
      split
      · intro same
        exact nonempty (Option.some.inj same)
      · exact occupied other

/-- What holds of the registry between any two calls. -/
structure Consistent (registry : Registry) : Prop where
  named : registry.registrations =
      registry.registered.map fun registration => (registration.id, registration)
  increasing : registry.registered.Pairwise fun one other => one.id.number < other.id.number
  below : ∀ registration ∈ registry.registered, registration.id.number < registry.nextId
  indexed : ∀ connection operationId id,
      Ordered.get? (registry.operationsOf connection) operationId = some id ↔
        ∃ registration ∈ registry.registered, registration.id = id ∧
          registration.connection = connection ∧ registration.operationId = operationId
  distinct : ∀ connection, (Ordered.keys (registry.operationsOf connection)).Nodup
  occupied : ∀ connection, Ordered.get? registry.byConnection connection ≠ some []

namespace Consistent

variable {registry : Registry}

theorem empty : Consistent Registry.empty := by
  refine ⟨rfl, .nil, nofun, ?_, fun _ => .nil, nofun⟩
  intro connection operationId id
  constructor
  · intro found
    cases found
  · rintro ⟨registration, member, -⟩
    cases member

theorem keys_registrations (consistent : Consistent registry) :
    Ordered.keys registry.registrations = registry.registered.map (·.id) := by
  rw [consistent.named, Ordered.keys, List.map_map]
  rfl

theorem id_eq_key (consistent : Consistent registry) {entry : RegistrationId × Registration}
    (member : entry ∈ registry.registrations) : entry.2.id = entry.1 := by
  rw [consistent.named] at member
  obtain ⟨registration, -, rfl⟩ := List.mem_map.mp member
  rfl

theorem eq_of_id_eq (consistent : Consistent registry) {one other : Registration}
    (first : one ∈ registry.registered) (second : other ∈ registry.registered)
    (same : one.id = other.id) : one = other := by
  have apart := consistent.increasing
  obtain ⟨i, inFirst, rfl⟩ := List.getElem_of_mem first
  obtain ⟨j, inSecond, rfl⟩ := List.getElem_of_mem second
  rw [List.pairwise_iff_getElem] at apart
  rcases Nat.lt_trichotomy i j with before | rfl | after
  · have less := apart i j inFirst inSecond before
    rw [same] at less
    omega
  · rfl
  · have less := apart j i inSecond inFirst after
    rw [same] at less
    omega

theorem nodup_keys (consistent : Consistent registry) :
    (Ordered.keys registry.registrations).Nodup := by
  rw [consistent.keys_registrations, List.Nodup, List.pairwise_map]
  refine consistent.increasing.imp ?_
  intro one other less same
  rw [same] at less
  omega

theorem get?_registrations (consistent : Consistent registry) (id : RegistrationId)
    (registration : Registration) :
    Ordered.get? registry.registrations id = some registration ↔
      registration ∈ registry.registered ∧ registration.id = id := by
  constructor
  · intro found
    have member := Ordered.mem_of_get? found
    rw [consistent.named] at member
    obtain ⟨other, inside, same⟩ := List.mem_map.mp member
    obtain ⟨rfl, rfl⟩ := Prod.mk.inj same
    exact ⟨inside, rfl⟩
  · rintro ⟨member, rfl⟩
    refine Ordered.get?_of_mem consistent.nodup_keys ?_
    rw [consistent.named]
    exact List.mem_map_of_mem member

/-- A registration is the one of its name on its connection. -/
theorem eq_of_name_eq (consistent : Consistent registry) {one other : Registration}
    (first : one ∈ registry.registered) (second : other ∈ registry.registered)
    (connection : one.connection = other.connection) (name : one.operationId = other.operationId) :
    one = other := by
  have found :=
    (consistent.indexed one.connection one.operationId one.id).mpr ⟨one, first, rfl, rfl, rfl⟩
  have again := (consistent.indexed one.connection one.operationId other.id).mpr
    ⟨other, second, rfl, connection.symm, name.symm⟩
  rw [found, Option.some.injEq] at again
  exact consistent.eq_of_id_eq first second again

theorem notMem_keys (consistent : Consistent registry) :
    (⟨registry.nextId⟩ : RegistrationId) ∉ Ordered.keys registry.registrations := by
  rw [consistent.keys_registrations]
  intro member
  obtain ⟨registration, inside, same⟩ := List.mem_map.mp member
  have less := consistent.below registration inside
  rw [same] at less
  exact Nat.lt_irrefl _ less

theorem registrations_opens (consistent : Consistent registry) {next : Registry}
    {registration : Registration} (opens : Opens registry next registration) :
    next.registrations = registry.registrations ++ [(registration.id, registration)] := by
  have fresh := consistent.notMem_keys
  rw [← opens.number] at fresh
  rw [opens.registrations, Ordered.insert_of_notMem _ _ _ fresh]

theorem registered_opens (consistent : Consistent registry) {next : Registry}
    {registration : Registration} (opens : Opens registry next registration) :
    next.registered = registry.registered ++ [registration] := by
  rw [registered, consistent.registrations_opens opens, List.map_append]
  rfl

theorem opens (consistent : Consistent registry) {next : Registry} {registration : Registration}
    (opens : Opens registry next registration) : Consistent next := by
  have after := consistent.registered_opens opens
  refine ⟨?_, ?_, ?_, ?_, ?_, ?_⟩
  · rw [consistent.registrations_opens opens, after, List.map_append, ← consistent.named]
    rfl
  · rw [after]
    refine List.pairwise_append.mpr ⟨consistent.increasing, List.pairwise_singleton .., ?_⟩
    intro one member other last
    rw [List.mem_singleton.mp last, opens.number]
    exact consistent.below one member
  · rw [after, opens.nextId]
    intro other member
    rcases List.mem_append.mp member with member | last
    · exact Nat.lt_succ_of_lt (consistent.below other member)
    · rw [List.mem_singleton.mp last, opens.number]
      exact Nat.lt_succ_self _
  · intro connection operationId id
    rw [opens.operationsOf, after]
    by_cases here : registration.connection = connection ∧ registration.operationId = operationId
    · obtain ⟨rfl, rfl⟩ := here
      rw [if_pos rfl, Ordered.get?_insert, if_pos rfl, Option.some.injEq]
      constructor
      · rintro rfl
        exact ⟨registration, by simp, rfl, rfl, rfl⟩
      · rintro ⟨other, member, rfl, place, name⟩
        rcases List.mem_append.mp member with member | last
        · have found := (consistent.indexed _ _ other.id).mpr ⟨other, member, rfl, place, name⟩
          rw [opens.absent] at found
          cases found
        · rw [List.mem_singleton.mp last]
    · have same : Ordered.get? (if registration.connection = connection then
          Ordered.insert (registry.operationsOf registration.connection) registration.operationId
            registration.id
          else registry.operationsOf connection) operationId =
            Ordered.get? (registry.operationsOf connection) operationId := by
        split
        · rename_i place
          rw [Ordered.get?_insert, if_neg fun name => here ⟨place, name⟩, place]
        · rfl
      rw [same, consistent.indexed]
      constructor
      · rintro ⟨other, member, found⟩
        exact ⟨other, List.mem_append_left _ member, found⟩
      · rintro ⟨other, member, found, place, name⟩
        rcases List.mem_append.mp member with member | last
        · exact ⟨other, member, found, place, name⟩
        · obtain rfl := List.mem_singleton.mp last
          exact absurd ⟨place, name⟩ here
  · intro connection
    rw [opens.operationsOf]
    split
    · exact Ordered.nodup_keys_insert (consistent.distinct _) _ _
    · exact consistent.distinct connection
  · intro connection
    rw [opens.byConnection, Ordered.get?_insert]
    split
    · rw [ne_eq, Option.some.injEq]
      exact Ordered.insert_ne_nil _ _ _
    · exact consistent.occupied connection

end Consistent

/-- Only the registrations that are kept are left, in their order and under their names. -/
structure Keeps (registry next : Registry) (keep : Registration → Bool) : Prop where
  nextId : next.nextId = registry.nextId
  registrations : next.registrations = registry.registrations.filter fun entry => keep entry.2
  indexed : ∀ connection operationId id,
      Ordered.get? (next.operationsOf connection) operationId = some id ↔
        ∃ registration ∈ registry.registered, registration.id = id ∧
          registration.connection = connection ∧ registration.operationId = operationId ∧
          keep registration = true
  distinct : ∀ connection, (Ordered.keys (next.operationsOf connection)).Nodup
  occupied : ∀ connection, Ordered.get? next.byConnection connection ≠ some []

variable {registry next : Registry} {keep : Registration → Bool}

theorem Keeps.registered (keeps : Keeps registry next keep) :
    next.registered = registry.registered.filter keep := by
  rw [Registry.registered, keeps.registrations, Registry.registered, List.filter_map]
  rfl

theorem Consistent.keeps (consistent : Consistent registry) (keeps : Keeps registry next keep) :
    Consistent next := by
  have after := keeps.registered
  refine ⟨?_, ?_, ?_, ?_, keeps.distinct, keeps.occupied⟩
  · rw [keeps.registrations, after, consistent.named, List.filter_map]
    rfl
  · rw [after]
    exact consistent.increasing.filter keep
  · rw [after, keeps.nextId]
    intro registration member
    exact consistent.below registration (List.mem_filter.mp member).1
  · intro connection operationId id
    rw [keeps.indexed, after]
    constructor
    · rintro ⟨registration, member, number, place, name, kept⟩
      exact ⟨registration, List.mem_filter.mpr ⟨member, kept⟩, number, place, name⟩
    · rintro ⟨registration, member, number, place, name⟩
      obtain ⟨inside, kept⟩ := List.mem_filter.mp member
      exact ⟨registration, inside, number, place, name, kept⟩

theorem Consistent.keeps_all (consistent : Consistent registry)
    (all : ∀ registration ∈ registry.registered, keep registration = true) :
    Keeps registry registry keep := by
  refine ⟨rfl, ?_, ?_, consistent.distinct, consistent.occupied⟩
  · symm
    rw [List.filter_eq_self]
    exact fun entry member => all entry.2 (List.mem_map_of_mem member)
  · intro connection operationId id
    rw [consistent.indexed]
    constructor
    · rintro ⟨registration, member, number, place, name⟩
      exact ⟨registration, member, number, place, name, all registration member⟩
    · rintro ⟨registration, member, number, place, name, -⟩
      exact ⟨registration, member, number, place, name⟩

theorem Consistent.keeps_unregister (consistent : Consistent registry) (id : RegistrationId) :
    Keeps registry (registry.unregister id).2 fun registration => registration.id ≠ id := by
  unfold unregister
  cases found : Ordered.get? registry.registrations id with
  | none =>
    refine consistent.keeps_all fun registration member => ?_
    rw [decide_eq_true_eq]
    rintro rfl
    rw [(consistent.get?_registrations _ registration).mpr ⟨member, rfl⟩] at found
    cases found
  | some closed =>
    obtain ⟨member, rfl⟩ := (consistent.get?_registrations id closed).mp found
    have operationsOf : ∀ connection, Registry.operationsOf { registry with
        registrations := Ordered.erase registry.registrations closed.id
        byConnection :=
          forget registry.byConnection closed.connection closed.operationId } connection =
          if closed.connection = connection then
            Ordered.erase (registry.operationsOf connection) closed.operationId
          else registry.operationsOf connection := fun connection => get?_forget _ _ _ _
    refine ⟨rfl, ?_, ?_, ?_, fun connection => forget_ne_nil consistent.occupied _ _ connection⟩
    · refine List.filter_congr fun entry inside => ?_
      rw [consistent.id_eq_key inside]
    · intro connection operationId id
      rw [operationsOf]
      constructor
      · intro found
        have kept : Ordered.get? (registry.operationsOf connection) operationId = some id ∧
            ¬ (closed.connection = connection ∧ closed.operationId = operationId) := by
          split at found
          · rw [Ordered.get?_erase] at found
            split at found
            · cases found
            · rename_i different
              exact ⟨found, fun both => different both.2⟩
          · rename_i elsewhere
            exact ⟨found, fun both => elsewhere both.1⟩
        obtain ⟨registration, inside, number, place, name⟩ := (consistent.indexed ..).mp kept.1
        refine ⟨registration, inside, number, place, name, ?_⟩
        rw [decide_eq_true_eq]
        intro same
        obtain rfl := consistent.eq_of_id_eq inside member same
        exact kept.2 ⟨place, name⟩
      · rintro ⟨registration, inside, number, place, name, kept⟩
        have found :=
          (consistent.indexed connection operationId id).mpr
            ⟨registration, inside, number, place, name⟩
        split
        · rename_i here
          rw [Ordered.get?_erase, if_neg]
          · exact found
          · intro same
            have equal :=
              consistent.eq_of_name_eq inside member (place.trans here.symm) (name.trans same.symm)
            rw [equal] at kept
            simp at kept
        · exact found
    · intro connection
      rw [operationsOf]
      split
      · rw [Ordered.keys_erase]
        exact (consistent.distinct connection).filter _
      · exact consistent.distinct connection

theorem Keeps.congr {other : Registration → Bool} (keeps : Keeps registry next keep)
    (same : ∀ registration ∈ registry.registered, keep registration = other registration) :
    Keeps registry next other := by
  refine ⟨keeps.nextId, ?_, ?_, keeps.distinct, keeps.occupied⟩
  · rw [keeps.registrations]
    exact List.filter_congr fun entry member => same entry.2 (List.mem_map_of_mem member)
  · intro connection operationId id
    rw [keeps.indexed]
    constructor
    · rintro ⟨registration, member, number, place, name, kept⟩
      exact ⟨registration, member, number, place, name, same registration member ▸ kept⟩
    · rintro ⟨registration, member, number, place, name, kept⟩
      exact ⟨registration, member, number, place, name, (same registration member).symm ▸ kept⟩

/-- The subscription of a name on a connection is closed and nothing else. -/
theorem Consistent.keeps_unregisterOperation (consistent : Consistent registry)
    (connection : ConnectionId) (operationId : String) :
    Keeps registry (registry.unregisterOperation connection operationId).2 fun registration =>
      ¬ (registration.connection = connection ∧ registration.operationId = operationId) := by
  unfold unregisterOperation
  cases found : Ordered.get? (registry.operationsOf connection) operationId with
  | none =>
    refine consistent.keeps_all fun registration member => ?_
    rw [decide_eq_true_eq]
    rintro ⟨rfl, rfl⟩
    rw [(consistent.indexed _ _ registration.id).mpr ⟨registration, member, rfl, rfl, rfl⟩] at found
    cases found
  | some id =>
    obtain ⟨closed, member, rfl, rfl, rfl⟩ := (consistent.indexed ..).mp found
    refine (consistent.keeps_unregister closed.id).congr fun registration inside => ?_
    refine decide_eq_decide.mpr (not_congr ?_)
    constructor
    · intro same
      rw [consistent.eq_of_id_eq inside member same]
      exact ⟨rfl, rfl⟩
    · rintro ⟨place, name⟩
      rw [consistent.eq_of_name_eq inside member place name]

/-- Erasing keys one after the other leaves the entries with other keys. -/
theorem foldl_erase (names : Ordered String RegistrationId)
    (registrations : Ordered RegistrationId Registration) :
    names.foldl (fun rest entry => Ordered.erase rest entry.2) registrations =
      registrations.filter fun entry => entry.1 ∉ names.map Prod.snd := by
  induction names generalizing registrations with
  | nil => exact (List.filter_eq_self.mpr fun entry _ => by simp).symm
  | cons name rest ih =>
    rw [List.foldl_cons, ih, Ordered.erase, List.filter_filter]
    refine List.filter_congr fun entry _ => ?_
    rw [← Bool.decide_and, decide_eq_decide, List.map_cons, List.mem_cons, not_or]
    exact and_comm

/-- The subscriptions of a connection are closed and nothing else. -/
theorem Consistent.keeps_purge (consistent : Consistent registry) (connection : ConnectionId) :
    Keeps registry (registry.purge connection).2 fun registration =>
      registration.connection ≠ connection := by
  unfold purge
  cases found : Ordered.get? registry.byConnection connection with
  | none =>
    have empty : registry.operationsOf connection = [] := by rw [operationsOf, found]; rfl
    refine consistent.keeps_all fun registration member => ?_
    rw [decide_eq_true_eq]
    rintro rfl
    have named := (consistent.indexed _ _ registration.id).mpr ⟨registration, member, rfl, rfl, rfl⟩
    rw [empty] at named
    cases named
  | some operations =>
    have names : registry.operationsOf connection = operations := by rw [operationsOf, found]; rfl
    have operationsOf : ∀ other, Registry.operationsOf { registry with
        registrations :=
          operations.foldl (fun rest entry => Ordered.erase rest entry.2) registry.registrations
        byConnection := Ordered.erase registry.byConnection connection } other =
          if connection = other then [] else registry.operationsOf other := by
      intro other
      rw [Registry.operationsOf, Ordered.get?_erase]
      split <;> rfl
    refine ⟨rfl, ?_, ?_, ?_, ?_⟩
    · dsimp only
      rw [foldl_erase]
      refine List.filter_congr fun entry member => ?_
      have inside : entry.2 ∈ registry.registered := List.mem_map_of_mem member
      rw [← consistent.id_eq_key member]
      refine decide_eq_decide.mpr (not_congr ?_)
      constructor
      · intro listed
        obtain ⟨⟨name, id⟩, named, same⟩ := List.mem_map.mp listed
        have distinct := consistent.distinct connection
        rw [names] at distinct
        have looked := Ordered.get?_of_mem distinct named
        rw [← names] at looked
        obtain ⟨registration, other, number, place, -⟩ := (consistent.indexed ..).mp looked
        rw [← consistent.eq_of_id_eq other inside (number.trans same)]
        exact place
      · intro place
        have looked :=
          (consistent.indexed connection _ entry.2.id).mpr ⟨entry.2, inside, rfl, place, rfl⟩
        rw [names] at looked
        exact List.mem_map_of_mem (Ordered.mem_of_get? looked)
    · intro other operationId id
      rw [operationsOf]
      split
      · rename_i same
        constructor
        · intro impossible
          cases impossible
        · rintro ⟨registration, member, number, place, name, kept⟩
          rw [decide_eq_true_eq] at kept
          exact absurd (place.trans same.symm) kept
      · rename_i different
        rw [consistent.indexed]
        constructor
        · rintro ⟨registration, member, number, rfl, name⟩
          exact ⟨registration, member, number, rfl, name, by simpa using Ne.symm different⟩
        · rintro ⟨registration, member, number, place, name, -⟩
          exact ⟨registration, member, number, place, name⟩
    · intro other
      rw [operationsOf]
      split
      · exact .nil
      · exact consistent.distinct other
    · intro other
      dsimp only
      rw [Ordered.get?_erase]
      split
      · intro impossible
        cases impossible
      · exact consistent.occupied other

end MockGraph.Registry
