import MockGraph.Proofs.Server.Registrations
set_option autoImplicit false

namespace MockGraph

namespace Server

variable {σ : Type} {server before after : Server σ}

/-- How a connection goes from one phase to another: it is opened, it begins to close with a call
that is going to close it, or such a call closes it. -/
theorem Moves.phase_cases {action : Action} (moves : Moves before action after)
    (housed : Housed before) (connection : ConnectionId) :
    after.phase? connection = before.phase? connection ∨
      (before.phase? connection = none ∧ after.phase? connection = some .open) ∨
      (before.phase? connection = some .open ∧ after.phase? connection = some .closing ∧
        ∃ id task, Ordered.get? after.tasks id = some task ∧ task.willClose connection = true) ∨
      (after.phase? connection = some .closed ∧ ∃ id task, action = .advance id ∧
        Ordered.get? before.tasks id = some task ∧ task.closes connection = true) := by
  have marked : ∀ {middle : Server σ} {other : ConnectionId}, Idle before middle →
      (middle.markClosed other).phase? connection = before.phase? connection ∨
        other = connection ∧ (middle.markClosed other).phase? connection = some .closed := by
    intro middle other idle
    rw [phase?_markClosed, idle.phase]
    split
    · rename_i same
      cases before.phase? connection with
      | none => exact Or.inl rfl
      | some phase => exact Or.inr ⟨same, rfl⟩
    · exact Or.inl rfl
  cases moves with
  | idle idle | becomes _ _ idle | ends _ _ idle => exact Or.inl (idle.phase connection)
  | permits idle => exact Or.inl (idle.phase connection)
  | spawns => exact Or.inl rfl
  | opens =>
    have looked : ∀ connection, Server.phase? { before with
        connections := Ordered.insert before.connections ⟨before.connections.length + 1⟩ .new
        live := before.live ++ [⟨before.connections.length + 1⟩] } connection =
          if ⟨before.connections.length + 1⟩ = connection then some .open
          else before.phase? connection := by
      intro connection
      rw [phase?, Server.connection?, Ordered.get?_insert]
      split <;> rfl
    rw [looked]
    split
    · rename_i same
      refine Or.inr (Or.inl ⟨?_, rfl⟩)
      rw [Option.eq_none_iff_forall_ne_some]
      intro phase found
      have bound := housed.opened connection phase found
      rw [← same] at bound
      exact Nat.not_succ_le_self _ bound
    · exact Or.inl rfl
  | closes other closes =>
    by_cases same : other = connection
    · subst same
      rcases (phase?_beginClosing before other).2 other with stays | ⟨wasOpen, closing⟩
      · exact Or.inl stays
      · have added :=
          get?_spawn (before.adjust other (·.beginClosing)) (.purge other) ⟨before.nextTask⟩
        exact Or.inr
          (Or.inr (Or.inl ⟨wasOpen, closing, _, _, added.trans (if_pos rfl), decide_eq_true rfl⟩))
    · left
      change (before.adjust other (·.beginClosing)).phase? connection = _
      rw [phase?_adjust, if_neg same]
  | drains =>
    have drains := beginsDrain before
    rcases drains.phase connection with stays | ⟨wasOpen, closing⟩
    · exact Or.inl stays
    · have listed := List.contains_iff_mem.mpr (housed.served connection .open wasOpen (by decide))
      have added := drains.tasks ⟨before.nextTask⟩
      exact Or.inr (Or.inr (Or.inl ⟨wasOpen, closing, _, _, added.trans (if_pos rfl), listed⟩))
  | purges found _ idle =>
    rcases marked idle with same | ⟨same, closed⟩
    · exact Or.inl same
    · exact Or.inr (Or.inr (Or.inr ⟨closed, _, _, rfl, found, decide_eq_true same⟩))
  | completes _ found idle =>
    rcases marked idle with same | ⟨same, closed⟩
    · exact Or.inl same
    · exact Or.inr (Or.inr (Or.inr ⟨closed, _, _, rfl, found, decide_eq_true same⟩))

/-- A connection that is marked is closed, if it was ever opened. -/
theorem phase?_markClosed_ne_closing (server : Server σ) (id : ConnectionId) :
    (server.markClosed id).phase? id ≠ some .closing := by
  rw [phase?_markClosed, if_pos rfl]
  cases server.phase? id with
  | none => nofun
  | some phase => nofun

/-- A call that is going to close a connection goes on to be so with its next step, until it has
closed it. -/
theorem willClose_advance {connection : ConnectionId} {id : TaskId} {task : Task}
    (found : Ordered.get? server.tasks id = some task) (closes : task.willClose connection = true)
    (closing : (server.advance id).phase? connection = some .closing) :
    ∃ task, Ordered.get? (server.advance id).tasks id = some task ∧
      task.willClose connection = true := by
  cases task with
  | purge other =>
    obtain rfl := of_decide_eq_true closes
    rw [advance, found] at closing
    change (server.purge other).phase? other = some .closing at closing
    unfold purge at closing
    dsimp only at closing
    split at closing
    · rename_i closed
      rw [closed] at closing
      cases closing
    · exact absurd closing (phase?_markClosed_ne_closing _ other)
  | drain connections deadline =>
    rw [advance, found]
    dsimp only
    split
    · exact ⟨_, found, closes⟩
    · exact ⟨_, (get?_become server id _ id).trans (if_pos rfl), closes⟩
  | complete remaining report =>
    cases remaining with
    | nil => cases closes
    | cons other rest =>
      rw [advance, found] at closing ⊢
      rcases List.mem_cons.mp (List.contains_iff_mem.mp closes) with rfl | later
      · exact absurd closing (phase?_markClosed_ne_closing _ connection)
      · exact ⟨_, (get?_become _ id _ id).trans (if_pos rfl), List.contains_iff_mem.mpr later⟩
  | _ => cases closes

/-- A call that is going to close a connection goes on to be so, until it has closed it. -/
theorem willClose_act
    (numbered : ∀ id task, Ordered.get? server.tasks id = some task → id.number < server.nextTask)
    {connection : ConnectionId} {id : TaskId} {task : Task} {action : Action}
    (found : Ordered.get? server.tasks id = some task) (closes : task.willClose connection = true)
    (closing : (server.act action).phase? connection = some .closing) :
    ∃ task, Ordered.get? (server.act action).tasks id = some task ∧
      task.willClose connection = true := by
  cases steps : action.isStepOf id with
  | false =>
    rcases get?_act_of_not_isStepOf numbered found steps with same | woken
    · exact ⟨_, same, closes⟩
    · exact ⟨_, woken, (Task.willClose_permit connection task).trans closes⟩
  | true =>
    obtain rfl := Action.eq_of_isStepOf steps
    exact willClose_advance found closes closing

/-- The step of a start leaves its registration to be withdrawn, if the connection is no longer
open. -/
theorem advance_register {task : TaskId} {connection : ConnectionId} {id : String}
    {operation : Operation} {registration : Registration} {next : Registry}
    (found : Ordered.get? server.tasks task = some (.register connection id operation))
    (opened : server.registry.register connection (sinkOf connection) id operation =
      (.ok registration, next)) :
    (server.phase? connection = some .open ∧ (server.advance task).phase? connection = some .open) ∨
      Ordered.get? (server.advance task).tasks task =
        some (.withdraw connection id registration.id) := by
  rw [advance, found]
  dsimp only
  unfold registerSubscription
  rw [opened]
  dsimp only
  split
  · rename_i isOpen
    exact Or.inl ⟨isOpen, isOpen⟩
  · exact Or.inr (by rw [get?_become, if_pos rfl])

/-- What holds between any two actions. Connections that close have a call that closes them, and
whatever is registered belongs to a connection that is not closed, or to a call that withdraws
it. -/
structure Swept (server : Server σ) : Prop where
  housed : Housed server
  numbered : ∀ id task, Ordered.get? server.tasks id = some task → id.number < server.nextTask
  consistent : server.registry.Consistent
  closing : ∀ connection, server.phase? connection = some .closing →
    ∃ id task, Ordered.get? server.tasks id = some task ∧ task.willClose connection = true
  owned : ∀ registration ∈ server.registry.registered,
      server.phase? registration.connection = some .open ∨
        server.phase? registration.connection = some .closing ∨ ∃ id, Ordered.get? server.tasks id =
        some (.withdraw registration.connection registration.operationId registration.id)

theorem swept_start (engine : Engine σ) (world : World σ) (drainTimeout : Nat) :
    Swept (start engine world drainTimeout) := by
  have sound := sound_start engine world drainTimeout
  refine ⟨sound.housed, sound.tracked.numbered, .empty, ?_, ?_⟩
  · intro connection closing
    cases closing
  · intro registration member
    cases member

theorem Swept.closing_act (swept : Swept server) (action : Action) (connection : ConnectionId)
    (closing : (server.act action).phase? connection = some .closing) :
    ∃ id task, Ordered.get? (server.act action).tasks id = some task ∧
      task.willClose connection = true := by
  rcases (moves_act server action).phase_cases swept.housed connection with
    same | ⟨-, isOpen⟩ | ⟨-, -, begun⟩ | ⟨closed, -⟩
  · obtain ⟨id, task, found, closes⟩ := swept.closing connection (same.symm.trans closing)
    exact ⟨id, willClose_act swept.numbered found closes closing⟩
  · rw [isOpen] at closing
    cases closing
  · exact begun
  · rw [closed] at closing
    cases closing

/-- A registration of a connection that is not closed goes on to be so: what closes the connection
removes it. -/
theorem Swept.kept_act (swept : Swept server) {action : Action} {registration : Registration}
    (member : registration ∈ (server.act action).registry.registered)
    (notClosed : server.phase? registration.connection = some .open ∨
      server.phase? registration.connection = some .closing) :
    (server.act action).phase? registration.connection = some .open ∨
      (server.act action).phase? registration.connection = some .closing := by
  rcases (moves_act server action).phase_cases swept.housed registration.connection with
    same | ⟨-, isOpen⟩ | ⟨-, closing, -⟩ | ⟨-, id, task, rfl, found, closes⟩
  · rw [same]
    exact notClosed
  · exact Or.inl isOpen
  · exact Or.inr closing
  · rw [act, registry_advance, found] at member
    exact absurd rfl (swept.consistent.settle_closes closes registration member)

/-- A registration that is to be withdrawn goes on to be so, until it is. -/
theorem Swept.withdraw_act (swept : Swept server) {action : Action} {registration : Registration}
    {id : TaskId} (member : registration ∈ (server.act action).registry.registered)
    (found : Ordered.get? server.tasks id =
      some (.withdraw registration.connection registration.operationId registration.id)) :
    Ordered.get? (server.act action).tasks id =
      some (.withdraw registration.connection registration.operationId registration.id) := by
  cases steps : action.isStepOf id with
  | false =>
    rcases get?_act_of_not_isStepOf swept.numbered found steps with same | woken
    · exact same
    · exact woken
  | true =>
    obtain rfl := Action.eq_of_isStepOf steps
    rw [act, registry_advance, found] at member
    change registration ∈ (server.registry.unregister registration.id).2.registered at member
    rw [(swept.consistent.keeps_unregister registration.id).registered] at member
    exact absurd rfl (of_decide_eq_true (List.mem_filter.mp member).2)

theorem Swept.owned_act (swept : Swept server) (action : Action) (registration : Registration)
    (member : registration ∈ (server.act action).registry.registered) :
    (server.act action).phase? registration.connection = some .open ∨
      (server.act action).phase? registration.connection = some .closing ∨
      ∃ id, Ordered.get? (server.act action).tasks id =
        some (.withdraw registration.connection registration.operationId registration.id) := by
  rcases mem_registered_act swept.consistent member with old | ⟨id, task, rfl, found, makes⟩
  · rcases swept.owned registration old with isOpen | closing | ⟨id, found⟩
    · exact or_assoc.mp (Or.inl (swept.kept_act member (Or.inl isOpen)))
    · exact or_assoc.mp (Or.inl (swept.kept_act member (Or.inr closing)))
    · exact Or.inr (Or.inr ⟨id, swept.withdraw_act member found⟩)
  · obtain ⟨operation, rfl⟩ := makes.begun
    rcases advance_register found (makes.accepted _ _ operation rfl) with ⟨-, isOpen⟩ | withdraws
    · exact Or.inl isOpen
    · exact Or.inr (Or.inr ⟨id, withdraws⟩)

theorem Swept.act (swept : Swept server) (action : Action) : Swept (server.act action) :=
  ⟨swept.housed.act action, (moves_act server action).numbered swept.numbered,
    consistent_act swept.consistent action, swept.closing_act action, swept.owned_act action⟩

/-- Between any two actions of a run, nothing is left behind. -/
theorem Swept.run (swept : Swept server) (actions : List Action) : Swept (server.run actions) := by
  induction actions generalizing server with
  | nil => exact swept
  | cons action rest ih => exact ih (swept.act action)

/-- A connection without registrations has no operations under any name. -/
theorem operations_eq_nil {registry : Registry} (consistent : registry.Consistent)
    {connection : ConnectionId}
    (none : ∀ registration ∈ registry.registered, registration.connection ≠ connection) :
    registry.operations connection = [] := by
  rw [List.eq_nil_iff_forall_not_mem]
  intro name member
  cases found : Ordered.get? (registry.operationsOf connection) name with
  | none => exact (Ordered.get?_eq_none_iff _ _).mp found member
  | some id =>
    obtain ⟨registration, inside, -, place, -⟩ := (consistent.indexed connection name id).mp found
    exact none registration inside place

/-- In whatever order calls take their steps, no registration is left behind. A closed connection
has none, unless a start on it is about to withdraw it. Once every start has returned, whatever is
registered belongs to a connection that is open, or closing with the call that closes it still to
come; and once every call has returned, to an open one. -/
theorem run_strands_no_registration (engine : Engine σ) (world : World σ) (drainTimeout : Nat)
    (actions : List Action) :
    let server := (start engine world drainTimeout).run actions
    (∀ connection, server.phase? connection = some .closed →
        (∀ id name registration,
          Ordered.get? server.tasks id ≠ some (.withdraw connection name registration)) →
        server.registry.operations connection = [] ∧
          ∀ registration ∈ server.registry.registered, registration.connection ≠ connection) ∧
    ((∀ id connection name registration,
          Ordered.get? server.tasks id ≠ some (.withdraw connection name registration)) →
        ∀ registration ∈ server.registry.registered,
          server.phase? registration.connection = some .open ∨
            server.phase? registration.connection = some .closing ∧
              ∃ id task, Ordered.get? server.tasks id = some task ∧
                task.willClose registration.connection = true) ∧
    ((∀ id task, Ordered.get? server.tasks id = some task → task.isCall = false) →
      ∀ registration ∈ server.registry.registered,
        server.phase? registration.connection = some .open) := by
  intro server
  have swept : Swept server := (swept_start engine world drainTimeout).run actions
  refine ⟨?_, ?_, ?_⟩
  · intro connection closed settled
    have none : ∀ registration ∈ server.registry.registered,
        registration.connection ≠ connection := by
      rintro registration member rfl
      rcases swept.owned registration member with isOpen | closing | ⟨id, found⟩
      · rw [closed] at isOpen
        cases isOpen
      · rw [closed] at closing
        cases closing
      · exact settled id _ _ found
    exact ⟨operations_eq_nil swept.consistent none, none⟩
  · intro settled registration member
    rcases swept.owned registration member with isOpen | closing | ⟨id, found⟩
    · exact Or.inl isOpen
    · exact Or.inr ⟨closing, swept.closing _ closing⟩
    · exact absurd found (settled id _ _ _)
  · intro returned registration member
    rcases swept.owned registration member with isOpen | closing | ⟨id, found⟩
    · exact isOpen
    · obtain ⟨id, task, found, closes⟩ := swept.closing _ closing
      have ended := returned id task found
      rw [Task.isCall_of_willClose closes] at ended
      cases ended
    · have ended := returned id _ found
      cases ended

end Server

namespace Chairlift

open Server Syntax

/-- Whether a chairlift runs, once or at each change. -/
def schema : TypeSystem where
  query := "Query"
  mutation := none
  subscription := some "Subscription"
  types :=
    [("Query", .object "Query" none [("runs", ⟨"runs", none, .named "Boolean", []⟩)]),
      ("Subscription",
        .object "Subscription" none [("runs", ⟨"runs", none, .named "Boolean", []⟩)]),
      ("Boolean", .scalar "Boolean" none)]
  directives := []

def engine : Engine Unit := ⟨schema, ⟨MockRules.standard, .standard⟩, []⟩

def world : World Unit := ⟨.ofSeed 0, (), .new⟩

def definition (kind : OperationKind) : OperationDefinition :=
  ⟨kind, none, [], [], [.field none "runs" [] [] []]⟩

def document (kind : OperationKind) : Document := ⟨[definition kind], []⟩

def operation (kind : OperationKind) : Operation := ⟨kind, none, [⟨"runs", none, [], []⟩], []⟩

/-- The chairlift can be asked about and watched, but not changed. -/
theorem sound {kind : OperationKind} (known : kind ≠ .mutation) :
    schema.documentSound (document kind) = true := by
  have selected : ∀ root ∈ schema.root? kind,
      schema.selectionSound [] [] root (definition kind).selection = true := by
    cases kind with
    | mutation => exact absurd rfl known
    | query | subscription =>
      rintro root ⟨⟩
      simp [definition, TypeSystem.selectionSound]
      decide
  have merged : TypeSystem.mergeable [] 2 (definition kind).selection = true := by
    simp [definition, TypeSystem.mergeable, TypeSystem.levelFields, TypeSystem.distinctKeys]
  have sound : schema.operationSound (document kind) (definition kind) = true := by
    cases kind with
    | mutation => exact absurd rfl known
    | query =>
      show (_ && schema.selectionSound [] [] "Query" (definition .query).selection &&
        TypeSystem.mergeable [] 2 (definition .query).selection) = true
      rw [selected "Query" rfl, merged]
      decide
    | subscription =>
      show (_ && schema.selectionSound [] [] "Subscription" (definition .subscription).selection &&
        TypeSystem.mergeable [] 2 (definition .subscription).selection) = true
      rw [selected "Subscription" rfl, merged]
      decide
  show (_ && (schema.operationSound (document kind) (definition kind) && true)) = true
  rw [sound]
  cases kind <;> decide

theorem parsed {kind : OperationKind} (known : kind ≠ .mutation) {text : String}
    (read : Document.parse? text = some (document kind)) :
    schema.parseOperation text none none = .ok (operation kind) := by
  have lowered : schema.lowerOperation (document kind) (definition kind) [] = operation kind := by
    simp [document, definition, TypeSystem.lowerOperation, lowerSelection]
    cases kind with
    | mutation => exact absurd rfl known
    | query | subscription => rfl
  rw [← lowered]
  exact TypeSystem.parseOperation_of_sound read (sound known) rfl rfl

def watch : Request := ⟨"subscription{runs}", none, none⟩

/-- Who watches on an open connection is to be told at each change. -/
theorem handled_watch {server : Server Unit} {connection : ConnectionId}
    (same : server.engine = engine) (isOpen : server.phase? connection = some .open)
    (name : String) :
    server.act (.handle connection (.start name watch)) =
      (server.spawn (.register connection name (operation .subscription))).2 := by
  rw [act]
  unfold handle startOperation
  dsimp only
  rw [if_neg (not_not.mpr isOpen), same]
  have accepted : engine.schema.parseOperation watch.query watch.operationName watch.bindings =
    .ok (operation .subscription) := parsed (by decide) rfl
  rw [accepted]
  rfl

def opened : Server Unit := (start engine world 1000).run [.openConnection, .openConnection]

def watched : Server Unit := (opened.spawn (.register ⟨1⟩ "mine" (operation .subscription))).2

def begun : Server Unit := (watched.spawn (.register ⟨2⟩ "mine" (operation .subscription))).2

def starts : List Action :=
  [.openConnection, .openConnection] ++
    .handle ⟨1⟩ (.start "mine" watch) :: .handle ⟨2⟩ (.start "mine" watch) :: []

theorem run_starts : (start engine world 1000).run starts = begun := by
  have first : opened.act (.handle ⟨1⟩ (.start "mine" watch)) = watched :=
    handled_watch rfl rfl "mine"
  have second : watched.act (.handle ⟨2⟩ (.start "mine" watch)) = begun :=
    handled_watch rfl rfl "mine"
  rw [starts, run_append, ← opened, run_cons, first, run_cons, second]
  rfl

/-- One of them is gone before it is registered, and its connection is purged too early. -/
def later : List Action := [.close ⟨1⟩, .advance ⟨2⟩, .advance ⟨0⟩, .advance ⟨1⟩, .advance ⟨0⟩]

def actions : List Action :=
  [.openConnection, .openConnection] ++
    .handle ⟨1⟩ (.start "mine" watch) :: .handle ⟨2⟩ (.start "mine" watch) :: later

theorem run_actions : (start engine world 1000).run actions = begun.run later := by
  have same : actions = starts ++ later := rfl
  rw [same, run_append, run_starts]

/-- Just before its last step, the registration of the client that is gone was there, on a closed
connection. -/
theorem run_strands_no_registration_gone :
    ((begun.run (later.take 4)).phase? ⟨1⟩ = some .closed ∧
      (begun.run (later.take 4)).registry.operations ⟨1⟩ = ["mine"]) ∧
    (begun.run later).phase? ⟨1⟩ = some .closed ∧ (begun.run later).registry.operations ⟨1⟩ = [] ∧
      (begun.run later).registry.registered.length = 1 ∧
      ∀ registration ∈ (begun.run later).registry.registered,
        (begun.run later).phase? registration.connection = some .open := by
  have returned : ∀ id, Ordered.get? (begun.run later).tasks id = none := fun _ => rfl
  have closed : (begun.run later).phase? ⟨1⟩ = some .closed := rfl
  have stranded := run_strands_no_registration engine world 1000 actions
  rw [run_actions] at stranded
  obtain ⟨none, -, isOpen⟩ := stranded
  refine ⟨⟨rfl, rfl⟩, closed, (none ⟨1⟩ closed ?_).1, rfl, isOpen ?_⟩
  · intro id name registration
    rw [returned]
    nofun
  · intro id task found
    rw [returned] at found
    cases found

end Chairlift

end MockGraph
