import MockGraph.Proofs.Server.Evacuation
import MockGraph.Proofs.Subscription.Roster
set_option autoImplicit false

namespace MockGraph

/-- The registrations of a connection in their order. -/
def Registry.registeredOn (registry : Registry) (connection : ConnectionId) : List Registration :=
  registry.registered.filter (·.connection = connection)

/-- What a drain did to a connection: whether that was closed already, what was registered on it,
and what the drain queued on it. -/
structure Dismissal where
  connection : ConnectionId
  closed : Bool
  purged : List Registration
  queued : List ServerMessage

/-- The subscriptions that a drain has counted. -/
def Task.completed : Task → Nat
  | complete _ report | drained report => report.subscriptionsCompleted
  | _ => 0

theorem Task.completed_permit (task : Task) : task.permit.completed = task.completed := by
  cases task <;> rfl

namespace Registry

variable {registry : Registry}

theorem InOrder.unregisterOperation (inOrder : InOrder registry) (consistent : Consistent registry)
    (connection : ConnectionId) (operationId : String) :
    InOrder (registry.unregisterOperation connection operationId).2 := by
  unfold Registry.unregisterOperation
  split
  · exact inOrder
  · exact inOrder.unregister consistent _

/-- The step of a task keeps the names of each connection in order. -/
theorem InOrder.settle (inOrder : InOrder registry) (consistent : Consistent registry)
    (task : Task) : InOrder (registry.settle task) := by
  cases task with
  | purge connection => exact inOrder.purge consistent connection
  | withdraw connection id registration => exact inOrder.unregister consistent registration
  | unregister connection id => exact inOrder.unregisterOperation consistent connection id
  | complete remaining report =>
    cases remaining with
    | nil => exact inOrder
    | cons connection rest => exact inOrder.purge consistent connection
  | register connection id operation =>
    rw [Registry.settle]
    rcases register_cases registry connection (Server.sinkOf connection) id operation with
      ⟨error, refused⟩ | ⟨registration, next, accepted, opens, -⟩
    · rw [refused]
      exact inOrder
    · rw [accepted]
      exact inOrder.opens consistent opens
  | query | request | answered | drain | drained => exact inOrder

/-- The number of a registration that is closed. It is not given again. -/
structure Spent (registry : Registry) (id : RegistrationId) : Prop where
  given : id.number < registry.nextId
  closed : ∀ registration ∈ registry.registered, registration.id ≠ id

theorem Spent.settle {id : RegistrationId} (spent : Spent registry id)
    (consistent : Consistent registry) (task : Task) : Spent (registry.settle task) id := by
  rcases settle_cases consistent task with ⟨keep, keeps⟩ | ⟨made, makes⟩
  · refine ⟨by rw [keeps.nextId]; exact spent.given, ?_⟩
    rw [keeps.registered]
    exact fun registration member => spent.closed registration (List.mem_filter.mp member).1
  · refine ⟨by rw [makes.opens.nextId]; exact Nat.lt_succ_of_lt spent.given, ?_⟩
    rw [consistent.registered_opens makes.opens]
    intro registration member same
    rcases List.mem_append.mp member with old | new
    · exact spent.closed registration old same
    · rw [List.mem_singleton.mp new, makes.opens.number] at same
      rw [← same] at spent
      exact absurd spent.given (Nat.lt_irrefl _)

end Registry

namespace Server

variable {σ : Type} {server before after : Server σ} {connection : ConnectionId}

/-- What holds of the registry goes on to hold with every action, if the steps of tasks keep it. -/
theorem registry_kept (kept : Registry → Prop) (steps : ∀ task, kept (server.registry.settle task))
    (now : kept server.registry) (action : Action) : kept (server.act action).registry := by
  by_cases advances : ∃ id, action = .advance id
  · obtain ⟨id, rfl⟩ := advances
    rw [act, registry_advance]
    cases Ordered.get? server.tasks id with
    | none => exact now
    | some task => exact steps task
  · rw [registry_act server (not_exists.mp advances)]
    exact now

theorem spent_act {id : RegistrationId} (swept : Swept server) (spent : server.registry.Spent id)
    (action : Action) : (server.act action).registry.Spent id :=
  registry_kept (·.Spent id) (spent.settle swept.consistent) spent action

theorem spent_run {id : RegistrationId} (swept : Swept server) (spent : server.registry.Spent id)
    (actions : List Action) : (server.run actions).registry.Spent id := by
  induction actions generalizing server with
  | nil => exact spent
  | cons action rest ih =>
    exact ih (swept.act action) (spent_act swept spent action)

theorem outbox_run_closed (housed : Housed server)
    (closed : server.phase? connection = some .closed) (actions : List Action) :
    (server.run actions).outbox connection = server.outbox connection := by
  induction actions generalizing server with
  | nil => rfl
  | cons action rest ih =>
    obtain ⟨messages, queues, -⟩ := sends_act housed action connection
    rw [run_cons, ih (housed.act action) (closed_act housed action closed), queues.outbox,
      queues.closed closed, List.append_nil]

/-- What a connection gets when it is told that operations are complete. -/
theorem outbox_completes (server : Server σ) (known : server.phase? connection ≠ none)
    (attached : (server.connection? connection).map (·.attached) ≠ some false)
    (names : List String) :
    (names.foldl (fun server name => server.send connection (.complete name)) server).outbox
        connection =
      server.outbox connection ++
        if server.phase? connection = some .closed then [] else names.map .complete := by
  induction names generalizing server with
  | nil => simp
  | cons name rest ih =>
    have idle := idle_send server connection (.complete name)
    rw [List.foldl_cons,
      ih _ (by rw [idle.phase]; exact known) (by rw [idle.attached]; exact attached), idle.phase]
    split
    · rename_i closed
      rw [outbox_send_closed closed]
    · rename_i notClosed
      obtain ⟨phase, found⟩ := Option.ne_none_iff_exists'.mp known
      have unclosed : phase ≠ .closed := fun same => notClosed (same ▸ found)
      rw [outbox_send found unclosed attached, List.append_assoc]
      rfl

theorem outbox_send_other {other : ConnectionId} (different : connection ≠ other)
    (message : ServerMessage) :
    (server.send connection message).outbox other = server.outbox other := by
  rw [outbox, send, connection?_adjust, if_neg different, outbox]

/-- A drain closes a connection: what is registered on it goes, and the connection is told so under
each name in order, unless it was closed before. Then only late starts had anything registered,
which they were about to take back. No other connection gets anything. -/
structure Dismisses (connection : ConnectionId) (before after : Server σ) : Prop where
  queued : gained connection before after = if before.phase? connection = some .closed then []
    else
      (before.registry.registeredOn connection).map fun registration =>
        .complete registration.operationId
  others : ∀ other, other ≠ connection → after.outbox other = before.outbox other
  closed : after.phase? connection = some .closed
  spent : ∀ registration ∈ before.registry.registeredOn connection,
      after.registry.Spent registration.id
  late : before.phase? connection = some .closed →
      ∀ registration ∈ before.registry.registeredOn connection, ∃ id, Ordered.get? before.tasks id =
        some (.withdraw connection registration.operationId registration.id)

/-- What holds between any two actions: drains reach all connections, and each connection has its
names in order. -/
structure Dismissive (server : Server σ) : Prop where
  evacuates : Evacuates server
  inOrder : server.registry.InOrder

theorem dismissive_start (engine : Engine σ) (world : World σ) (drainTimeout : Nat) :
    Dismissive (start engine world drainTimeout) :=
  ⟨evacuates_start engine world drainTimeout, Registry.inOrder_empty⟩

theorem Dismissive.act (dismissive : Dismissive server) (action : Action) :
    Dismissive (server.act action) :=
  ⟨dismissive.evacuates.act action,
    registry_kept Registry.InOrder (dismissive.inOrder.settle dismissive.evacuates.swept.consistent)
      dismissive.inOrder action⟩

theorem Dismissive.run (dismissive : Dismissive server) (actions : List Action) :
    Dismissive (server.run actions) := by
  induction actions generalizing server with
  | nil => exact dismissive
  | cons action rest ih => exact ih (dismissive.act action)

/-- The names that a purge gives are those of the registrations in order. -/
theorem Dismissive.purged (dismissive : Dismissive server) (connection : ConnectionId) :
    (server.registry.purge connection).1 =
      (server.registry.registeredOn connection).map (·.operationId) :=
  (Registry.purge_names _ _).trans (dismissive.inOrder.operations_eq connection)

variable {drain : TaskId} {rest : List ConnectionId} {report : DrainReport}

theorem Dismissive.advance (dismissive : Dismissive server)
    (found : Ordered.get? server.tasks drain = some (.complete (connection :: rest) report)) :
    Dismisses connection server (server.act (.advance drain)) ∧
      Ordered.get? (server.act (.advance drain)).tasks drain = some (.complete rest { report with
        subscriptionsCompleted :=
          report.subscriptionsCompleted + (server.registry.registeredOn connection).length }) := by
  have swept := dismissive.evacuates.swept
  have known : server.phase? connection ≠ none :=
    (dismissive.evacuates.begun drain _ _ found rfl).2 connection List.mem_cons_self
  have names := dismissive.purged connection
  have keeps := swept.consistent.keeps_purge connection
  have step : server.act (.advance drain) =
      (server.completeConnection connection).2.become drain
        (.complete rest { report with
          subscriptionsCompleted :=
            report.subscriptionsCompleted + (server.completeConnection connection).1 }) := by
    rw [Server.act, Server.advance, found]
  have registry : (server.act (.advance drain)).registry =
      (server.registry.purge connection).2 := by
    rw [Server.act, registry_advance, found]
    rfl
  rw [step] at registry ⊢
  unfold completeConnection at registry ⊢
  rcases purge : server.registry.purge connection with ⟨purged, next⟩
  rw [purge] at names keeps registry
  dsimp only at names keeps registry ⊢
  have count : purged.length = (server.registry.registeredOn connection).length := by
    rw [names, List.length_map]
  have idle : Idle { server with registry := next }
      (purged.foldl (fun (server : Server σ) name => server.send connection (.complete name))
        { server with registry := next }) :=
    idle_foldl purged (fun server name => idle_send server connection _) _
  refine ⟨⟨?_, ?_, ?_, ?_, ?_⟩, ?_⟩
  · have queued :=
      outbox_completes { server with registry := next } known (swept.housed.attached connection)
        purged
    refine gained_eq
      ⟨(outbox_markClosed _ connection connection).trans ?_, fun closed => if_pos closed⟩
    rw [queued, names, List.map_map]
    rfl
  · intro other different
    refine (outbox_markClosed _ connection other).trans ?_
    exact outbox_foldl purged (fun server name => outbox_send_other (Ne.symm different) _) _
  · refine (phase?_markClosed _ connection connection).trans ?_
    obtain ⟨phase, present⟩ := Option.ne_none_iff_exists'.mp known
    rw [if_pos rfl, idle.phase,
      show Server.phase? { server with registry := next } connection = some phase from present]
    rfl
  · intro registration member
    obtain ⟨inside, here⟩ := List.mem_filter.mp member
    rw [registry]
    refine ⟨?_, ?_⟩
    · rw [keeps.nextId]
      exact swept.consistent.below registration inside
    · rw [keeps.registered]
      intro other kept same
      obtain ⟨there, elsewhere⟩ := List.mem_filter.mp kept
      rw [swept.consistent.eq_of_id_eq there inside same] at elsewhere
      exact of_decide_eq_true elsewhere (of_decide_eq_true here)
  · intro closed registration member
    obtain ⟨inside, here⟩ := List.mem_filter.mp member
    obtain rfl := of_decide_eq_true here
    rcases swept.owned registration inside with isOpen | closing | withdraws
    · rw [closed] at isOpen
      cases isOpen
    · rw [closed] at closing
      cases closing
    · exact withdraws
  · rw [get?_become, if_pos rfl, count]

/-- What an action does to a connection as a step of a drain. -/
def dismissed (drain : TaskId) (server : Server σ) (action : Action) : List Dismissal :=
  match action.isStepOf drain, Ordered.get? server.tasks drain with
  | true, some (.complete (connection :: _) _) =>
    [⟨connection, server.phase? connection = some .closed, server.registry.registeredOn connection,
      gained connection server (server.act action)⟩]
  | _, _ => []

/-- What the steps of a drain do, one connection after the other. -/
def dismissals (drain : TaskId) : Server σ → List Action → List Dismissal
  | _, [] => []
  | server, action :: rest =>
    dismissed drain server action ++ dismissals drain (server.act action) rest

/-- An action closes a connection as a step of a drain, or does nothing of the kind. -/
theorem dismissed_cases (drain : TaskId) (server : Server σ) (action : Action) :
    (action = .advance drain ∧ ∃ connection rest report,
      Ordered.get? server.tasks drain = some (.complete (connection :: rest) report) ∧
      dismissed drain server action = [⟨connection, server.phase? connection = some .closed,
        server.registry.registeredOn connection, gained connection server (server.act action)⟩]) ∨
    dismissed drain server action = [] ∧ ∀ connection rest report, action = .advance drain →
      Ordered.get? server.tasks drain ≠ some (.complete (connection :: rest) report) := by
  unfold dismissed
  split
  · rename_i steps found
    exact Or.inl ⟨Action.eq_of_isStepOf steps, _, _, _, found, rfl⟩
  · rename_i other
    refine Or.inr ⟨rfl, fun connection rest report same found => ?_⟩
    subst same
    exact other connection rest report (decide_eq_true rfl) found

/-- The subscriptions that a drain has counted up to now. -/
def completed (server : Server σ) (drain : TaskId) : Nat :=
  ((Ordered.get? server.tasks drain).map Task.completed).getD 0

theorem Dismissive.completed_act (dismissive : Dismissive server) (drain : TaskId)
    (action : Action) :
    (server.act action).completed drain =
      server.completed drain + ((dismissed drain server action).flatMap (·.purged)).length := by
  rcases dismissed_cases drain server action with
    ⟨rfl, connection, rest, report, found, done⟩ | ⟨none, other⟩
  · rw [completed, (dismissive.advance found).2, completed, found, done, List.flatMap_singleton]
    rfl
  · rw [none]
    show _ = server.completed drain
    unfold completed
    rcases (moves_act server action).lookup drain with
      same | woken | ⟨rfl, task, known, goes⟩ | ⟨new, task, now, arises⟩
    · rw [same]
    · rw [woken, Option.map_map, Function.comp_def, funext Task.completed_permit]
    · rw [known]
      generalize Ordered.get? (server.act (.advance drain)).tasks drain = next at goes
      cases goes with
      | on follows => cases follows <;> rfl
      | away ends => cases ends <;> rfl
      | completes => exact absurd known (other _ _ _ rfl)
    · have unknown : Ordered.get? server.tasks drain = .none := by
        rw [Option.eq_none_iff_forall_ne_some]
        intro old known
        have given := dismissive.evacuates.swept.numbered drain old known
        rw [← new] at given
        exact Nat.lt_irrefl _ given
      rw [now, unknown]
      cases arises with
      | accepted accepts => cases task <;> first | rfl | cases accepts
      | purge | drain => rfl

theorem Dismissive.completed_run (dismissive : Dismissive server) (drain : TaskId)
    (actions : List Action) :
    (server.run actions).completed drain =
      server.completed drain + ((dismissals drain server actions).flatMap (·.purged)).length := by
  induction actions generalizing server with
  | nil => rfl
  | cons action rest ih =>
    rw [run_cons, ih (dismissive.act action), dismissive.completed_act drain action, dismissals,
      List.flatMap_append, List.length_append, Nat.add_assoc]

/-- Each connection that was not closed before is told of all that was registered on it. -/
theorem Dismissive.queued (dismissive : Dismissive server) {drain : TaskId} {actions : List Action}
    {step : Dismissal} (member : step ∈ dismissals drain server actions) :
    step.queued =
      if step.closed then []
      else step.purged.map fun registration => .complete registration.operationId := by
  induction actions generalizing server with
  | nil => cases member
  | cons action rest ih =>
    rcases List.mem_append.mp member with now | later
    · rcases dismissed_cases drain server action with
        ⟨rfl, connection, others, report, found, done⟩ | ⟨none, -⟩
      · rw [done, List.mem_singleton] at now
        subst now
        have dismisses := (dismissive.advance found).1
        simpa using dismisses.queued
      · rw [none] at now
        cases now
    · exact ih (dismissive.act action) later

/-- The messages that a drain queues, and the registrations that it purges too late to tell, are all
that it purges. -/
theorem length_purged {steps : List Dismissal} (queued : ∀ step ∈ steps, step.queued =
      if step.closed then []
      else step.purged.map fun registration => .complete registration.operationId) :
    (steps.flatMap (·.purged)).length =
      (steps.flatMap (·.queued)).length +
        ((steps.filter (·.closed)).flatMap (·.purged)).length := by
  induction steps with
  | nil => rfl
  | cons step rest ih =>
    have now := queued step List.mem_cons_self
    have later := ih fun other member => queued other (List.mem_cons_of_mem _ member)
    rw [List.flatMap_cons, List.flatMap_cons, List.length_append, List.length_append, later,
      List.filter_cons, now]
    cases step.closed with
    | true =>
      rw [if_pos rfl, if_pos rfl, List.flatMap_cons, List.length_append]
      simp only [List.length_nil]
      omega
    | false =>
      rw [if_neg Bool.false_ne_true, if_neg Bool.false_ne_true, List.length_map]
      omega

/-- A drain completes what it purges, in whatever order calls take their steps and however many
drains there are. When it comes to a connection that is not closed, that is told once under the name
of each of its registrations in their order, and gets nothing after that. No registration is purged
again. The drain counts the messages that it queued, but also the registrations on connections that
were closed before, which are not told. All this is where transports stay attached: none of the
actions drops the receiver of a connection. -/
theorem drain_completes_subscriptions (engine : Engine σ) (world : World σ) (drainTimeout : Nat)
    (actions : List Action) (drain : TaskId) (report : DrainReport)
    (drained : Ordered.get? ((start engine world drainTimeout).run actions).tasks drain =
      some (.drained report)) :
    let first := start engine world drainTimeout
    let steps := dismissals drain first actions
    (report.subscriptionsCompleted =
        (steps.flatMap (·.queued)).length + ((steps.filter (·.closed)).flatMap (·.purged)).length ∧
      ∀ step ∈ steps, step.queued =
        if step.closed then []
        else step.purged.map fun registration => .complete registration.operationId) ∧
    ∀ front drain connection rest sofar,
      Ordered.get? (first.run front).tasks drain = some (.complete (connection :: rest) sofar) →
      let before := first.run front
      let after := before.act (.advance drain)
      Dismisses connection before after ∧
        ∀ later, (after.run later).outbox connection = after.outbox connection ∧
          ∀ registration ∈ before.registry.registeredOn connection,
            (after.run later).registry.Spent registration.id := by
  intro first steps
  have dismissive : Dismissive first := dismissive_start engine world drainTimeout
  refine ⟨?_, ?_⟩
  · have queued : ∀ step ∈ steps, step.queued =
        if step.closed then []
        else step.purged.map fun registration => .complete registration.operationId :=
      fun step member => dismissive.queued member
    have counted := dismissive.completed_run drain actions
    rw [completed, drained, length_purged queued] at counted
    exact ⟨counted.trans (Nat.zero_add _), queued⟩
  · intro front drain connection rest sofar found before after
    have ready := dismissive.run front
    have dismisses := (ready.advance found).1
    have swept : Swept after := (ready.act (.advance drain)).evacuates.swept
    refine ⟨dismisses, fun later => ⟨outbox_run_closed swept.housed dismisses.closed later, ?_⟩⟩
    intro registration member
    exact spent_run swept (dismisses.spent registration member) later

theorem dismissals_append (drain : TaskId) (server : Server σ) (front back : List Action) :
    dismissals drain server (front ++ back) =
      dismissals drain server front ++ dismissals drain (server.run front) back := by
  induction front generalizing server with
  | nil => rfl
  | cons action rest ih =>
    rw [List.cons_append, dismissals, dismissals, run_cons, ih, List.append_assoc]

end Server

namespace Chairlift

open Server

theorem dismissals_starts (rest : List Action) :
    dismissals ⟨2⟩ (start engine world 1000) (starts ++ rest) = dismissals ⟨2⟩ begun rest := by
  rw [dismissals_append, run_starts]
  rfl

/-- The client that was registered in time is told, and this is counted. -/
theorem drain_completes_subscriptions_registered :
    Ordered.get? ((start engine world 1000).run (starts ++ evacuation)).tasks ⟨2⟩ =
        some (.drained ⟨2, 1, false⟩) ∧
      (dismissals ⟨2⟩ (start engine world 1000) (starts ++ evacuation)).flatMap (·.queued) =
        [.complete "mine"] ∧
      ∀ step ∈ dismissals ⟨2⟩ begun evacuation, step.queued =
        if step.closed then []
        else step.purged.map fun registration => .complete registration.operationId := by
  have drained : Ordered.get? ((start engine world 1000).run (starts ++ evacuation)).tasks ⟨2⟩ =
      some (.drained ⟨2, 1, false⟩) := by
    rw [run_append, run_starts]
    rfl
  obtain ⟨⟨-, queued⟩, -⟩ :=
    drain_completes_subscriptions engine world 1000 (starts ++ evacuation) ⟨2⟩ _ drained
  rw [dismissals_starts] at queued ⊢
  exact ⟨drained, rfl, queued⟩

/-- A drain begins while both clients are still to be registered, and one of them leaves. It is
registered when its connection is closed, and the drain comes to that before the start takes it
back. -/
def overtaken : List Action :=
  [.beginDrain, .close ⟨1⟩, .advance ⟨3⟩, .advance ⟨0⟩, .advance ⟨2⟩, .advance ⟨2⟩, .advance ⟨2⟩,
    .advance ⟨2⟩]

/-- The drain has told nobody, and says that it completed a subscription. -/
theorem refused_complete_counted :
    ∃ report,
      Ordered.get? ((start engine world 1000).run (starts ++ overtaken)).tasks ⟨2⟩ =
          some (.drained report) ∧
        report.subscriptionsCompleted ≠
          ((dismissals ⟨2⟩ (start engine world 1000) (starts ++ overtaken)).flatMap
            (·.queued)).length := by
  rw [run_append, run_starts, dismissals_starts]
  exact ⟨⟨2, 1, false⟩, rfl, by decide⟩

end Chairlift

end MockGraph
