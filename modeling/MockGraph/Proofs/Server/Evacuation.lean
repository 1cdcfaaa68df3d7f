import MockGraph.Proofs.Server.Rejection
set_option autoImplicit false

namespace MockGraph

namespace Task

/-- The connections that a drain has still to close. -/
def toClose? : Task → Option (List ConnectionId)
  | drain connections _ | complete connections _ => some connections
  | drained _ => some []
  | _ => none

/-- A start of a subscription that has not returned. -/
def isStart : Task → Bool
  | register _ _ _ | withdraw _ _ _ => true
  | _ => false

theorem toClose?_permit (task : Task) : task.permit.toClose? = task.toClose? := by
  cases task <;> rfl

end Task

namespace Server

variable {σ : Type} {server before after : Server σ} {connection : ConnectionId}

theorem Accepts.toClose? {task : Task} (accepts : server.Accepts task) : task.toClose? = none := by
  cases task <;> first | rfl | cases accepts

theorem draining_act (draining : server.draining = true) (action : Action) :
    (server.act action).draining = true := by
  cases drains : action.isDrain with
  | false => rw [(moves_act server action).draining drains, draining]
  | true =>
    cases action with
    | beginDrain => exact (beginsDrain server).draining
    | _ => cases drains

/-- From when a drain begins, no connection is new: one that is not closed was not closed before. -/
theorem notClosed_of_act (housed : Housed server) {action : Action} {phase : Phase}
    (draining : (server.act action).draining = true)
    (found : (server.act action).phase? connection = some phase) (notClosed : phase ≠ .closed) :
    (server.act action).phase? connection = some .closing ∧
      ∃ old, server.phase? connection = some old ∧ old ≠ .closed := by
  have moves := moves_act server action
  have closing : phase = .closing := by
    cases phase with
    | «open» => exact absurd found ((housed.moves moves).shut draining connection)
    | closing => rfl
    | closed => exact absurd rfl notClosed
  subst closing
  refine ⟨found, ?_⟩
  rcases moves.phase_cases housed connection with same | ⟨-, isOpen⟩ | ⟨wasOpen, -⟩ | ⟨closed, -⟩
  · exact ⟨.closing, same.symm.trans found, notClosed⟩
  · rw [found] at isOpen
    cases isOpen
  · exact ⟨.open, wasOpen, nofun⟩
  · rw [found] at closed
    cases closed

theorem beginDrain_task (server : Server σ) : server.beginDrain.1 = ⟨server.nextTask⟩ := by
  obtain ⟨same, -⟩ := foldl_beginClosing server.live { server with draining := true }
  have number := congrArg Server.nextTask same
  exact congrArg TaskId.mk number

theorem openConnection_known (server : Server σ) {id : ConnectionId}
    (opened : server.openConnection.1 = .ok id) : server.openConnection.2.phase? id ≠ none := by
  unfold openConnection at opened ⊢
  split at opened
  · cases opened
  · rename_i calm
    obtain rfl := Except.ok.inj opened
    rw [if_neg calm, phase?, connection?, Ordered.get?_insert, if_pos rfl]
    exact Option.some_ne_none _

theorem draining_run (draining : server.draining = true) (actions : List Action) :
    (server.run actions).draining = true := by
  induction actions generalizing server with
  | nil => exact draining
  | cons action rest ih => exact ih (draining_act draining action)

theorem notClosed_of_run (housed : Housed server) (draining : server.draining = true)
    {actions : List Action} {phase : Phase}
    (found : (server.run actions).phase? connection = some phase) (notClosed : phase ≠ .closed) :
    ∃ old, server.phase? connection = some old ∧ old ≠ .closed := by
  induction actions generalizing server with
  | nil => exact ⟨phase, found, notClosed⟩
  | cons action rest ih =>
    have later := draining_act draining action
    obtain ⟨middle, known, notYet⟩ := ih (housed.act action) later found
    exact (notClosed_of_act housed later known notYet).2

/-- What holds between any two actions. Every drain has all connections still before it that are not
closed, and no others than were opened. A connection is served until it is closed. -/
structure Evacuates (server : Server σ) : Prop where
  swept : Swept server
  served : ∀ id ∈ server.live, ∃ phase, server.phase? id = some phase ∧ phase ≠ .closed
  begun : ∀ id task remaining, Ordered.get? server.tasks id = some task →
      task.toClose? = some remaining →
      server.draining = true ∧ ∀ connection ∈ remaining, server.phase? connection ≠ none
  reaches : ∀ id task remaining, Ordered.get? server.tasks id = some task →
      task.toClose? = some remaining → ∀ connection phase, server.phase? connection = some phase →
      phase ≠ .closed → connection ∈ remaining

theorem evacuates_start (engine : Engine σ) (world : World σ) (drainTimeout : Nat) :
    Evacuates (start engine world drainTimeout) := by
  refine ⟨swept_start engine world drainTimeout, nofun, ?_, ?_⟩
  · intro id task remaining found
    exact absurd found (tasks_start engine world drainTimeout id task)
  · intro id task remaining found
    exact absurd found (tasks_start engine world drainTimeout id task)

/-- A drain goes on from one connection to the next when it has closed that. -/
theorem toClose?_of_goes {id : TaskId} {task next : Task} {remaining : List ConnectionId}
    (found : Ordered.get? server.tasks id = some task) (goes : Goes server task (some next))
    (left : next.toClose? = some remaining) :
    ∃ earlier, task.toClose? = some earlier ∧ remaining ⊆ earlier ∧ ∀ connection ∈ earlier,
      connection ∈ remaining ∨ (server.advance id).phase? connection ≠ some .closing := by
  cases goes with
  | on follows =>
    cases follows with
    | complete | drained =>
      exact ⟨remaining, left, List.Subset.refl _, fun connection member => Or.inl member⟩
    | withdraw | query | request | answered => cases left
  | @completes closed rest report count =>
    cases left
    refine ⟨closed :: remaining, rfl, List.subset_cons_self _ _, fun connection member => ?_⟩
    rcases List.mem_cons.mp member with rfl | later
    · rw [advance, found]
      exact Or.inr (phase?_markClosed_ne_closing _ connection)
    · exact Or.inl later

theorem Evacuates.begun_act (evacuates : Evacuates server) (action : Action) (id : TaskId)
    (task : Task) (remaining : List ConnectionId)
    (found : Ordered.get? (server.act action).tasks id = some task)
    (left : task.toClose? = some remaining) :
    (server.act action).draining = true ∧
      ∀ connection ∈ remaining, (server.act action).phase? connection ≠ none := by
  have housed := evacuates.swept.housed
  have kept : ∀ old earlier, Ordered.get? server.tasks id = some old → old.toClose? = some earlier →
      remaining ⊆ earlier → (server.act action).draining = true ∧
        ∀ connection ∈ remaining, (server.act action).phase? connection ≠ none := by
    intro old earlier known before part
    obtain ⟨draining, opened⟩ := evacuates.begun id old earlier known before
    exact ⟨draining_act draining action, fun other member =>
      known_act housed action (opened other (part member))⟩
  rcases (moves_act server action).lookup id with
    same | woken | ⟨-, old, known, goes⟩ | ⟨-, new, now, arises⟩
  · exact kept task remaining (same.symm.trans found) left (List.Subset.refl _)
  · rw [woken] at found
    obtain ⟨old, known, rfl⟩ := Option.map_eq_some_iff.mp found
    exact kept old remaining known (old.toClose?_permit.symm.trans left) (List.Subset.refl _)
  · rw [found] at goes
    obtain ⟨earlier, before, part, -⟩ := toClose?_of_goes known goes left
    exact kept old earlier known before part
  · obtain rfl := Option.some.inj (now.symm.trans found)
    cases arises with
    | accepted accepts =>
      rw [accepts.toClose?] at left
      cases left
    | purge => cases left
    | drain deadline =>
      cases left
      refine ⟨(beginsDrain server).draining, fun other member => known_act housed .beginDrain ?_⟩
      obtain ⟨phase, served, -⟩ := evacuates.served other member
      rw [served]
      nofun

theorem Evacuates.reaches_act (evacuates : Evacuates server) (action : Action) (id : TaskId)
    (task : Task) (remaining : List ConnectionId)
    (found : Ordered.get? (server.act action).tasks id = some task)
    (left : task.toClose? = some remaining) (connection : ConnectionId) (phase : Phase)
    (present : (server.act action).phase? connection = some phase) (notClosed : phase ≠ .closed) :
    connection ∈ remaining := by
  have draining := (evacuates.begun_act action id task remaining found left).1
  obtain ⟨closing, before, earlierPhase, notYet⟩ :=
    notClosed_of_act evacuates.swept.housed draining present notClosed
  rcases (moves_act server action).lookup id with
    same | woken | ⟨rfl, old, known, goes⟩ | ⟨-, new, now, arises⟩
  · exact evacuates.reaches id task remaining (same.symm.trans found) left connection before
      earlierPhase notYet
  · rw [woken] at found
    obtain ⟨old, known, rfl⟩ := Option.map_eq_some_iff.mp found
    have unchanged := old.toClose?_permit.symm.trans left
    exact evacuates.reaches id old remaining known unchanged connection before earlierPhase notYet
  · rw [found] at goes
    obtain ⟨earlier, listed, -, passes⟩ := toClose?_of_goes known goes left
    have member :=
      evacuates.reaches id old earlier known listed connection before earlierPhase notYet
    rcases passes connection member with later | closed
    · exact later
    · exact absurd closing closed
  · obtain rfl := Option.some.inj (now.symm.trans found)
    cases arises with
    | accepted accepts =>
      rw [accepts.toClose?] at left
      cases left
    | purge => cases left
    | drain deadline =>
      cases left
      exact evacuates.swept.housed.served connection before earlierPhase notYet

theorem Evacuates.act (evacuates : Evacuates server) (action : Action) :
    Evacuates (server.act action) :=
  ⟨evacuates.swept.act action, (moves_act server action).served evacuates.served,
    evacuates.begun_act action, evacuates.reaches_act action⟩

/-- Between any two actions of a run, every drain has all connections before it that are not
closed. -/
theorem Evacuates.run (evacuates : Evacuates server) (actions : List Action) :
    Evacuates (server.run actions) := by
  induction actions generalizing server with
  | nil => exact evacuates
  | cons action rest ih => exact ih (evacuates.act action)

theorem Evacuates.closed (evacuates : Evacuates server) {drain : TaskId} {report : DrainReport}
    (drained : Ordered.get? server.tasks drain = some (.drained report)) {connection : ConnectionId}
    (known : server.phase? connection ≠ none) : server.phase? connection = some .closed := by
  obtain ⟨phase, found⟩ := Option.ne_none_iff_exists'.mp known
  cases phase with
  | closed => exact found
  | «open» | closing =>
    exact absurd (evacuates.reaches drain _ [] drained rfl connection _ found nofun)
      List.not_mem_nil

theorem Evacuates.live (evacuates : Evacuates server) {drain : TaskId} {report : DrainReport}
    (drained : Ordered.get? server.tasks drain = some (.drained report)) : server.live = [] := by
  rw [List.eq_nil_iff_forall_not_mem]
  intro connection member
  obtain ⟨phase, found, notClosed⟩ := evacuates.served connection member
  have known : server.phase? connection ≠ none := by
    rw [found]
    nofun
  have closed := evacuates.closed drained known
  rw [found, Option.some.injEq] at closed
  exact notClosed closed

/-- Once all connections are closed, only a start that is about to withdraw it has anything
registered. -/
theorem Evacuates.registered (evacuates : Evacuates server) {drain : TaskId} {report : DrainReport}
    (drained : Ordered.get? server.tasks drain = some (.drained report))
    (returned : ∀ id task, Ordered.get? server.tasks id = some task → task.isStart = false) :
    server.registry.registered = [] := by
  rw [List.eq_nil_iff_forall_not_mem]
  intro registration member
  have closed : server.phase? registration.connection ≠ none →
      server.phase? registration.connection = some .closed := evacuates.closed drained
  rcases evacuates.swept.owned registration member with isOpen | closing | ⟨id, found⟩
  · rw [isOpen] at closed
    cases closed nofun
  · rw [closing] at closed
    cases closed nofun
  · cases returned id _ found

end Server

theorem Registry.Consistent.empty_of_registered {registry : Registry}
    (consistent : registry.Consistent) (none : registry.registered = []) :
    registry.registrations = [] ∧ registry.byConnection = [] := by
  refine ⟨List.map_eq_nil_iff.mp none, ?_⟩
  cases kept : registry.byConnection with
  | nil => rfl
  | cons entry rest =>
    obtain ⟨connection, operations⟩ := entry
    have found : Ordered.get? registry.byConnection connection = some operations := by
      rw [kept]
      exact if_pos rfl
    cases operations with
    | nil => exact absurd found (consistent.occupied connection)
    | cons name others =>
      have named : Ordered.get? (registry.operationsOf connection) name.1 = some name.2 := by
        rw [operationsOf, found]
        exact if_pos rfl
      obtain ⟨registration, member, -⟩ := (consistent.indexed connection name.1 name.2).mp named
      rw [none] at member
      cases member

namespace Server

variable {σ : Type}

/-- A drain leaves nothing behind, in whatever order calls take their steps and however many drains
there are. From its beginning on nobody can connect, and a connection that is not closed is one of
those that it found. When it is over, every connection that was ever opened is closed, and none is
served. Once all starts have returned after that, nothing is registered. -/
theorem drain_leaves_nothing (engine : Engine σ) (world : World σ) (drainTimeout : Nat)
    (actions : List Action) :
    let first := start engine world drainTimeout
    (∀ front back, actions = front ++ .beginDrain :: back →
      let found := (first.run front).live
      (∃ deadline,
          Ordered.get? ((first.run front).act .beginDrain).tasks (first.run front).beginDrain.1 =
            some (.drain found deadline)) ∧
      ∀ middle rest, back = middle ++ rest →
        let server := ((first.run front).act .beginDrain).run middle
        server.openConnection = (.error .draining, server) ∧
          ∀ connection phase, server.phase? connection = some phase → phase ≠ .closed →
            connection ∈ found) ∧
    ∀ drain report, Ordered.get? (first.run actions).tasks drain = some (.drained report) →
      (∀ front back id, actions = front ++ .openConnection :: back →
          (first.run front).openConnection.1 = .ok id →
          (first.run actions).phase? id = some .closed) ∧ (first.run actions).live = [] ∧
        ((∀ id task, Ordered.get? (first.run actions).tasks id = some task → task.isStart = false) →
          (first.run actions).registry.registrations = [] ∧
            (first.run actions).registry.byConnection = []) := by
  intro first
  have evacuates : ∀ front, Evacuates (first.run front) :=
    (evacuates_start engine world drainTimeout).run
  refine ⟨?_, ?_⟩
  · intro front back _ found
    have begins := beginsDrain (first.run front)
    refine ⟨⟨_, (begins.tasks _).trans (if_pos (beginDrain_task _).symm)⟩, ?_⟩
    intro middle rest _ server
    have draining : server.draining = true := draining_run begins.draining middle
    have housed : Housed ((first.run front).act .beginDrain) :=
      ((evacuates front).act .beginDrain).swept.housed
    refine ⟨by rw [openConnection, if_pos draining], ?_⟩
    intro connection phase known notClosed
    obtain ⟨old, before, notYet⟩ := notClosed_of_run housed begins.draining known notClosed
    have served := housed.served connection old before notYet
    rw [show ((first.run front).act .beginDrain).live = found from begins.live] at served
    exact served
  · intro drain report drained
    refine ⟨?_, (evacuates actions).live drained, ?_⟩
    · rintro front back id rfl opened
      apply (evacuates _).closed drained
      rw [run_append, run_cons]
      have known : ((first.run front).act .openConnection).phase? id ≠ none :=
        openConnection_known (first.run front) opened
      exact (known_run ((evacuates front).act .openConnection).swept.housed known back).2
    · intro returned
      exact (evacuates actions).swept.consistent.empty_of_registered
        ((evacuates actions).registered drained returned)

end Server

namespace Chairlift

open Server

/-- One client is registered before a drain begins, the other when the drain has closed its
connection already. A third one comes too late. -/
def evacuation : List Action :=
  [.advance ⟨1⟩, .beginDrain, .openConnection, .advance ⟨2⟩, .advance ⟨2⟩, .advance ⟨0⟩,
    .advance ⟨2⟩, .advance ⟨2⟩, .advance ⟨0⟩]

/-- When the drain was over, the late registration was still there. Its start takes it back. -/
theorem drain_leaves_nothing_late :
    (Ordered.get? (begun.run (evacuation.take 8)).tasks ⟨2⟩ = some (.drained ⟨2, 1, false⟩) ∧
        (begun.run (evacuation.take 8)).registry.operations ⟨1⟩ = ["mine"]) ∧
      Ordered.get? (begun.run evacuation).tasks ⟨2⟩ = some (.drained ⟨2, 1, false⟩) ∧
      (begun.run evacuation).phase? ⟨1⟩ = some .closed ∧ (begun.run evacuation).live = [] ∧
      (begun.run evacuation).registry.registrations = [] ∧
      (begun.run evacuation).registry.byConnection = [] := by
  obtain ⟨-, after⟩ := drain_leaves_nothing engine world 1000 (starts ++ evacuation)
  rw [run_append, run_starts] at after
  have drained : Ordered.get? (begun.run evacuation).tasks ⟨2⟩ = some (.drained ⟨2, 1, false⟩) :=
    rfl
  obtain ⟨closed, unserved, unregistered⟩ := after ⟨2⟩ _ drained
  refine ⟨⟨rfl, rfl⟩, drained, closed [] ((starts ++ evacuation).drop 1) ⟨1⟩ rfl rfl, unserved,
    unregistered ?_⟩
  intro id task found
  have tasks : (begun.run evacuation).tasks = [(⟨2⟩, .drained ⟨2, 1, false⟩)] := rfl
  rw [tasks, Ordered.get?] at found
  split at found
  · obtain rfl := Option.some.inj found
    rfl
  · cases found

end Chairlift

end MockGraph
