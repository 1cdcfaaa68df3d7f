import MockGraph.Proofs.Server.Moves
set_option autoImplicit false

namespace MockGraph

def Task.isDrain : Task → Bool
  | drain _ _ | complete _ _ | drained _ => true
  | _ => false

def Action.isDrain : Action → Bool
  | beginDrain => true
  | _ => false

namespace Server

variable {σ : Type}

/-- Connections are known by the numbers that were given, and served until they are closed. A server
that drains has no open ones. -/
structure Housed (server : Server σ) : Prop where
  opened : ∀ id phase, server.phase? id = some phase → id.number ≤ server.connections.length
  served : ∀ id phase, server.phase? id = some phase → phase ≠ .closed → id ∈ server.live
  attached : ∀ id, (server.connection? id).map (·.attached) ≠ some false
  shut : server.draining = true → ∀ id, server.phase? id ≠ some .open

/-- Tasks are known by the numbers that were given, and one of them is a drain at most, once a drain
has begun. -/
structure Tracked (server : Server σ) : Prop where
  numbered : ∀ id task, Ordered.get? server.tasks id = some task → id.number < server.nextTask
  calm : server.draining = false →
      ∀ id task, Ordered.get? server.tasks id = some task → task.isDrain = false
  single : ∀ one other task otherTask, Ordered.get? server.tasks one = some task →
      Ordered.get? server.tasks other = some otherTask → task.isDrain = true →
      otherTask.isDrain = true → one = other

structure Sound (server : Server σ) : Prop where
  housed : Housed server
  tracked : Tracked server

theorem tasks_start (engine : Engine σ) (world : World σ) (drainTimeout : Nat) (id : TaskId)
    (task : Task) : Ordered.get? (start engine world drainTimeout).tasks id ≠ some task := by
  intro found
  cases found

theorem sound_start (engine : Engine σ) (world : World σ) (drainTimeout : Nat) :
    Sound (start engine world drainTimeout) := by
  have idle := tasks_start engine world drainTimeout
  refine ⟨⟨nofun, nofun, nofun, nofun⟩, ⟨?_, ?_, ?_⟩⟩
  · intro id task found
    exact absurd found (idle id task)
  · intro _ id task found
    exact absurd found (idle id task)
  · intro one other task otherTask found
    exact absurd found (idle one task)

variable {server before after : Server σ}

theorem Housed.idle (housed : Housed before) (idle : Idle before after) : Housed after := by
  refine ⟨?_, ?_, ?_, ?_⟩
  · intro id phase found
    rw [idle.phase] at found
    rw [idle.count]
    exact housed.opened id phase found
  · intro id phase found notClosed
    rw [idle.phase] at found
    rw [idle.live]
    exact housed.served id phase found notClosed
  · intro id
    rw [idle.attached]
    exact housed.attached id
  · intro draining id
    rw [idle.draining] at draining
    rw [idle.phase]
    exact housed.shut draining id

/-- The result of an operation is queued, and then that it is complete, unless its connection is
closed. -/
theorem outbox_result {middle : Server σ} {connection : ConnectionId} {id : String}
    {response : Response} (housed : Housed server) (idle : Idle server middle)
    (same : middle.connections = server.connections) (known : server.phase? connection ≠ none) :
    ((middle.send connection (.next id response)).send connection (.complete id)).outbox
        connection =
      server.outbox connection ++
        if server.phase? connection = some .closed then []
        else [.next id response, .complete id] := by
  have start := outbox_of_connections same connection
  have phase := idle.phase connection
  have sent := idle_send middle connection (.next id response)
  have later := (sent.phase connection).trans phase
  split
  · rename_i closed
    rw [outbox_send_closed (later.trans closed), outbox_send_closed (phase.trans closed), start,
      List.append_nil]
  · rename_i notClosed
    obtain ⟨found, present⟩ := Option.ne_none_iff_exists'.mp known
    have notClosed : found ≠ .closed := fun closed => notClosed (closed ▸ present)
    have attached : (middle.connection? connection).map (·.attached) ≠ some false := by
      rw [idle.attached]
      exact housed.attached connection
    have first := outbox_send (phase.trans present) notClosed attached (.next id response)
    have second :=
      outbox_send (later.trans present) notClosed (by rw [sent.attached]; exact attached)
        (.complete id)
    rw [second, first, start, List.append_assoc]
    rfl

theorem Tracked.idle (tracked : Tracked before) (idle : Idle before after) : Tracked after := by
  refine ⟨?_, ?_, ?_⟩
  · rw [idle.tasks, idle.nextTask]
    exact tracked.numbered
  · rw [idle.tasks, idle.draining]
    exact tracked.calm
  · rw [idle.tasks]
    exact tracked.single

/-- Where a connection only goes towards being closed, it stays known, and served until it is. -/
theorem Housed.adjust (housed : Housed server) (id : ConnectionId)
    {change : Connection → Connection}
    (attached : ∀ connection, (change connection).attached = connection.attached)
    (phase : ∀ connection, (change connection).phase ≠ .closed → connection.phase ≠ .closed)
    (notOpen : ∀ connection, (change connection).phase = .open → connection.phase = .open) :
    Housed (server.adjust id change) := by
  have known : ∀ other found, (server.adjust id change).phase? other = some found →
      ∃ old, server.phase? other = some old ∧ (found ≠ .closed → old ≠ .closed) ∧
        (found = .open → old = .open) := by
    intro other found changed
    rw [phase?_adjust] at changed
    split at changed
    · obtain ⟨connection, present, rfl⟩ := Option.map_eq_some_iff.mp changed
      exact ⟨connection.phase, by rw [phase?, present]; rfl, phase connection, notOpen connection⟩
    · exact ⟨found, changed, fun same => same, fun same => same⟩
  refine ⟨?_, ?_, ?_, ?_⟩
  · intro other found changed
    obtain ⟨old, present, -⟩ := known other found changed
    have bound := housed.opened other old present
    rw [Server.adjust, Ordered.length_adjust]
    exact bound
  · intro other found changed notClosed
    obtain ⟨old, present, earlier, -⟩ := known other found changed
    exact housed.served other old present (earlier notClosed)
  · intro other
    rw [connection?_adjust]
    split
    · rw [Option.map_map, Function.comp_def, funext attached]
      exact housed.attached other
    · exact housed.attached other
  · intro draining other changed
    obtain ⟨old, present, -, earlier⟩ := known other .open changed
    rw [earlier rfl] at present
    exact housed.shut draining other present

theorem Housed.beginClosing (housed : Housed server) (id : ConnectionId) :
    Housed (server.adjust id (·.beginClosing)) := by
  refine housed.adjust id Connection.attached_beginClosing ?_ ?_
  · intro connection notClosed closed
    rw [Connection.phase_beginClosing, closed] at notClosed
    exact notClosed rfl
  · intro connection
    rw [Connection.phase_beginClosing]
    split
    · nofun
    · exact fun same => same

theorem Housed.markClosed (housed : Housed server) (id : ConnectionId) :
    Housed (server.markClosed id) := by
  have adjusted : Housed (server.adjust id (·.markClosed)) :=
    housed.adjust id (fun _ => rfl) (fun _ notClosed => absurd rfl notClosed) nofun
  refine ⟨adjusted.opened, ?_, adjusted.attached, adjusted.shut⟩
  intro other phase found notClosed
  refine List.mem_filter.mpr ⟨adjusted.served other phase found notClosed, ?_⟩
  rw [decide_eq_true_eq]
  rintro rfl
  change (server.adjust other (·.markClosed)).phase? other = some phase at found
  rw [phase?_adjust, if_pos rfl] at found
  obtain ⟨connection, -, rfl⟩ := Option.map_eq_some_iff.mp found
  exact notClosed rfl

/-- A new connection is open, and no other one has its number. -/
theorem Housed.opens (housed : Housed server) (calm : server.draining = false) :
    Housed { server with
    connections := Ordered.insert server.connections ⟨server.connections.length + 1⟩ .new
    live := server.live ++ [⟨server.connections.length + 1⟩] } := by
  have fresh : (⟨server.connections.length + 1⟩ : ConnectionId) ∉
      Ordered.keys server.connections := by
    rw [← Ordered.get?_eq_none_iff, Option.eq_none_iff_forall_ne_some]
    intro connection found
    have bound := housed.opened _ connection.phase (by rw [phase?, connection?, found]; rfl)
    exact Nat.not_succ_le_self _ bound
  have connection? : ∀ other,
      Ordered.get? (Ordered.insert server.connections ⟨server.connections.length + 1⟩ .new) other =
        if ⟨server.connections.length + 1⟩ = other then some .new else server.connection? other :=
    fun other => Ordered.get?_insert _ _ _ _
  refine ⟨?_, ?_, ?_, ?_⟩
  · intro other phase found
    rw [phase?, Server.connection?, connection?] at found
    dsimp only
    rw [Ordered.insert_of_notMem _ _ _ fresh, List.length_append]
    split at found
    · rename_i same
      rw [← same]
      exact Nat.le_refl _
    · exact Nat.le_succ_of_le (housed.opened other phase found)
  · intro other phase found notClosed
    rw [phase?, Server.connection?, connection?] at found
    split at found
    · rename_i same
      rw [← same]
      exact List.mem_append_right _ (List.mem_singleton_self _)
    · exact List.mem_append_left _ (housed.served other phase found notClosed)
  · intro other
    rw [Server.connection?, connection?]
    split
    · intro impossible
      cases impossible
    · exact housed.attached other
  · intro draining
    dsimp only at draining
    rw [calm] at draining
    cases draining

theorem Housed.drains (housed : Housed before) (drains : BeginsDrain before after) :
    Housed after := by
  have known : ∀ id found, after.phase? id = some found → ∃ old, before.phase? id = some old ∧
      (found ≠ .closed → old ≠ .closed) := by
    intro id found now
    rcases drains.phase id with stays | ⟨wasOpen, -⟩
    · exact ⟨found, stays.symm.trans now, fun notClosed => notClosed⟩
    · exact ⟨.open, wasOpen, nofun⟩
  refine ⟨?_, ?_, ?_, ?_⟩
  · intro id found now
    obtain ⟨old, earlier, -⟩ := known id found now
    rw [drains.count]
    exact housed.opened id old earlier
  · intro id found now notClosed
    obtain ⟨old, earlier, kept⟩ := known id found now
    rw [drains.live]
    exact housed.served id old earlier (kept notClosed)
  · intro id
    rw [drains.attached]
    exact housed.attached id
  · intro _ id isOpen
    rcases drains.phase id with stays | ⟨-, closing⟩
    · exact drains.notOpen id (housed.served id .open (stays.symm.trans isOpen) nofun) isOpen
    · rw [closing] at isOpen
      cases isOpen

theorem Housed.withTasks (housed : Housed server) (tasks : Ordered TaskId Task) (nextTask : Nat) :
    Housed { server with tasks, nextTask } :=
  ⟨housed.opened, housed.served, housed.attached, housed.shut⟩

/-- Tasks stay tracked where each comes after one with its number, or is new and no drain. -/
theorem Tracked.of_known (tracked : Tracked before) (draining : after.draining = before.draining)
    (grows : before.nextTask ≤ after.nextTask)
    (known : ∀ id task, Ordered.get? after.tasks id = some task →
      (∃ old, Ordered.get? before.tasks id = some old ∧
          (task.isDrain = true → old.isDrain = true)) ∨
        task.isDrain = false ∧ id.number < after.nextTask) : Tracked after := by
  have old : ∀ id task, Ordered.get? after.tasks id = some task → task.isDrain = true →
      ∃ old, Ordered.get? before.tasks id = some old ∧ old.isDrain = true := by
    intro id task found drains
    rcases known id task found with ⟨old, earlier, kind⟩ | ⟨other, -⟩
    · exact ⟨old, earlier, kind drains⟩
    · rw [other] at drains
      cases drains
  refine ⟨?_, ?_, ?_⟩
  · intro id task found
    rcases known id task found with ⟨old, earlier, -⟩ | ⟨-, given⟩
    · exact Nat.lt_of_lt_of_le (tracked.numbered id old earlier) grows
    · exact given
  · intro calm id task found
    rw [draining] at calm
    refine Bool.eq_false_iff.mpr fun drains => ?_
    obtain ⟨other, earlier, kind⟩ := old id task found drains
    rw [tracked.calm calm id other earlier] at kind
    cases kind
  · intro one other task otherTask found otherFound drains otherDrains
    obtain ⟨first, earlier, kind⟩ := old one task found drains
    obtain ⟨second, otherEarlier, otherKind⟩ := old other otherTask otherFound otherDrains
    exact tracked.single one other first second earlier otherEarlier kind otherKind

theorem Tracked.adjust (tracked : Tracked server) (id : ConnectionId)
    (change : Connection → Connection) : Tracked (server.adjust id change) :=
  ⟨tracked.numbered, tracked.calm, tracked.single⟩

theorem Tracked.markClosed (tracked : Tracked server) (id : ConnectionId) :
    Tracked (server.markClosed id) :=
  ⟨tracked.numbered, tracked.calm, tracked.single⟩

theorem Tracked.spawn (tracked : Tracked server) {task : Task} (other : task.isDrain = false) :
    Tracked (server.spawn task).2 := by
  refine tracked.of_known rfl (Nat.le_succ _) fun id found known => ?_
  rw [get?_spawn] at known
  split at known
  · rename_i same
    cases known
    exact Or.inr ⟨other, by rw [← same]; exact Nat.lt_succ_self _⟩
  · exact Or.inl ⟨found, known, fun drains => drains⟩

theorem Tracked.become (tracked : Tracked server) {id : TaskId} {task next : Task}
    (found : Ordered.get? server.tasks id = some task)
    (kind : next.isDrain = true → task.isDrain = true) : Tracked (server.become id next) := by
  refine tracked.of_known rfl (Nat.le_refl _) fun other now known => Or.inl ?_
  rw [get?_become] at known
  split at known
  · rename_i same
    cases known
    exact ⟨task, same ▸ found, kind⟩
  · exact ⟨now, known, fun drains => drains⟩

theorem Tracked.finish (tracked : Tracked server) (id : TaskId) : Tracked (server.finish id) := by
  refine tracked.of_known rfl (Nat.le_refl _) fun other now known => Or.inl ?_
  rw [get?_finish] at known
  split at known
  · cases known
  · exact ⟨now, known, fun drains => drains⟩

theorem isDrain_permit (task : Task) : task.permit.isDrain = task.isDrain := by
  cases task <;> rfl

theorem Follows.isDrain {task next : Task} (follows : Follows server task next) :
    next.isDrain = task.isDrain := by
  cases follows <;> rfl

theorem Accepts.isDrain {task : Task} (accepts : server.Accepts task) : task.isDrain = false := by
  cases task <;> first | rfl | cases accepts

theorem Tracked.drains (tracked : Tracked before) (drains : BeginsDrain before after)
    (calm : before.draining = false) : Tracked after := by
  have drain : ∀ id task, Ordered.get? after.tasks id = some task → task.isDrain = true →
      ⟨before.nextTask⟩ = id := by
    intro id task found kind
    rw [drains.tasks] at found
    split at found
    · assumption
    · rw [tracked.calm calm id task found] at kind
      cases kind
  refine ⟨?_, ?_, ?_⟩
  · intro id task found
    rw [drains.tasks] at found
    rw [drains.nextTask]
    split at found
    · rename_i equal
      rw [← equal]
      exact Nat.lt_succ_self _
    · exact Nat.lt_succ_of_lt (tracked.numbered id task found)
  · intro impossible
    rw [drains.draining] at impossible
    cases impossible
  · intro one other task otherTask found otherFound kind otherKind
    exact (drain one task found kind).symm.trans (drain other otherTask otherFound otherKind)

/-- Every move keeps connections known and served, however often a drain begins. -/
theorem Housed.moves {action : Action} (housed : Housed before)
    (moves : Moves before action after) : Housed after := by
  cases moves with
  | idle idle => exact housed.idle idle
  | opens calm => exact housed.opens calm
  | spawns => exact housed.withTasks _ _
  | closes connection => exact (housed.beginClosing connection).withTasks _ _
  | drains => exact housed.drains (beginsDrain before)
  | permits idle => exact (housed.withTasks after.tasks before.nextTask).idle idle
  | becomes _ _ idle | ends _ _ idle => exact (housed.idle idle).withTasks _ _
  | purges _ _ idle | completes _ _ idle => exact ((housed.idle idle).markClosed _).withTasks _ _

theorem Housed.act (housed : Housed server) (action : Action) : Housed (server.act action) :=
  housed.moves (moves_act server action)

/-- Every move keeps tasks below the next number, however often a drain begins. -/
theorem Moves.numbered {action : Action} (moves : Moves before action after)
    (numbered : ∀ id task, Ordered.get? before.tasks id = some task → id.number < before.nextTask)
    (id : TaskId) (task : Task) (found : Ordered.get? after.tasks id = some task) :
    id.number < after.nextTask := by
  have given : ∀ known, Ordered.get? before.tasks id = some known → id.number < after.nextTask :=
    fun known earlier => Nat.lt_of_lt_of_le (numbered id known earlier) moves.nextTask_le
  cases moves with
  | idle idle => exact given task (idle.tasks ▸ found)
  | opens => exact given task found
  | spawns | closes =>
    rw [get?_spawn] at found
    split at found
    · rename_i same
      rw [← same]
      exact Nat.lt_succ_self _
    · exact given task found
  | drains =>
    rw [(beginsDrain before).tasks] at found
    split at found
    · rename_i same
      rw [(beginsDrain before).nextTask, ← same]
      exact Nat.lt_succ_self _
    · exact given task found
  | permits idle permitted =>
    rcases permitted id with same | woken
    · exact given task (same ▸ found)
    · rw [woken] at found
      obtain ⟨known, earlier, -⟩ := Option.map_eq_some_iff.mp found
      exact given known earlier
  | becomes known follows idle | completes count known idle =>
    rw [get?_become] at found
    split at found
    · rename_i same
      exact given _ (same ▸ known)
    · exact given task (idle.tasks ▸ found)
  | ends known ends idle | purges known notClosed idle =>
    rw [get?_finish] at found
    split at found
    · cases found
    · exact given task (idle.tasks ▸ found)

/-- Every move keeps tasks tracked, if a drain begins only where none has. -/
theorem Tracked.moves {action : Action} (tracked : Tracked before)
    (moves : Moves before action after) (once : action.isDrain = true → before.draining = false) :
    Tracked after := by
  cases moves with
  | idle idle => exact tracked.idle idle
  | opens calm => exact ⟨tracked.numbered, tracked.calm, tracked.single⟩
  | spawns accepts => exact tracked.spawn accepts.isDrain
  | closes connection => exact (tracked.adjust connection _).spawn rfl
  | drains => exact tracked.drains (beginsDrain before) (once rfl)
  | permits idle permitted =>
    refine tracked.of_known idle.draining (Nat.le_of_eq idle.nextTask.symm) fun id task found =>
      Or.inl ?_
    rcases permitted id with same | woken
    · exact ⟨task, same ▸ found, fun drains => drains⟩
    · rw [woken] at found
      obtain ⟨old, earlier, rfl⟩ := Option.map_eq_some_iff.mp found
      exact ⟨old, earlier, fun drains => (isDrain_permit old).symm.trans drains⟩
  | becomes found follows idle =>
    exact (tracked.idle idle).become (idle.tasks ▸ found) fun drains =>
      follows.isDrain.symm.trans drains
  | ends found ends idle => exact (tracked.idle idle).finish _
  | purges found notClosed idle => exact ((tracked.idle idle).markClosed _).finish _
  | completes count found idle =>
    exact ((tracked.idle idle).markClosed _).become (idle.tasks ▸ found) fun _ => rfl

theorem Sound.moves {action : Action} (sound : Sound before) (moves : Moves before action after)
    (once : action.isDrain = true → before.draining = false) : Sound after :=
  ⟨sound.housed.moves moves, sound.tracked.moves moves once⟩

theorem Moves.draining {action : Action} (moves : Moves before action after)
    (other : action.isDrain = false) : after.draining = before.draining := by
  cases moves with
  | drains => cases other
  | idle idle | becomes _ _ idle | ends _ _ idle | purges _ _ idle | completes _ _ idle =>
    exact idle.draining
  | permits idle => exact idle.draining
  | opens | spawns | closes => rfl

/-- At most one drain begins, now or later. -/
def Once (server : Server σ) (actions : List Action) : Prop :=
  actions.countP Action.isDrain + server.draining.toNat ≤ 1

theorem Once.step {action : Action} {rest : List Action} (once : Once server (action :: rest)) :
    (action.isDrain = true → server.draining = false) ∧ Once (server.act action) rest := by
  unfold Once at once
  rw [List.countP_cons] at once
  cases drains : action.isDrain with
  | true =>
    rw [if_pos drains] at once
    have calm : server.draining = false := by
      cases draining : server.draining with
      | false => rfl
      | true =>
        rw [draining, Bool.toNat_true] at once
        omega
    refine ⟨fun _ => calm, ?_⟩
    have begun := Bool.toNat_le (server.act action).draining
    unfold Once
    rw [calm, Bool.toNat_false] at once
    omega
  | false =>
    refine ⟨nofun, ?_⟩
    unfold Once
    rw [(moves_act server action).draining drains]
    simpa [drains] using once

theorem Sound.act {action : Action} {rest : List Action} (sound : Sound server)
    (once : Once server (action :: rest)) : Sound (server.act action) :=
  sound.moves (moves_act server action) once.step.1

theorem Sound.run {front back : List Action} (sound : Sound server)
    (once : Once server (front ++ back)) :
    Sound (server.run front) ∧ Once (server.run front) back := by
  induction front generalizing server with
  | nil => exact ⟨sound, once⟩
  | cons action rest ih => exact ih (sound.act once) once.step.2

end Server

end MockGraph
