import MockGraph.Proofs.Server.Drain
import MockGraph.Proofs.Server.Outbox
import MockGraph.Proofs.Server.Sweep
set_option autoImplicit false

namespace MockGraph

/-- How the phase of a connection goes on. Nothing leads back, and nothing leads from open to closed
at once. -/
inductive Phase.Advances : Option Phase → Option Phase → Prop
  | stays {phase} : Advances phase phase
  | opens : Advances none (some .open)
  | closes : Advances (some .open) (some .closing)
  | ends : Advances (some .closing) (some .closed)

/-- The connection that a call is made on. -/
def Action.target? : Action → Option ConnectionId
  | handle connection _ | close connection => some connection
  | _ => none

theorem Action.target?_of_closes {action : Action} {connection : ConnectionId}
    (closes : action.closes connection = true) : action.target? = some connection := by
  cases action with
  | close other => exact congrArg some (of_decide_eq_true closes)
  | handle other message =>
    cases message with
    | connectionTerminate => exact congrArg some (of_decide_eq_true closes)
    | _ => cases closes
  | _ => cases closes

def Action.publishes : Action → Bool
  | publish _ | pump => true
  | _ => false

/-- What closes a connection with its next step is going to close it. -/
theorem Task.willClose_of_closes {connection : ConnectionId} {task : Task}
    (closes : task.closes connection = true) : task.willClose connection = true := by
  cases task with
  | purge other => exact closes
  | complete remaining report =>
    cases remaining with
    | nil => cases closes
    | cons other rest => simp [Task.willClose, of_decide_eq_true closes]
  | _ => cases closes

namespace Server

variable {σ : Type} {server before after : Server σ} {connection : ConnectionId}

/-- Calls are made on connections that have been opened. -/
def OnOpened (server : Server σ) (actions : List Action) : Prop :=
  ∀ front action back connection, actions = front ++ action :: back →
    action.target? = some connection → (server.run front).phase? connection ≠ none

theorem OnOpened.now {action : Action} {rest : List Action}
    (onOpened : OnOpened server (action :: rest)) (connection : ConnectionId)
    (target : action.target? = some connection) : server.phase? connection ≠ none :=
  onOpened [] action rest connection rfl target

theorem OnOpened.step {action : Action} {rest : List Action}
    (onOpened : OnOpened server (action :: rest)) : OnOpened (server.act action) rest := by
  intro front next back connection split target
  have whole : action :: rest = (action :: front) ++ next :: back := by rw [split, List.cons_append]
  exact onOpened (action :: front) next back connection whole target

theorem OnOpened.nil (server : Server σ) : OnOpened server [] := by
  intro front action back connection split
  simp at split

theorem OnOpened.cons {action : Action} {rest : List Action}
    (now : ∀ connection, action.target? = some connection → server.phase? connection ≠ none)
    (later : OnOpened (server.act action) rest) : OnOpened server (action :: rest) := by
  intro front next back connection split target
  cases front with
  | nil =>
    obtain ⟨rfl, -⟩ := List.cons.inj split
    exact now connection target
  | cons first others =>
    obtain ⟨rfl, same⟩ := List.cons.inj split
    exact later others next back connection same target

theorem OnOpened.cons_of_none {action : Action} {rest : List Action} (other : action.target? = none)
    (later : OnOpened (server.act action) rest) : OnOpened server (action :: rest) := by
  apply OnOpened.cons _ later
  intro connection target
  rw [other] at target
  cases target

/-- What holds of connections between any two actions. The transport of a connection is told to stop
exactly when it is closed, exactly the others are served, operations belong to known ones, and no
call is going to close an open one. -/
structure Tended (server : Server σ) : Prop where
  housed : Housed server
  numbered : ∀ id task, Ordered.get? server.tasks id = some task → id.number < server.nextTask
  told : ∀ id, (server.connection? id).map (·.cancelled) =
      (server.phase? id).map fun phase => decide (phase = .closed)
  served : ∀ id ∈ server.live, ∃ phase, server.phase? id = some phase ∧ phase ≠ .closed
  owned : ∀ task connection id job,
      Ordered.get? server.tasks task = some (.query connection id job) →
        server.phase? connection ≠ none
  begun : ∀ id task connection, Ordered.get? server.tasks id = some task →
      task.willClose connection = true →
      ∃ phase, server.phase? connection = some phase ∧ phase ≠ .open

theorem tended_start (engine : Engine σ) (world : World σ) (drainTimeout : Nat) :
    Tended (start engine world drainTimeout) := by
  have sound := sound_start engine world drainTimeout
  have idle := tasks_start engine world drainTimeout
  refine ⟨sound.housed, sound.tracked.numbered, fun _ => rfl, ?_, ?_, ?_⟩
  · intro id member
    cases member
  · intro task connection id job found
    exact absurd found (idle task _)
  · intro id task connection found
    exact absurd found (idle id task)

/-- A connection that opens or begins to close is not closed, neither before nor after. -/
theorem told_of_phase {id : ConnectionId}
    (told : (before.connection? id).map (·.cancelled) =
      (before.phase? id).map fun phase => decide (phase = .closed))
    (cancelled : (after.connection? id).map (·.cancelled) =
      (before.connection? id).map (·.cancelled))
    (phase : after.phase? id = before.phase? id ∨
      before.phase? id = some .open ∧ after.phase? id = some .closing) :
    (after.connection? id).map (·.cancelled) =
      (after.phase? id).map fun phase => decide (phase = .closed) := by
  rw [cancelled, told]
  rcases phase with same | ⟨wasOpen, closing⟩
  · rw [same]
  · rw [wasOpen, closing]
    rfl

theorem told_markClosed {id : ConnectionId} (other : ConnectionId)
    (told : (server.connection? id).map (·.cancelled) =
      (server.phase? id).map fun phase => decide (phase = .closed)) :
    ((server.markClosed other).connection? id).map (·.cancelled) =
      ((server.markClosed other).phase? id).map fun phase => decide (phase = .closed) := by
  rw [phase?_markClosed]
  change ((server.adjust other (·.markClosed)).connection? id).map (·.cancelled) = _
  rw [connection?_adjust]
  split
  · rw [phase?]
    cases server.connection? id <;> rfl
  · exact told

theorem Moves.told {action : Action} (moves : Moves before action after)
    (told : ∀ id, (before.connection? id).map (·.cancelled) =
      (before.phase? id).map fun phase => decide (phase = .closed)) (id : ConnectionId) :
    (after.connection? id).map (·.cancelled) =
      (after.phase? id).map fun phase => decide (phase = .closed) := by
  have idled : ∀ {middle : Server σ}, Idle before middle →
      (middle.connection? id).map (·.cancelled) =
        (middle.phase? id).map fun phase => decide (phase = .closed) :=
    fun idle => told_of_phase (told id) (idle.cancelled id) (Or.inl (idle.phase id))
  cases moves with
  | idle idle | becomes _ _ idle | ends _ _ idle =>
    have kept := idled idle
    exact kept
  | permits idle => exact told_of_phase (told id) (idle.cancelled id) (Or.inl (idle.phase id))
  | spawns => exact told id
  | opens =>
    have known := told id
    rw [phase?] at known ⊢
    rw [Server.connection?, Ordered.get?_insert]
    split
    · rfl
    · exact known
  | closes other =>
    have phase := (phase?_beginClosing before other).2 id
    exact told_of_phase (told id) (map_adjust before other id Connection.cancelled_beginClosing)
      phase
  | drains =>
    exact told_of_phase (told id) ((beginsDrain before).cancelled id)
      ((beginsDrain before).phase id)
  | purges _ _ idle | completes _ _ idle => exact told_markClosed _ (idled idle)

/-- A connection that is not closed stays so, unless it is marked. -/
theorem served_of_phase {id : ConnectionId}
    (served : ∃ phase, before.phase? id = some phase ∧ phase ≠ .closed)
    (phase : after.phase? id = before.phase? id ∨
      before.phase? id = some .open ∧ after.phase? id = some .closing) :
    ∃ phase, after.phase? id = some phase ∧ phase ≠ .closed := by
  rcases phase with same | ⟨-, closing⟩
  · rw [same]
    exact served
  · exact ⟨.closing, closing, by decide⟩

theorem served_markClosed {id other : ConnectionId} (member : id ∈ (server.markClosed other).live)
    (served : id ∈ server.live → ∃ phase, server.phase? id = some phase ∧ phase ≠ .closed) :
    ∃ phase, (server.markClosed other).phase? id = some phase ∧ phase ≠ .closed := by
  obtain ⟨listed, different⟩ := List.mem_filter.mp member
  have different : id ≠ other := of_decide_eq_true different
  rw [phase?_markClosed, if_neg (Ne.symm different)]
  exact served listed

theorem Moves.served {action : Action} (moves : Moves before action after)
    (served : ∀ id ∈ before.live, ∃ phase, before.phase? id = some phase ∧ phase ≠ .closed) :
    ∀ id ∈ after.live, ∃ phase, after.phase? id = some phase ∧ phase ≠ .closed := by
  intro id member
  have idled : ∀ {middle : Server σ}, Idle before middle → id ∈ middle.live →
      ∃ phase, middle.phase? id = some phase ∧ phase ≠ .closed := by
    intro middle idle listed
    rw [idle.live] at listed
    exact served_of_phase (served id listed) (Or.inl (idle.phase id))
  cases moves with
  | idle idle | becomes _ _ idle | ends _ _ idle =>
    have kept := idled idle member
    exact kept
  | permits idle =>
    rw [idle.live] at member
    exact served_of_phase (served id member) (Or.inl (idle.phase id))
  | spawns => exact served id member
  | opens =>
    have opened : ∀ other, Server.phase? { before with
        connections := Ordered.insert before.connections ⟨before.connections.length + 1⟩ .new
        live := before.live ++ [⟨before.connections.length + 1⟩] } other =
          if ⟨before.connections.length + 1⟩ = other then some .open else before.phase? other := by
      intro other
      rw [phase?, Server.connection?, Ordered.get?_insert]
      split <;> rfl
    rw [opened]
    split
    · exact ⟨.open, rfl, by decide⟩
    · rename_i different
      rcases List.mem_append.mp member with old | new
      · exact served id old
      · exact absurd (List.mem_singleton.mp new).symm different
  | closes other =>
    exact served_of_phase (served id member) ((phase?_beginClosing before other).2 id)
  | drains =>
    rw [(beginsDrain before).live] at member
    exact served_of_phase (served id member) ((beginsDrain before).phase id)
  | purges _ _ idle | completes _ _ idle => exact served_markClosed member (idled idle)

theorem Moves.notOpen {action : Action} (moves : Moves before action after) (housed : Housed before)
    (known : ∃ phase, before.phase? connection = some phase ∧ phase ≠ .open) :
    ∃ phase, after.phase? connection = some phase ∧ phase ≠ .open := by
  rcases moves.phase_cases housed connection with same | ⟨absent, -⟩ | ⟨isOpen, -⟩ | ⟨closed, -⟩
  · rw [same]
    exact known
  · obtain ⟨phase, found, -⟩ := known
    rw [absent] at found
    cases found
  · obtain ⟨phase, found, notOpen⟩ := known
    rw [isOpen] at found
    exact absurd (Option.some.inj found).symm notOpen
  · exact ⟨.closed, closed, by decide⟩

/-- A call that closes a connection finds it known, and leaves it not open. -/
theorem notOpen_act {action : Action} (closes : action.closes connection = true)
    (known : server.phase? connection ≠ none) :
    ∃ phase, (server.act action).phase? connection = some phase ∧ phase ≠ .open := by
  have closed : (server.act action).phase? connection =
      (server.close connection).2.phase? connection := by
    cases action with
    | close other => rw [of_decide_eq_true closes]; rfl
    | handle other message =>
      cases message with
      | connectionTerminate => rw [of_decide_eq_true closes]; rfl
      | _ => cases closes
    | _ => cases closes
  rw [closed]
  unfold close
  split
  · rename_i already
    exact ⟨.closed, already, by decide⟩
  · change
      ∃ phase, (server.adjust connection (·.beginClosing)).phase? connection = some phase ∧
        phase ≠ .open
    obtain ⟨notOpen, phase⟩ := phase?_beginClosing server connection
    rcases phase connection with same | ⟨-, closing⟩
    · obtain ⟨phase, found⟩ := Option.ne_none_iff_exists'.mp known
      have kept := same.trans found
      exact ⟨phase, kept, fun isOpen => notOpen (isOpen ▸ kept)⟩
    · exact ⟨.closing, closing, by decide⟩

/-- What is going to close a connection was going to before, or a call has just begun to. -/
theorem willClose_of_act {action : Action} {id : TaskId} {task : Task}
    (found : Ordered.get? (server.act action).tasks id = some task)
    (closes : task.willClose connection = true) :
    (∃ id task, Ordered.get? server.tasks id = some task ∧ task.willClose connection = true) ∨
      action.closes connection = true ∨ action = .beginDrain ∧ connection ∈ server.live := by
  rcases (moves_act server action).lookup id with
    same | woken | ⟨-, old, earlier, goes⟩ | ⟨-, new, now, arises⟩
  · exact Or.inl ⟨id, task, same.symm.trans found, closes⟩
  · rw [woken] at found
    obtain ⟨old, earlier, rfl⟩ := Option.map_eq_some_iff.mp found
    exact Or.inl ⟨id, old, earlier, (Task.willClose_permit connection old).symm.trans closes⟩
  · rw [found] at goes
    refine Or.inl ⟨id, old, earlier, ?_⟩
    cases goes with
    | completes count =>
      have later := List.contains_iff_mem.mp closes
      exact List.contains_iff_mem.mpr (List.mem_cons_of_mem _ later)
    | on follows =>
      cases follows with
      | complete => exact closes
      | withdraw | query | request | answered | drained => cases closes
  · obtain rfl : new = task := Option.some.inj (now.symm.trans found)
    cases arises with
    | accepted accepts => cases new <;> first | cases closes | cases accepts
    | purge closesOther =>
      rw [of_decide_eq_true closes] at closesOther
      exact Or.inr (Or.inl closesOther)
    | drain deadline => exact Or.inr (Or.inr ⟨rfl, List.contains_iff_mem.mp closes⟩)

/-- An operation of a connection has begun before, or begins now on an open one. -/
theorem query_of_act {action : Action} {task : TaskId} {id : String} {job : Job}
    (found : Ordered.get? (server.act action).tasks task = some (.query connection id job)) :
    (∃ earlier, Ordered.get? server.tasks task = some (.query connection id earlier)) ∨
      server.phase? connection = some .open := by
  rcases (moves_act server action).lookup task with
    same | woken | ⟨-, old, earlier, goes⟩ | ⟨-, new, now, arises⟩
  · exact Or.inl ⟨job, same.symm.trans found⟩
  · rw [woken] at found
    obtain ⟨old, earlier, permitted⟩ := Option.map_eq_some_iff.mp found
    cases old with
    | query =>
      cases permitted
      exact Or.inl ⟨_, earlier⟩
    | _ => cases permitted
  · rw [found] at goes
    cases goes with
    | on follows =>
      cases follows with
      | query => exact Or.inl ⟨_, earlier⟩
  · obtain rfl := Option.some.inj (now.symm.trans found)
    cases arises with
    | accepted accepts => exact Or.inr accepts

theorem known_act (housed : Housed server) (action : Action)
    (known : server.phase? connection ≠ none) : (server.act action).phase? connection ≠ none := by
  rcases (moves_act server action).phase_cases housed connection with
    same | ⟨absent, -⟩ | ⟨-, closing, -⟩ | ⟨closed, -⟩
  · rw [same]
    exact known
  · exact absurd absent known
  · simp [closing]
  · simp [closed]

theorem Tended.act {action : Action} (tended : Tended server)
    (onOpened : ∀ connection, action.target? = some connection → server.phase? connection ≠ none) :
    Tended (server.act action) := by
  have moves := moves_act server action
  refine ⟨tended.housed.moves moves, moves.numbered tended.numbered, moves.told tended.told,
    moves.served tended.served, ?_, ?_⟩
  · intro task connection id job found
    apply known_act tended.housed
    rcases query_of_act found with ⟨earlier, before⟩ | isOpen
    · exact tended.owned task connection id earlier before
    · simp [isOpen]
  · intro id task connection found closes
    rcases willClose_of_act found closes with ⟨id, task, found, closes⟩ | calls | ⟨rfl, listed⟩
    · exact moves.notOpen tended.housed (tended.begun id task connection found closes)
    · exact notOpen_act calls (onOpened connection (Action.target?_of_closes calls))
    · have drains := beginsDrain server
      obtain ⟨phase, known, -⟩ := tended.served connection listed
      have notOpen := drains.notOpen connection listed
      rcases drains.phase connection with same | ⟨-, closing⟩
      · have kept := same.trans known
        exact ⟨phase, kept, fun isOpen => notOpen (isOpen ▸ kept)⟩
      · exact ⟨.closing, closing, by decide⟩

/-- Between any two actions of a run, connections are tended. -/
theorem Tended.run {front back : List Action} (tended : Tended server)
    (onOpened : OnOpened server (front ++ back)) :
    Tended (server.run front) ∧ OnOpened (server.run front) back := by
  induction front generalizing server with
  | nil => exact ⟨tended, onOpened⟩
  | cons action rest ih => exact ih (tended.act onOpened.now) onOpened.step

theorem Tended.advances (tended : Tended server) (action : Action) (connection : ConnectionId) :
    Phase.Advances (server.phase? connection) ((server.act action).phase? connection) := by
  rcases (moves_act server action).phase_cases tended.housed connection with
    same | ⟨absent, isOpen⟩ | ⟨wasOpen, closing, -⟩ | ⟨closed, id, task, -, found, closes⟩
  · rw [same]
    exact .stays
  · rw [absent, isOpen]
    exact .opens
  · rw [wasOpen, closing]
    exact .closes
  · obtain ⟨phase, known, notOpen⟩ :=
      tended.begun id task connection found (Task.willClose_of_closes closes)
    rw [known, closed]
    cases phase with
    | «open» => exact absurd rfl notOpen
    | closing => exact .ends
    | closed => exact .stays

/-- The messages that are queued on a connection from one state to a later one. -/
def gained (connection : ConnectionId) (before after : Server σ) : List ServerMessage :=
  (after.outbox connection).drop (before.outbox connection).length

theorem gained_eq {messages : List ServerMessage}
    (queues : Queues connection before after messages) :
    gained connection before after = messages := by
  rw [gained, queues.outbox, List.drop_left]

/-- An operation of a connection is over with the next step of its task. The result is queued, and
then that the operation is complete, unless the connection is closed. -/
structure Concludes (ready : Server σ) (task : TaskId) (connection : ConnectionId) (id : String) :
    Prop where
  queued : ∃ job response gates world,
      Ordered.get? ready.tasks task = some (.query connection id job) ∧
        job.resume ready.engine ready.gates ready.world = (.finished response, gates, world) ∧
        gained connection ready (ready.act (.advance task)) =
          if ready.phase? connection = some .closed then [] else [.next id response, .complete id]
  gone : Ordered.get? (ready.act (.advance task)).tasks task = none

/-- The step of an operation: it goes on and queues nothing, or it is over. -/
theorem Tended.advance {task : TaskId} {id : String} {job : Job} (tended : Tended server)
    (found : Ordered.get? server.tasks task = some (.query connection id job)) :
    ((∃ rest,
          Ordered.get? (server.act (.advance task)).tasks task = some (.query connection id rest)) ∧
        (server.act (.advance task)).connections = server.connections) ∨
      Concludes server task connection id := by
  rcases advance_query found with
    waits | ⟨middle, idle, same, ⟨rest, goesOn⟩ | ⟨response, gates, world, resumed, ended⟩⟩
  · left
    rw [Server.act, waits]
    exact ⟨⟨job, found⟩, rfl⟩
  · left
    rw [Server.act, goesOn]
    exact ⟨⟨rest, by rw [get?_become, if_pos rfl]⟩, same⟩
  · right
    have known := tended.owned task connection id job found
    have result :
        ((middle.send connection (.next id response)).send connection (.complete id)).outbox
          connection = _ := outbox_result tended.housed idle same known
    refine ⟨⟨job, response, gates, world, found, resumed, ?_⟩, ?_⟩
    · rw [gained, Server.act, ended]
      exact (congrArg (List.drop _) result).trans List.drop_left
    · rw [Server.act, ended, get?_finish, if_pos rfl]

/-- An operation goes on until it is over, whatever becomes of its connection. -/
theorem Tended.concludes {actions : List Action} {task : TaskId} {id : String} {job : Job}
    (tended : Tended server) (onOpened : OnOpened server actions)
    (found : Ordered.get? server.tasks task = some (.query connection id job)) :
    (∃ rest, Ordered.get? (server.run actions).tasks task = some (.query connection id rest)) ∨
      ∃ front back, actions = front ++ .advance task :: back ∧
        Concludes (server.run front) task connection id := by
  induction actions generalizing server job with
  | nil => exact Or.inl ⟨job, found⟩
  | cons action rest ih =>
    have goesOn :
        (∃ job, Ordered.get? (server.act action).tasks task = some (.query connection id job)) →
          (∃ job, Ordered.get? (server.run (action :: rest)).tasks task =
              some (.query connection id job)) ∨
            ∃ front back, action :: rest = front ++ .advance task :: back ∧
              Concludes (server.run front) task connection id := by
      rintro ⟨job, still⟩
      rcases ih (tended.act onOpened.now) onOpened.step still with
        running | ⟨front, back, split, concludes⟩
      · exact Or.inl running
      · exact Or.inr ⟨action :: front, back, by rw [split, List.cons_append], concludes⟩
    cases steps : action.isStepOf task with
    | false =>
      rcases get?_act_of_not_isStepOf tended.numbered found steps with same | woken
      · exact goesOn ⟨job, same⟩
      · exact goesOn ⟨job.permit, woken⟩
    | true =>
      obtain rfl := Action.eq_of_isStepOf steps
      rcases tended.advance found with ⟨still, -⟩ | concludes
      · exact goesOn still
      · exact Or.inr ⟨[], rest, rfl, concludes⟩

/-- What one action does to a connection, by the phase in which it finds it. -/
structure Governed (connection : ConnectionId) (before : Server σ) (action : Action)
    (after : Server σ) : Prop where
  phase : Phase.Advances (before.phase? connection) (after.phase? connection)
  /-- Messages are only added, and none to a closed connection. -/
  grows : after.outbox connection = before.outbox connection ++ gained connection before after
  closed : before.phase? connection = some .closed → gained connection before after = []
  /-- Events are delivered to open connections only. -/
  events : before.phase? connection ≠ some .open → action.publishes = true →
      gained connection before after = []
  /-- Otherwise a result comes from an operation of the connection that is over. -/
  results : before.phase? connection ≠ some .open → ∀ id response,
    .next id response ∈ gained connection before after →
    ∃ task job gates world, action = .advance task ∧
      Ordered.get? before.tasks task = some (.query connection id job) ∧
      job.resume before.engine before.gates before.world = (.finished response, gates, world)
  /-- No operation begins on a connection that is not open. -/
  begins : before.phase? connection ≠ some .open → ∀ task id job,
    Ordered.get? after.tasks task = some (.query connection id job) →
    ∃ earlier, Ordered.get? before.tasks task = some (.query connection id earlier)

/-- A connection that is not open gets nothing when events are delivered. -/
theorem gained_publishes {action : Action} (notOpen : server.phase? connection ≠ some .open)
    (publishes : action.publishes = true) : gained connection server (server.act action) = [] := by
  have unheard : ∀ (server : Server σ) (event : Event), server.phase? connection ≠ some .open →
      gained connection server (server.publish event).2 = [] := by
    intro server event notOpen
    obtain ⟨messages, queues, sent⟩ := queues_publish server event connection
    rw [gained_eq queues, List.eq_nil_iff_forall_not_mem]
    intro message member
    exact notOpen (sent message member).1
  cases action with
  | publish event => exact unheard server event notOpen
  | pump =>
    unfold act pump
    dsimp only
    split
    · rename_i event channel _
      exact unheard { server with world.channel := channel } event notOpen
    · exact gained_eq (.nothing rfl)
  | _ => cases publishes

theorem Tended.results {action : Action} {id : String} {response : Response}
    (tended : Tended server) (notOpen : server.phase? connection ≠ some .open)
    (member : .next id response ∈ gained connection server (server.act action)) :
    ∃ task job gates world, action = .advance task ∧
      Ordered.get? server.tasks task = some (.query connection id job) ∧
      job.resume server.engine server.gates server.world = (.finished response, gates, world) := by
  obtain ⟨messages, queues, source⟩ := sends_act tended.housed action connection
  rw [gained_eq queues] at member
  cases source with
  | replies reply => cases reply _ member
  | events sent => exact absurd (sent _ member).1 notOpen
  | drain sent =>
    obtain ⟨-, other, same⟩ := sent _ member
    cases same
  | @result task other job _ _ found gone part =>
    rcases tended.advance found with
      ⟨⟨rest, still⟩, -⟩ | ⟨⟨present, answer, gates, world, again, resumed, queued⟩, -⟩
    · rw [gone] at still
      cases still
    · rw [gained_eq queues] at queued
      rw [queued] at member
      split at member
      · cases member
      · simp only [List.mem_cons, ServerMessage.next.injEq, reduceCtorEq, List.not_mem_nil,
          or_false] at member
        obtain ⟨rfl, rfl⟩ := member
        exact ⟨task, present, gates, world, rfl, again, resumed⟩

theorem Tended.governed (tended : Tended server) (action : Action) (connection : ConnectionId) :
    Governed connection server action (server.act action) := by
  obtain ⟨messages, queues, -⟩ := sends_act tended.housed action connection
  have added := gained_eq queues
  refine ⟨tended.advances action connection, ?_, ?_, gained_publishes,
    fun notOpen id response => tended.results notOpen, ?_⟩
  · rw [added]
    exact queues.outbox
  · intro closed
    rw [added]
    exact queues.closed closed
  · intro notOpen task id job found
    rcases query_of_act found with earlier | isOpen
    · exact earlier
    · exact absurd isOpen notOpen

/-- In whatever order calls, tasks and drains take their steps, every connection lives through its
phases in order. Its transport is told to stop exactly when it is closed, and it is served exactly
from when it is opened until then. Each action heeds its phase, and an operation that has begun on
it goes on until it is over and has its result queued if the connection is not closed by then. -/
theorem run_keeps_lifecycle (engine : Engine σ) (world : World σ) (drainTimeout : Nat)
    (actions : List Action) (onOpened : OnOpened (start engine world drainTimeout) actions)
    (connection : ConnectionId) :
    let server := start engine world drainTimeout
    (∀ front back, actions = front ++ back →
      (∀ known, (server.run front).connection? connection = some known →
        (known.cancelled = true ↔ known.phase = .closed)) ∧
      (connection ∈ (server.run front).live ↔
        ∃ phase, (server.run front).phase? connection = some phase ∧ phase ≠ .closed)) ∧
    (∀ front action back, actions = front ++ action :: back →
      Governed connection (server.run front) action (server.run (front ++ [action]))) ∧
    ∀ front back task id job, actions = front ++ back →
      Ordered.get? (server.run front).tasks task = some (.query connection id job) →
      (∃ rest, Ordered.get? (server.run actions).tasks task = some (.query connection id rest)) ∨
        ∃ middle rest, back = middle ++ .advance task :: rest ∧
          Concludes (server.run (front ++ middle)) task connection id := by
  intro server
  have tended : Tended server := tended_start engine world drainTimeout
  have reached : ∀ front back, actions = front ++ back →
      Tended (server.run front) ∧ OnOpened (server.run front) back := by
    intro front back split
    rw [split] at onOpened
    exact tended.run onOpened
  refine ⟨?_, ?_, ?_⟩
  · intro front back split
    obtain ⟨now, -⟩ := reached front back split
    refine ⟨?_, now.served connection, ?_⟩
    · intro known found
      have told := now.told connection
      rw [phase?, found] at told
      simp only [Option.map_some, Option.some.injEq] at told
      rw [told, decide_eq_true_eq]
    · rintro ⟨phase, found, notClosed⟩
      exact now.housed.served connection phase found notClosed
  · intro front action back split
    obtain ⟨now, -⟩ := reached front (action :: back) split
    rw [run_append]
    exact now.governed action connection
  · intro front back task id job split found
    obtain ⟨now, later⟩ := reached front back split
    rw [split, run_append]
    rcases now.concludes later found with running | ⟨middle, rest, split, concludes⟩
    · exact Or.inl running
    · refine Or.inr ⟨middle, rest, split, ?_⟩
      rw [run_append]
      exact concludes

end Server

namespace Gondola

open Server

/-- A drain begins while the client waits for its answer. It gets that, its connection is closed,
and then it calls once more. -/
def closing : List Action :=
  [.beginDrain, .advance ⟨0⟩, .advance ⟨1⟩, .advance ⟨1⟩, .handle ⟨1⟩ .ping]

def life : List Action := .openConnection :: .handle ⟨1⟩ (.start "runs" request) :: closing

theorem run_life (rest : List Action) :
    (start engine world 1000).run (.openConnection :: .handle ⟨1⟩ (.start "runs" request) :: rest) =
      begun.run rest := by
  have asked : opened.act (.handle ⟨1⟩ (.start "runs" request)) = begun := by rw [act, handled]
  show (opened.act (.handle ⟨1⟩ (.start "runs" request))).run rest = begun.run rest
  rw [asked]

theorem onOpened_life : OnOpened (start engine world 1000) life := by
  have asked : opened.act (.handle ⟨1⟩ (.start "runs" request)) = begun := by rw [act, handled]
  have later : OnOpened begun closing := by
    apply OnOpened.cons_of_none rfl
    apply OnOpened.cons_of_none rfl
    apply OnOpened.cons_of_none rfl
    apply OnOpened.cons_of_none rfl
    apply OnOpened.cons _ (.nil _)
    rintro connection ⟨⟩
    decide
  apply OnOpened.cons_of_none rfl
  apply OnOpened.cons
  · rintro connection ⟨⟩
    decide
  · show OnOpened (opened.act (.handle ⟨1⟩ (.start "runs" request))) closing
    rw [asked]
    exact later

theorem run_keeps_lifecycle_closing :
    OnOpened (start engine world 1000) life ∧
      (begun.run (closing.take 1)).phase? ⟨1⟩ = some .closing ∧
      ⟨1⟩ ∈ (begun.run (closing.take 1)).live ∧
      (∃ job response gates world,
        Ordered.get? (begun.run (closing.take 1)).tasks ⟨0⟩ = some (.query ⟨1⟩ "runs" job) ∧
          job.resume engine (begun.run (closing.take 1)).gates (begun.run (closing.take 1)).world =
            (.finished response, gates, world) ∧
          gained ⟨1⟩ (begun.run (closing.take 1)) (begun.run (closing.take 2)) =
            [.next "runs" response, .complete "runs"]) ∧
      (begun.run (closing.take 4)).phase? ⟨1⟩ = some .closed ∧
      ⟨1⟩ ∉ (begun.run (closing.take 4)).live ∧
      gained ⟨1⟩ (begun.run (closing.take 4)) (begun.run closing) = [] := by
  have isClosing : (begun.run (closing.take 1)).phase? ⟨1⟩ = some .closing := rfl
  have isClosed : (begun.run (closing.take 4)).phase? ⟨1⟩ = some .closed := rfl
  obtain ⟨states, governed, concluded⟩ :=
    run_keeps_lifecycle engine world 1000 life onOpened_life ⟨1⟩
  have front : ∀ count, life = life.take (count + 2) ++ life.drop (count + 2) := fun count =>
    (List.take_append_drop _ life).symm
  have reached : ∀ count,
      (start engine world 1000).run (life.take (count + 2)) = begun.run (closing.take count) :=
    fun count => run_life (closing.take count)
  refine ⟨onOpened_life, isClosing, ?_, ?_, isClosed, ?_, ?_⟩
  · have served := (states _ _ (front 1)).2.mpr
    rw [reached 1] at served
    exact served ⟨.closing, isClosing, by decide⟩
  · have found : Ordered.get? (begun.run (closing.take 1)).tasks ⟨0⟩ =
        some (.query ⟨1⟩ "runs" (.queued operation)) := rfl
    rcases concluded _ _ ⟨0⟩ "runs" (.queued operation) (front 1)
        (by rw [reached 1]; exact found) with ⟨rest, running⟩ | ⟨middle, rest, split, concludes⟩
    · rw [life, run_life closing] at running
      cases running
    · have first : middle = [] := by
        cases middle with
        | nil => rfl
        | cons action middle =>
          have later : closing.drop 2 = middle ++ .advance ⟨0⟩ :: rest := (List.cons.inj split).2
          have member : Action.advance ⟨0⟩ ∈ closing.drop 2 := by simp [later]
          simp [closing] at member
      subst first
      rw [List.append_nil, reached 1] at concludes
      obtain ⟨job, response, gates, world, known, resumed, queued⟩ := concludes.queued
      refine ⟨job, response, gates, world, known, resumed, ?_⟩
      rw [if_neg (by rw [isClosing]; decide)] at queued
      exact queued
  · intro served
    have notClosed := (states _ _ (front 4)).2.mp
    rw [reached 4] at notClosed
    obtain ⟨phase, found, notClosed⟩ := notClosed served
    exact notClosed (Option.some.inj (found.symm.trans isClosed))
  · have now := (governed (life.take 6) (.handle ⟨1⟩ .ping) [] rfl).closed
    have whole : (start engine world 1000).run (life.take 6 ++ [.handle ⟨1⟩ .ping]) =
        begun.run closing := run_life closing
    rw [reached 4, whole] at now
    exact now isClosed

end Gondola

end MockGraph
