import MockGraph.Proofs.Server.Outbox
import MockGraph.Proofs.Server.Sweep
set_option autoImplicit false

namespace MockGraph

/-- What happens on a connection: a client's start is handled, or a message is queued. -/
inductive Occurrence where
  | started (name : String)
  | queued (message : ServerMessage)

namespace Occurrence

def message? : Occurrence → Option ServerMessage
  | started _ => none
  | queued message => some message

/-- A result under the name comes only after a start of that name. -/
def Quiet (name : String) (log : List Occurrence) : Prop :=
  ∀ front response back, log = front ++ queued (.next name response) :: back → started name ∈ front

/-- What is complete is quiet from then on. -/
def Silent (name : String) (log : List Occurrence) : Prop :=
  ∀ front back, log = front ++ queued (.complete name) :: back → Quiet name back

variable {name : String} {front back : List Occurrence}

theorem Quiet.started (name : String) (log : List Occurrence) :
    Quiet name (.started name :: log) := by
  intro front response back split
  cases front with
  | nil => cases split
  | cons first rest =>
    rw [(List.cons.inj split).1]
    exact List.mem_cons_self

theorem quiet_of_notMem (none : ∀ response, queued (.next name response) ∉ front) :
    Quiet name front := by
  intro before response after split
  have member : queued (.next name response) ∈ front := by simp [split]
  exact absurd member (none response)

theorem Quiet.append (first : Quiet name front) (second : Quiet name back) :
    Quiet name (front ++ back) := by
  intro before response after split
  rcases List.append_eq_append_iff.mp split with ⟨middle, rfl, later⟩ | ⟨middle, earlier, later⟩
  · exact List.mem_append_right _ (second middle response after later)
  · cases middle with
    | nil => exact absurd (second [] response after later.symm) List.not_mem_nil
    | cons occurrence middle =>
      rw [List.cons_append, List.cons.injEq] at later
      rw [← later.1] at earlier
      exact first before response middle earlier

theorem silent_of_notMem (none : queued (.complete name) ∉ front) : Silent name front := by
  intro before after split
  have member : queued (.complete name) ∈ front := by simp [split]
  exact absurd member none

/-- Where something is complete, all that comes later has to be quiet. -/
theorem Silent.append (first : Silent name front) (second : Silent name back)
    (quiet : queued (.complete name) ∈ front → Quiet name back) : Silent name (front ++ back) := by
  intro before after split
  rcases List.append_eq_append_iff.mp split with ⟨middle, rfl, later⟩ | ⟨middle, earlier, later⟩
  · exact second middle after later
  · cases middle with
    | nil => exact second [] after later.symm
    | cons occurrence middle =>
      rw [List.cons_append, List.cons.injEq] at later
      rw [← later.1] at earlier
      rw [later.2]
      have member : queued (.complete name) ∈ front := by simp [earlier]
      exact (first before middle earlier).append (quiet member)

end Occurrence

open Occurrence

/-- The starts on a connection that an action handles. -/
def Action.starts (connection : ConnectionId) : Action → List Occurrence
  | handle other (.start name _) => if other = connection then [.started name] else []
  | _ => []

theorem Action.mem_starts {connection : ConnectionId} {action : Action} {occurrence : Occurrence}
    (member : occurrence ∈ action.starts connection) :
    ∃ name request, occurrence = .started name ∧
      action = .handle connection (.start name request) := by
  cases action with
  | handle other message =>
    cases message with
    | start name request =>
      change occurrence ∈ if other = connection then [Occurrence.started name] else [] at member
      split at member
      · rename_i same
        exact ⟨name, request, List.mem_singleton.mp member, by rw [same]⟩
      · cases member
    | _ => cases member
  | _ => cases member

/-- An operation of a connection that is to be registered or runs, by its name. -/
def Task.uses (connection : ConnectionId) (name : String) : Task → Bool
  | register other id _ | query other id _ => other = connection ∧ id = name
  | _ => false

namespace Server

variable {σ : Type} {server before after : Server σ} {connection : ConnectionId} {name : String}

/-- What happens on a connection while actions are taken, in order. -/
def log (connection : ConnectionId) : Server σ → List Action → List Occurrence
  | _, [] => []
  | server, action :: rest =>
    let after := server.act action
    action.starts connection ++
      (((after.outbox connection).drop (server.outbox connection).length).map .queued ++
        log connection after rest)

theorem log_cons {action : Action} {messages : List ServerMessage}
    (queues : Queues connection server (server.act action) messages) (rest : List Action) :
    log connection server (action :: rest) = action.starts connection ++
      (messages.map .queued ++ log connection (server.act action) rest) := by
  rw [log, queues.outbox, List.drop_left]

theorem filterMap_starts (connection : ConnectionId) (action : Action) :
    (action.starts connection).filterMap message? = [] := by
  rw [List.filterMap_eq_nil_iff]
  intro occurrence member
  obtain ⟨name, request, rfl, -⟩ := Action.mem_starts member
  rfl

theorem outbox_run (housed : Housed server) (actions : List Action) (connection : ConnectionId) :
    (server.run actions).outbox connection =
      server.outbox connection ++ (log connection server actions).filterMap message? := by
  induction actions generalizing server with
  | nil => exact (List.append_nil _).symm
  | cons action rest ih =>
    obtain ⟨messages, queues, -⟩ := sends_act housed action connection
    have sent : (messages.map queued).filterMap message? = messages := by
      rw [List.filterMap_map]
      exact List.filterMap_some
    rw [run_cons, ih (housed.act action), queues.outbox, log_cons queues, List.filterMap_append,
      List.filterMap_append, filterMap_starts, sent, List.nil_append, List.append_assoc]

/-- A name is in use on a connection: an operation under it is to be registered, runs, or is
registered. -/
structure InUse (server : Server σ) (connection : ConnectionId) (name : String) : Prop where
  notClosed : server.phase? connection ≠ some .closed
  uses : (∃ id task, Ordered.get? server.tasks id = some task ∧ task.uses connection name = true) ∨
    ∃ registration ∈ server.registry.registered,
      registration.connection = connection ∧ registration.operationId = name

theorem closed_act (housed : Housed server) (action : Action)
    (closed : server.phase? connection = some .closed) :
    (server.act action).phase? connection = some .closed := by
  rcases (moves_act server action).phase_cases housed connection with
    same | ⟨absent, -⟩ | ⟨isOpen, -⟩ | ⟨still, -⟩
  · exact same.trans closed
  · rw [closed] at absent
    cases absent
  · rw [closed] at isOpen
    cases isOpen
  · exact still

theorem closed_run (housed : Housed server) (closed : server.phase? connection = some .closed)
    (actions : List Action) : (server.run actions).phase? connection = some .closed := by
  induction actions generalizing server with
  | nil => exact closed
  | cons action rest ih => exact ih (housed.act action) (closed_act housed action closed)

/-- Registrations go to the connection that they belong to. -/
def Addressed (server : Server σ) : Prop :=
  ∀ registration ∈ server.registry.registered, registration.sink = sinkOf registration.connection

theorem Addressed.act (addressed : Addressed server) (consistent : server.registry.Consistent)
    (action : Action) : Addressed (server.act action) := by
  intro registration member
  rcases mem_registered_act consistent member with old | ⟨id, task, -, -, makes⟩
  · exact addressed registration old
  · exact makes.sink

theorem nextTask_advance (server : Server σ) (task : TaskId) :
    (server.advance task).nextTask = server.nextTask := by
  cases found : Ordered.get? server.tasks task with
  | none => rw [advance, found]
  | some kind =>
    cases kind with
    | purge closed =>
      rw [advance, found]
      dsimp only
      unfold purge
      dsimp only
      split <;> rfl
    | register owner id operation =>
      rw [advance, found]
      dsimp only
      unfold registerSubscription
      dsimp only
      split
      · rfl
      · split <;> rfl
    | withdraw owner id registration =>
      rw [advance, found]
      dsimp only
      unfold withdraw
      dsimp only
      split <;> rfl
    | unregister =>
      rw [advance, found]
      rfl
    | answered | drained => rw [advance, found]
    | query owner id job =>
      rcases advance_query found with
        waits | ⟨middle, idle, -, ⟨rest, goesOn⟩ | ⟨response, gates, world, -, finished⟩⟩
      · rw [waits]
      · rw [goesOn]
        exact idle.nextTask
      · rw [finished]
        exact idle.nextTask
    | request job =>
      rcases advance_request found with
        waits | ⟨middle, idle, -, ⟨rest, goesOn⟩ | ⟨response, gates, world, -, finished⟩⟩
      · rw [waits]
      · rw [goesOn]
        exact idle.nextTask
      · rw [finished]
        exact idle.nextTask
    | drain connections deadline =>
      rw [advance, found]
      dsimp only
      split <;> rfl
    | complete remaining report =>
      rw [advance, found]
      cases remaining with
      | nil => rfl
      | cons closed rest =>
        exact (idle_foldl _ (fun server name => idle_send server closed (.complete name))
          _).nextTask

section Uses

variable (numbered : ∀ id task, Ordered.get? server.tasks id = some task →
  id.number < server.nextTask)
include numbered

/-- An operation of a connection is added by the client's start of it, and by nothing else. -/
theorem started_of_uses {action : Action} {task : Task}
    (found : Ordered.get? (server.act action).tasks ⟨server.nextTask⟩ = some task)
    (uses : task.uses connection name = true) :
    ∃ request, action = .handle connection (.start name request) := by
  have absent : Ordered.get? server.tasks ⟨server.nextTask⟩ ≠ some task :=
    fun known => Nat.lt_irrefl _ (numbered _ task known)
  have counts : (server.act action).nextTask ≠ server.nextTask := by
    intro same
    have given := (moves_act server action).numbered numbered _ task found
    rw [same] at given
    exact Nat.lt_irrefl _ given
  have added : ∀ {before : Server σ} {other : Task}, before.nextTask = server.nextTask →
      Ordered.get? (before.spawn other).2.tasks ⟨server.nextTask⟩ = some task →
      other.uses connection name = true := by
    intro before other same found
    rw [get?_spawn, same, if_pos rfl] at found
    obtain rfl := Option.some.inj found
    exact uses
  have kept : ∀ id, Ordered.get? (server.close id).2.tasks ⟨server.nextTask⟩ ≠ some task := by
    intro id found
    unfold close at found
    split at found
    · exact absent found
    · cases added rfl found
  cases action with
  | openConnection =>
    refine absurd ?_ counts
    unfold act openConnection
    dsimp only
    split <;> rfl
  | close id => exact absurd found (kept id)
  | handle id message =>
    cases message with
    | connectionInit | ping | pong => exact absurd rfl counts
    | connectionTerminate => exact absurd found (kept id)
    | stop => cases added rfl found
    | start other request =>
      unfold act handle startOperation at found
      dsimp only at found
      split at found
      · exact absurd found absent
      · split at found
        · exact absurd found absent
        · have same := added rfl found
          have known : id = connection ∧ other = name := by
            split at same <;> exact of_decide_eq_true same
          exact ⟨request, by rw [known.1, known.2]⟩
  | publish event => exact absurd (idle_publish server event).nextTask counts
  | pump =>
    refine absurd ?_ counts
    unfold act pump
    dsimp only
    split
    · exact (idle_publish _ _).nextTask
    · rfl
  | submit request =>
    unfold act submit at found
    dsimp only at found
    split at found
    · exact absurd found absent
    · split at found
      · exact absurd found absent
      · split at found
        · exact absurd found absent
        · cases added rfl found
  | beginDrain =>
    have drain := (beginsDrain server).tasks ⟨server.nextTask⟩
    rw [if_pos rfl] at drain
    obtain rfl := Option.some.inj (drain.symm.trans found)
    cases uses
  | advance id => exact absurd (nextTask_advance server id) counts
  | release | wait => exact absurd rfl counts
  | reload schema =>
    obtain ⟨engine, reloaded⟩ := act_reload server schema
    rw [reloaded] at counts
    exact absurd rfl counts

/-- Of the operations of a connection, each is known from before or has just been started. What runs
ran before. -/
theorem uses_act {action : Action} {id : TaskId} {task : Task}
    (found : Ordered.get? (server.act action).tasks id = some task)
    (uses : task.uses connection name = true) :
    (∃ old, Ordered.get? server.tasks id = some old ∧ old.uses connection name = true ∧
        (task.isQueryOf connection = true → old.isQueryOf connection = true)) ∨
      id = ⟨server.nextTask⟩ ∧ ∃ request, action = .handle connection (.start name request) := by
  rcases (moves_act server action).lookup id with
    same | woken | ⟨-, old, earlier, goes⟩ | ⟨rfl, new, -, -⟩
  · exact Or.inl ⟨task, same.symm.trans found, uses, fun same => same⟩
  · rw [found] at woken
    obtain ⟨old, earlier, rfl⟩ := Option.map_eq_some_iff.mp woken.symm
    refine Or.inl ⟨old, earlier, ?_, ?_⟩ <;> cases old <;>
      first | exact uses | exact fun same => same
  · rw [found] at goes
    cases goes with
    | completes => cases uses
    | on follows =>
      cases follows with
      | query => exact Or.inl ⟨_, earlier, uses, fun same => same⟩
      | withdraw | request | answered | complete | drained => cases uses
  · exact Or.inr ⟨rfl, started_of_uses numbered found uses⟩

end Uses

/-- A name that is not in use stays so until it is started. -/
theorem InUse.of_act {action : Action} (swept : Swept server)
    (inUse : InUse (server.act action) connection name)
    (other : ∀ request, action ≠ .handle connection (.start name request)) :
    InUse server connection name := by
  have notClosed : server.phase? connection ≠ some .closed :=
    fun closed => inUse.notClosed (closed_act swept.housed action closed)
  refine ⟨notClosed, ?_⟩
  rcases inUse.uses with ⟨id, task, found, uses⟩ | ⟨registration, member, place, same⟩
  · rcases uses_act swept.numbered found uses with ⟨old, earlier, uses, -⟩ | ⟨-, request, started⟩
    · exact Or.inl ⟨id, old, earlier, uses⟩
    · exact absurd started (other request)
  · rcases mem_registered_act swept.consistent member with old | ⟨id, task, -, found, makes⟩
    · exact Or.inr ⟨registration, old, place, same⟩
    · obtain ⟨operation, rfl⟩ := makes.begun
      exact Or.inl ⟨id, _, found, decide_eq_true ⟨place, same⟩⟩

theorem inUse_of_next (addressed : Addressed server) {action : Action}
    {messages : List ServerMessage} (queues : Queues connection server (server.act action) messages)
    (source : Source connection server (server.act action) action messages) {response : Response}
    (member : .next name response ∈ messages) : InUse server connection name := by
  have notClosed : server.phase? connection ≠ some .closed := by
    intro closed
    rw [queues.closed closed] at member
    cases member
  refine ⟨notClosed, ?_⟩
  cases source with
  | replies reply => cases reply _ member
  | @result task id job _ _ found _ part =>
    rcases List.mem_cons.mp (part.mem member) with same | other
    · cases same
      exact Or.inl ⟨task, _, found, decide_eq_true ⟨rfl, rfl⟩⟩
    · cases List.mem_singleton.mp other
  | events sent =>
    obtain ⟨-, registration, registered, sink, _, same⟩ := sent _ member
    cases same
    rw [addressed registration registered] at sink
    have place : registration.connection = connection := by
      cases place : registration.connection
      cases connection
      rw [place] at sink
      exact congrArg ConnectionId.mk (SinkId.mk.inj sink)
    exact Or.inr ⟨registration, registered, place, rfl⟩
  | drain sent =>
    obtain ⟨-, id, same⟩ := sent _ member
    cases same

/-- While a query or a mutation runs under a name on a connection that is not closed, nothing else
uses the name. -/
def Sole (server : Server σ) (connection : ConnectionId) (name : String) : Prop :=
  server.phase? connection ≠ some .closed → ∀ id task, Ordered.get? server.tasks id = some task →
    task.uses connection name = true → task.isQueryOf connection = true →
      (∀ other otherTask, Ordered.get? server.tasks other = some otherTask →
        otherTask.uses connection name = true → other = id) ∧
      ∀ registration ∈ server.registry.registered,
        ¬ (registration.connection = connection ∧ registration.operationId = name)

theorem Sole.act (sole : Sole server connection name) (swept : Swept server) {action : Action}
    (inTurn : ∀ request, action = .handle connection (.start name request) →
      ¬ InUse server connection name) : Sole (server.act action) connection name := by
  intro notClosed id task found uses runs
  have notClosed : server.phase? connection ≠ some .closed :=
    fun closed => notClosed (closed_act swept.housed action closed)
  rcases uses_act swept.numbered found uses with
    ⟨old, earlier, usesOld, ranOld⟩ | ⟨rfl, request, started⟩
  · obtain ⟨single, unregistered⟩ := sole notClosed id old earlier usesOld (ranOld runs)
    refine ⟨?_, ?_⟩
    · intro other otherTask otherFound otherUses
      rcases uses_act swept.numbered otherFound otherUses with
        ⟨known, before, usesKnown, -⟩ | ⟨-, request, started⟩
      · exact single other known before usesKnown
      · exact absurd ⟨notClosed, Or.inl ⟨id, old, earlier, usesOld⟩⟩ (inTurn request started)
    · rintro registration member ⟨place, same⟩
      rcases mem_registered_act swept.consistent member with
        before | ⟨other, kind, -, present, makes⟩
      · exact unregistered registration before ⟨place, same⟩
      · obtain ⟨operation, rfl⟩ := makes.begun
        rw [single other _ present (decide_eq_true ⟨place, same⟩), earlier] at present
        obtain rfl := Option.some.inj present
        cases ranOld runs
  · have unused := inTurn request started
    refine ⟨?_, ?_⟩
    · intro other otherTask otherFound otherUses
      rcases uses_act swept.numbered otherFound otherUses with
        ⟨known, before, usesKnown, -⟩ | ⟨same, -⟩
      · exact absurd ⟨notClosed, Or.inl ⟨other, known, before, usesKnown⟩⟩ unused
      · exact same
    · rintro registration member here
      rcases mem_registered_act swept.consistent member with before | ⟨other, task, steps, -⟩
      · exact unused ⟨notClosed, Or.inr ⟨registration, before, here⟩⟩
      · rw [steps] at started
        cases started

/-- Where a name has one use at a time, it has none any more when its operation is complete. -/
theorem Sole.unused_of_complete (sole : Sole server connection name) (swept : Swept server)
    {action : Action} {messages : List ServerMessage}
    (queues : Queues connection server (server.act action) messages)
    (source : Source connection server (server.act action) action messages)
    (member : .complete name ∈ messages) : ¬ InUse (server.act action) connection name := by
  intro inUse
  cases source with
  | replies reply => cases reply _ member
  | events sent =>
    obtain ⟨-, registration, -, -, response, same⟩ := sent _ member
    cases same
  | drain sent => exact inUse.notClosed (sent _ member).1
  | @result task id job response _ found gone part =>
    have own : id = name := by
      rcases List.mem_cons.mp (part.mem member) with other | same
      · cases other
      · cases List.mem_singleton.mp same
        rfl
    subst own
    have notClosed : server.phase? connection ≠ some .closed := by
      intro closed
      rw [queues.closed closed] at member
      cases member
    obtain ⟨single, unregistered⟩ :=
      sole notClosed task _ found (decide_eq_true ⟨rfl, rfl⟩) (beq_self_eq_true connection)
    rcases inUse.uses with ⟨other, known, later, uses⟩ | ⟨registration, registered, here⟩
    · rcases uses_act swept.numbered later uses with ⟨old, earlier, uses, -⟩ | ⟨-, request, started⟩
      · rw [single other old earlier uses, gone] at later
        cases later
      · cases started
    · rcases mem_registered_act swept.consistent registered with
        before | ⟨other, known, steps, earlier, makes⟩
      · exact unregistered registration before here
      · obtain ⟨operation, rfl⟩ := makes.begun
        cases steps
        rw [found] at earlier
        cases earlier

/-- A name that is not in use is quiet until it is started. -/
theorem quiet_log (swept : Swept server) (addressed : Addressed server)
    (unused : ¬ InUse server connection name) (actions : List Action) :
    Quiet name (log connection server actions) := by
  induction actions generalizing server with
  | nil => exact quiet_of_notMem fun _ => List.not_mem_nil
  | cons action rest ih =>
    obtain ⟨messages, queues, source⟩ := sends_act swept.housed action connection
    rw [log_cons queues]
    by_cases started : ∃ request, action = .handle connection (.start name request)
    · obtain ⟨request, rfl⟩ := started
      have starts : Action.starts connection (.handle connection (.start name request)) =
          [.started name] := if_pos rfl
      rw [starts]
      exact .started name _
    · refine .append ?_ (.append ?_ ?_)
      · refine quiet_of_notMem fun response member => ?_
        obtain ⟨_, _, impossible, -⟩ := Action.mem_starts member
        cases impossible
      · refine quiet_of_notMem fun response member => ?_
        obtain ⟨message, sent, same⟩ := List.mem_map.mp member
        cases same
        exact unused (inUse_of_next addressed queues source sent)
      · exact ih (swept.act action) (addressed.act swept.consistent action) fun inUse =>
          unused (inUse.of_act swept (not_exists.mp started))

/-- A connection's client starts a name only when it is not in use. -/
def InTurn (connection : ConnectionId) (name : String) (server : Server σ) (actions : List Action) :
    Prop :=
  ∀ front request back, actions = front ++ .handle connection (.start name request) :: back →
    ¬ InUse (server.run front) connection name

theorem InTurn.step {action : Action} {rest : List Action}
    (inTurn : InTurn connection name server (action :: rest)) :
    InTurn connection name (server.act action) rest := by
  intro front request back split
  exact inTurn (action :: front) request back (by rw [split]; rfl)

theorem InTurn.nil (server : Server σ) : InTurn connection name server [] := by
  intro front request back split
  cases front <;> cases split

theorem InTurn.cons {action : Action} {rest : List Action}
    (now : ∀ request, action = .handle connection (.start name request) →
      ¬ InUse server connection name) (later : InTurn connection name (server.act action) rest) :
    InTurn connection name server (action :: rest) := by
  intro front request back split
  cases front with
  | nil => exact now request (List.cons.inj split).1
  | cons first others =>
    obtain ⟨rfl, same⟩ := List.cons.inj split
    exact later others request back same

/-- What one action queues is silent: a result comes before that it is complete. -/
theorem Source.silent {action : Action} {messages : List ServerMessage}
    (source : Source connection before after action messages) :
    Silent name (messages.map queued) := by
  have without : (∀ id, .complete id ∉ messages) → Silent name (messages.map queued) := by
    intro none
    refine silent_of_notMem fun member => ?_
    obtain ⟨message, sent, same⟩ := List.mem_map.mp member
    cases same
    exact none name sent
  cases source with
  | replies reply => exact without fun id member => by cases reply _ member
  | events sent =>
    refine without fun id member => ?_
    obtain ⟨-, registration, -, -, response, same⟩ := sent _ member
    cases same
  | drain sent =>
    intro front back split
    refine quiet_of_notMem fun response member => ?_
    have inside : queued (.next name response) ∈ messages.map queued := by
      rw [split]
      exact List.mem_append_right _ (List.mem_cons_of_mem _ member)
    obtain ⟨message, sentMessage, same⟩ := List.mem_map.mp inside
    cases same
    obtain ⟨-, id, impossible⟩ := sent _ sentMessage
    cases impossible
  | @result _ id _ response _ _ _ part =>
    intro front back split
    refine quiet_of_notMem fun other member => ?_
    -- the result would come after the message that comes last
    have order := part.map queued
    rw [split] at order
    have later : [queued (.complete name), queued (.next name other)].Sublist
        [queued (.next id response), queued (.complete id)] := by
      refine List.Sublist.trans ?_ order
      refine List.Sublist.trans ?_ (List.sublist_append_right _ _)
      exact List.Sublist.cons_cons _ (List.singleton_sublist.mpr member)
    cases later.eq_of_length rfl

/-- Where a name has one use at a time, what is complete stays silent. -/
theorem silent_log (swept : Swept server) (addressed : Addressed server)
    (sole : Sole server connection name) {actions : List Action}
    (inTurn : InTurn connection name server actions) :
    Silent name (log connection server actions) := by
  induction actions generalizing server with
  | nil => exact silent_of_notMem List.not_mem_nil
  | cons action rest ih =>
    obtain ⟨messages, queues, source⟩ := sends_act swept.housed action connection
    have sweptAfter := swept.act action
    have addressedAfter := addressed.act swept.consistent action
    have soleAfter : Sole (server.act action) connection name := by
      refine sole.act swept fun request same => ?_
      exact inTurn [] request rest (by rw [same]; rfl)
    have unstarted : ∀ message, queued message ∉ action.starts connection := by
      intro message member
      obtain ⟨_, _, impossible, -⟩ := Action.mem_starts member
      cases impossible
    rw [log_cons queues]
    refine .append (silent_of_notMem (unstarted _)) ?_ fun member => absurd member (unstarted _)
    refine .append source.silent (ih sweptAfter addressedAfter soleAfter inTurn.step) fun member =>
      ?_
    obtain ⟨message, sent, same⟩ := List.mem_map.mp member
    cases same
    exact quiet_log sweptAfter addressedAfter (sole.unused_of_complete swept queues source sent)
      rest

theorem sole_start (engine : Engine σ) (world : World σ) (drainTimeout : Nat) :
    Sole (start engine world drainTimeout) connection name := by
  intro _ id task found
  cases found

theorem addressed_start (engine : Engine σ) (world : World σ) (drainTimeout : Nat) :
    Addressed (start engine world drainTimeout) := nofun

theorem Addressed.run (addressed : Addressed server) (swept : Swept server)
    (actions : List Action) : Addressed (server.run actions) := by
  induction actions generalizing server with
  | nil => exact addressed
  | cons action rest ih => exact ih (addressed.act swept.consistent action) (swept.act action)

/-- From when a name is not in use on a connection, no result is queued under it until it is
started. So what is complete stays silent until it is started again, as long as the client starts
the name only when it is not in use. All that is queued for the connection is in the log, in
order. -/
theorem run_stays_silent (engine : Engine σ) (world : World σ) (drainTimeout : Nat)
    (actions : List Action) (connection : ConnectionId) (name : String) :
    let server := start engine world drainTimeout
    (∀ front back, actions = front ++ back → ¬ InUse (server.run front) connection name →
      Quiet name (log connection (server.run front) back)) ∧
    (InTurn connection name server actions → Silent name (log connection server actions)) ∧
    (server.run actions).outbox connection =
      (log connection server actions).filterMap message? := by
  intro server
  have swept : Swept server := swept_start engine world drainTimeout
  have addressed : Addressed server := addressed_start engine world drainTimeout
  refine ⟨?_, ?_, outbox_run swept.housed actions connection⟩
  · intro front back _ unused
    exact quiet_log (swept.run front) (addressed.run swept front) unused back
  · exact silent_log swept addressed (sole_start engine world drainTimeout)

theorem log_append (connection : ConnectionId) (server : Server σ) (front back : List Action) :
    log connection server (front ++ back) =
      log connection server front ++ log connection (server.run front) back := by
  induction front generalizing server with
  | nil => rfl
  | cons action rest ih =>
    rw [List.cons_append, log, log, run_cons, ih, List.append_assoc, List.append_assoc]

end Server

namespace Chairlift

open Server

def ask : Request := ⟨"{runs}", none, none⟩

theorem handled_ask {server : Server Unit} {connection : ConnectionId}
    (same : server.engine = engine) (isOpen : server.phase? connection = some .open)
    (name : String) :
    server.act (.handle connection (.start name ask)) =
      (server.spawn (.query connection name (.queued (operation .query)))).2 := by
  rw [act]
  unfold handle startOperation
  dsimp only
  rw [if_neg (not_not.mpr isOpen), same]
  have accepted : engine.schema.parseOperation ask.query ask.operationName ask.bindings =
    .ok (operation .query) := parsed (by decide) rfl
  rw [accepted]
  rfl

theorem log_opened (rest : List Action) :
    log ⟨1⟩ (start engine world 1000) ([.openConnection, .openConnection] ++ rest) =
      log ⟨1⟩ opened rest := by
  rw [log_append, ← opened]
  rfl

def asked : Server Unit := (opened.spawn (.query ⟨1⟩ "mine" (.queued (operation .query)))).2

def answered : Server Unit := asked.act (.advance ⟨0⟩)

/-- It watches under the same name from then on. -/
def watching : Server Unit := (answered.spawn (.register ⟨1⟩ "mine" (operation .subscription))).2

def stops : Event := ⟨"runs", .bool false⟩

def asks : List Action :=
  [.openConnection, .openConnection, .handle ⟨1⟩ (.start "mine" ask), .advance ⟨0⟩]

def watches : List Action := [.handle ⟨1⟩ (.start "mine" watch), .advance ⟨1⟩, .publish stops]

theorem act_inTurn : opened.act (.handle ⟨1⟩ (.start "mine" ask)) = asked ∧
    answered.act (.handle ⟨1⟩ (.start "mine" watch)) = watching :=
  ⟨handled_ask rfl rfl "mine", handled_watch rfl rfl "mine"⟩

theorem run_asks : (start engine world 1000).run asks = answered := by
  show opened.run [.handle ⟨1⟩ (.start "mine" ask), .advance ⟨0⟩] = answered
  rw [run_cons, act_inTurn.1]
  rfl

theorem log_inTurn : ∃ first second, log ⟨1⟩ (start engine world 1000) (asks ++ watches) =
    [.started "mine", .queued (.next "mine" first), .queued (.complete "mine"), .started "mine",
      .queued (.next "mine" second)] := by
  obtain ⟨first, second⟩ := act_inTurn
  have whole : asks ++ watches =
      [.openConnection, .openConnection] ++ .handle ⟨1⟩ (.start "mine" ask) :: .advance ⟨0⟩ ::
        watches := rfl
  rw [whole, log_opened, log, first, log, ← answered, watches, log, second]
  exact ⟨_, _, rfl⟩

theorem not_inUse {server : Server Unit} (idle : server.tasks = [])
    (unregistered : server.registry.registered = []) : ¬ InUse server ⟨1⟩ "mine" := by
  rintro ⟨-, ⟨id, task, found, -⟩ | ⟨registration, member, -⟩⟩
  · rw [idle] at found
    cases found
  · rw [unregistered] at member
    cases member

/-- The client starts the name for the second time when it is not in use any more. -/
theorem inTurn_watches : InTurn ⟨1⟩ "mine" (start engine world 1000) (asks ++ watches) := by
  refine .cons nofun (.cons nofun ?_)
  refine .cons (fun _ _ => not_inUse rfl rfl) ?_
  show InTurn ⟨1⟩ "mine" (opened.act (.handle ⟨1⟩ (.start "mine" ask))) _
  rw [act_inTurn.1]
  refine .cons nofun (.cons (fun _ _ => not_inUse rfl rfl) ?_)
  exact .cons nofun (.cons nofun (.nil _))

/-- So it hears under the name again, but not before that. -/
theorem run_stays_silent_inTurn :
    (∃ first second, log ⟨1⟩ (start engine world 1000) (asks ++ watches) =
      [.started "mine", .queued (.next "mine" first), .queued (.complete "mine"), .started "mine",
        .queued (.next "mine" second)]) ∧
      Quiet "mine" (log ⟨1⟩ answered watches) ∧
      Silent "mine" (log ⟨1⟩ (start engine world 1000) (asks ++ watches)) := by
  obtain ⟨quiet, silent, -⟩ := run_stays_silent engine world 1000 (asks ++ watches) ⟨1⟩ "mine"
  have waits := quiet asks watches rfl
  rw [run_asks] at waits
  exact ⟨log_inTurn, waits (not_inUse rfl rfl), silent inTurn_watches⟩

/-- A client watches, and asks under the same name before it has been told of any change. -/
def atOnce : List Action :=
  [.openConnection, .openConnection] ++
    [.handle ⟨1⟩ (.start "mine" watch), .handle ⟨1⟩ (.start "mine" ask), .advance ⟨0⟩, .advance ⟨1⟩,
      .publish stops]

/-- It hears of a change under a name that is complete. -/
theorem result_after_complete : ¬ Silent "mine" (log ⟨1⟩ (start engine world 1000) atOnce) := by
  have first : opened.act (.handle ⟨1⟩ (.start "mine" watch)) = watched :=
    handled_watch rfl rfl "mine"
  have second : watched.act (.handle ⟨1⟩ (.start "mine" ask)) =
      (watched.spawn (.query ⟨1⟩ "mine" (.queued (operation .query)))).2 :=
    handled_ask rfl rfl "mine"
  have logged : ∃ answer change, log ⟨1⟩ (start engine world 1000) atOnce =
      [.started "mine", .started "mine", .queued (.next "mine" answer),
          .queued (.complete "mine")] ++ .queued (.next "mine" change) :: [] := by
    rw [atOnce, log_opened, log, first, log, second]
    exact ⟨_, _, rfl⟩
  obtain ⟨answer, change, logged⟩ := logged
  intro silent
  have quiet := silent [.started "mine", .started "mine", .queued (.next "mine" answer)] _ logged
  exact absurd (quiet [] change [] rfl) List.not_mem_nil

end Chairlift

end MockGraph
