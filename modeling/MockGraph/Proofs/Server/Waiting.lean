import Mathlib.Logic.Basic
import MockGraph.Proofs.Server.Invariant
set_option autoImplicit false

namespace MockGraph

namespace Task

/-- A drain that went on without waiting any longer because its time was up. -/
def overran : Task → Bool
  | complete _ report | drained report => report.timedOut
  | _ => false

/-- A drain that went on because nothing was running any more. -/
def inTime : Task → Bool
  | complete _ report | drained report => !report.timedOut
  | _ => false

/-- A drain still waits for the operations of a connection, if there is one. -/
def waitsFor (connection : ConnectionId) : Task → Bool
  | drain connections _ => connections.contains connection
  | complete _ _ | drained _ => false
  | _ => true

theorem waitsFor_of_not_isDrain {connection : ConnectionId} {task : Task}
    (other : task.isDrain = false) : task.waitsFor connection = true := by
  cases task <;> first | rfl | cases other

theorem inTime_of_not_isDrain {task : Task} (other : task.isDrain = false) :
    task.inTime = false := by
  cases task <;> first | rfl | cases other

end Task

def Action.isStepOf (task : TaskId) : Action → Bool
  | advance other => other = task
  | _ => false

theorem Action.eq_of_isStepOf {task : TaskId} {action : Action}
    (steps : action.isStepOf task = true) : action = .advance task := by
  cases action with
  | advance other => rw [of_decide_eq_true steps]
  | _ => cases steps

namespace Server

variable {σ : Type} {server : Server σ}

/-- A task stays what it is until its own step, but for permits. -/
theorem get?_act_of_given {task : TaskId} {kind : Task} {action : Action}
    (given : task.number < server.nextTask) (found : Ordered.get? server.tasks task = some kind)
    (other : action.isStepOf task = false) :
    Ordered.get? (server.act action).tasks task = some kind ∨
      Ordered.get? (server.act action).tasks task = some kind.permit := by
  rcases (moves_act server action).lookup task with same | woken | ⟨own, -⟩ | ⟨new, -⟩
  · exact Or.inl (same.trans found)
  · rw [found] at woken
    exact Or.inr woken
  · rw [own, Action.isStepOf, decide_eq_false_iff_not] at other
    exact absurd rfl other
  · rw [← new] at given
    exact absurd given (Nat.lt_irrefl _)

theorem get?_act_of_not_isStepOf {task : TaskId} {kind : Task} {action : Action}
    (numbered : ∀ id task, Ordered.get? server.tasks id = some task → id.number < server.nextTask)
    (found : Ordered.get? server.tasks task = some kind) (other : action.isStepOf task = false) :
    Ordered.get? (server.act action).tasks task = some kind ∨
      Ordered.get? (server.act action).tasks task = some kind.permit :=
  get?_act_of_given (numbered task _ found) found other

/-- A task that is over stays so: its number is not given again. -/
theorem gone_act {task : TaskId} (given : task.number < server.nextTask)
    (gone : Ordered.get? server.tasks task = none) (action : Action) :
    Ordered.get? (server.act action).tasks task = none := by
  rcases (moves_act server action).lookup task with same | woken | ⟨-, old, earlier, -⟩ | ⟨new, -⟩
  · exact same.trans gone
  · rw [gone] at woken
    exact woken
  · rw [gone] at earlier
    cases earlier
  · rw [← new] at given
    exact absurd given (Nat.lt_irrefl _)

theorem hasRunning_of_request {task : TaskId} {job : Job}
    (found : Ordered.get? server.tasks task = some (.request job))
    (connections : List ConnectionId) : server.hasRunning connections = true := by
  unfold hasRunning
  rw [List.any_eq_true]
  exact ⟨_, Ordered.mem_of_get? found, rfl⟩

theorem hasRunning_of_query {task : TaskId} {connection : ConnectionId} {id : String} {job : Job}
    (found : Ordered.get? server.tasks task = some (.query connection id job))
    {connections : List ConnectionId} (waits : connection ∈ connections) :
    server.hasRunning connections = true := by
  unfold hasRunning
  rw [List.any_eq_true]
  refine ⟨_, Ordered.mem_of_get? found, ?_⟩
  have own : (Task.query connection id job).isQueryOf connection = true :=
    beq_self_eq_true connection
  rw [Bool.or_eq_true, List.any_eq_true]
  exact Or.inr ⟨connection, waits, own⟩

/-- A request without a response, and no drain that was over in time. -/
structure Unanswered (server : Server σ) (task : TaskId) : Prop where
  pending : ∃ job, Ordered.get? server.tasks task = some (.request job)
  quiet : ∀ id other, Ordered.get? server.tasks id = some other → other.inTime = false

theorem inTime_permit (task : Task) : task.permit.inTime = task.inTime := by
  cases task <;> rfl

theorem Unanswered.quiet_act {task : TaskId} (unanswered : Unanswered server task)
    (action : Action) :
    ∀ id other, Ordered.get? (server.act action).tasks id = some other → other.inTime = false := by
  refine (moves_act server action).all unanswered.quiet ?_ ?_ ?_
  · intro other quiet
    rw [inTime_permit]
    exact quiet
  · intro id other next found goes
    have quiet := unanswered.quiet id other found
    cases goes with
    | completes => exact quiet
    | on follows =>
      cases follows with
      | withdraw | query | request | answered => rfl
      | drained => exact quiet
      | complete =>
        obtain ⟨job, running⟩ := unanswered.pending
        rw [Task.inTime, hasRunning_of_request running, Bool.not_true]
  · intro other arises
    cases arises with
    | purge | drain => rfl
    | accepted accepts => exact Task.inTime_of_not_isDrain accepts.isDrain

/-- The step of a task in which a request gets its response, while a drain, if one has begun, still
waits. -/
structure Answers (ready : Server σ) (task : TaskId) (response : Response) : Prop where
  resumed : ∃ job gates world, Ordered.get? ready.tasks task = some (.request job) ∧
    job.resume ready.engine ready.gates ready.world = (.finished response, gates, world)
  waiting : ∀ drain stage, Ordered.get? ready.tasks drain = some stage → stage.isDrain = true →
    ∃ connections deadline, stage = .drain connections deadline

/-- A drain has begun, and its time was up. -/
structure Overran (server : Server σ) : Prop where
  draining : server.draining = true
  all : ∀ id task, Ordered.get? server.tasks id = some task → task.isDrain = true →
      task.overran = true

theorem Tracked.overran {id : TaskId} {task : Task} (tracked : Tracked server)
    (found : Ordered.get? server.tasks id = some task) (kind : task.isDrain = true)
    (overran : task.overran = true) :
    Overran server := by
  refine ⟨?_, ?_⟩
  · refine Bool.not_eq_false _ |>.mp fun calm => ?_
    rw [tracked.calm calm id task found] at kind
    cases kind
  · intro other stage present drains
    obtain rfl := tracked.single id other task stage found present kind drains
    rw [found] at present
    obtain rfl := Option.some.inj present
    exact overran

theorem Unanswered.act {task : TaskId} (unanswered : Unanswered server task)
    (tracked : Tracked server) (notOverran : ¬ Overran server) (action : Action) :
    Unanswered (server.act action) task ∨ ∃ response, action = .advance task ∧
      Answers server task response ∧
      Ordered.get? (server.act action).tasks task = some (.answered response) := by
  obtain ⟨job, running⟩ := unanswered.pending
  have quiet := unanswered.quiet_act action
  cases steps : action.isStepOf task with
  | false =>
    refine Or.inl ⟨?_, quiet⟩
    rcases get?_act_of_not_isStepOf tracked.numbered running steps with same | woken
    · exact ⟨job, same⟩
    · exact ⟨job.permit, woken⟩
  | true =>
    obtain rfl := Action.eq_of_isStepOf steps
    rcases advance_request running with
      waits | ⟨middle, -, -, ⟨rest, goesOn⟩ | ⟨response, gates, world, resumed, finished⟩⟩
    · rw [Server.act, waits]
      exact Or.inl unanswered
    · refine Or.inl ⟨⟨rest, ?_⟩, quiet⟩
      rw [Server.act, goesOn, get?_become, if_pos rfl]
    · refine Or.inr ⟨response, rfl, ⟨⟨job, gates, world, running, resumed⟩, ?_⟩, ?_⟩
      · intro drain stage found kind
        have early := unanswered.quiet drain stage found
        cases stage with
        | drain connections deadline => exact ⟨connections, deadline, rfl⟩
        | complete | drained =>
          rw [Task.inTime, Bool.not_eq_false'] at early
          exact absurd (tracked.overran found rfl early) notOverran
        | _ => cases kind
      · rw [Server.act, finished, get?_become, if_pos rfl]

theorem answered_act (tracked : Tracked server) {task : TaskId} {response : Response}
    (found : Ordered.get? server.tasks task = some (.answered response)) (action : Action) :
    Ordered.get? (server.act action).tasks task = some (.answered response) := by
  cases steps : action.isStepOf task with
  | false =>
    rcases get?_act_of_not_isStepOf tracked.numbered found steps with same | woken
    · exact same
    · exact woken
  | true =>
    rw [Action.eq_of_isStepOf steps, Server.act, Server.advance, found]
    exact found

theorem answered_run {actions : List Action} (sound : Sound server) (once : Once server actions)
    {task : TaskId} {response : Response}
    (found : Ordered.get? server.tasks task = some (.answered response)) :
    Ordered.get? (server.run actions).tasks task = some (.answered response) := by
  induction actions generalizing server with
  | nil => exact found
  | cons action rest ih =>
    exact ih (sound.act once) once.step.2 (answered_act sound.tracked found action)

/-- An operation of a connection without a result. The connection is not closed, and a drain waits
for it. -/
structure Awaited (server : Server σ) (task : TaskId) (connection : ConnectionId) (id : String) :
    Prop where
  pending : ∃ job, Ordered.get? server.tasks task = some (.query connection id job)
  served : ∃ phase, server.phase? connection = some phase ∧ phase ≠ .closed
  waiting : ∀ other task, Ordered.get? server.tasks other = some task →
      task.waitsFor connection = true

theorem overran_permit (task : Task) : task.permit.overran = task.overran := by
  cases task <;> rfl

theorem waitsFor_permit (connection : ConnectionId) (task : Task) :
    task.permit.waitsFor connection = task.waitsFor connection := by
  cases task <;> rfl

theorem Overran.act {action : Action} {rest : List Action} (overran : Overran server)
    (once : Once server (action :: rest)) : Overran (server.act action) := by
  have other : action.isDrain = false := by
    refine Bool.eq_false_iff.mpr fun drains => ?_
    have calm := once.step.1 drains
    rw [overran.draining] at calm
    cases calm
  have moves := moves_act server action
  refine ⟨(moves.draining other).trans overran.draining, moves.all overran.all ?_ ?_ ?_⟩
  · intro task stays kind
    rw [overran_permit]
    exact stays ((isDrain_permit task).symm.trans kind)
  · intro id task next found goes kind
    have stays := overran.all id task found
    cases goes with
    | completes => exact stays kind
    | on follows =>
      cases follows with
      | withdraw | query | request | answered => cases kind
      | drained => exact stays kind
      | complete => cases stays kind
  · intro task arises kind
    cases arises with
    | purge => cases kind
    | drain => cases other
    | accepted accepts =>
      rw [accepts.isDrain] at kind
      cases kind

theorem Overran.run {actions : List Action} (overran : Overran server)
    (once : Once server actions) : Overran (server.run actions) := by
  induction actions generalizing server with
  | nil => exact overran
  | cons action rest ih => exact ih (overran.act once) once.step.2

section InTime

variable {actions : List Action} {drain : TaskId} {report : DrainReport}

theorem not_overran (once : Once server actions)
    (drained : Ordered.get? (server.run actions).tasks drain = some (.drained report))
    (inTime : report.timedOut = false) : ¬ Overran server := by
  intro overran
  have final : report.timedOut = true := (overran.run once).all drain _ drained rfl
  rw [inTime] at final
  cases final

/-- When a drain is over in time, a request has its response. -/
theorem Unanswered.run {task : TaskId} (unanswered : Unanswered server task) (sound : Sound server)
    (once : Once server actions)
    (drained : Ordered.get? (server.run actions).tasks drain = some (.drained report))
    (inTime : report.timedOut = false) :
    ∃ response, Ordered.get? (server.run actions).tasks task = some (.answered response) ∧
      ∃ front back, actions = front ++ .advance task :: back ∧
        Answers (server.run front) task response := by
  induction actions generalizing server with
  | nil =>
    have quiet := unanswered.quiet drain _ drained
    rw [Task.inTime, inTime] at quiet
    cases quiet
  | cons action rest ih =>
    have notOverran := not_overran once drained inTime
    rcases unanswered.act sound.tracked notOverran action with
      still | ⟨response, rfl, answers, answered⟩
    · obtain ⟨response, answered, front, back, split, answers⟩ :=
        ih still (sound.act once) once.step.2 drained
      exact ⟨response, answered, action :: front, back, by rw [split]; rfl, answers⟩
    · exact ⟨response, answered_run (sound.act once) once.step.2 answered, [], rest, rfl, answers⟩

end InTime

theorem Awaited.waiting_act {task : TaskId} {connection : ConnectionId} {id : String}
    {action : Action} {rest : List Action} (awaited : Awaited server task connection id)
    (sound : Sound server) (once : Once server (action :: rest)) :
    Overran (server.act action) ∨
      ∀ other task, Ordered.get? (server.act action).tasks other = some task →
        task.waitsFor connection = true := by
  obtain ⟨job, running⟩ := awaited.pending
  obtain ⟨phase, known, notClosed⟩ := awaited.served
  have moves := moves_act server action
  by_cases all : ∀ other task, Ordered.get? (server.act action).tasks other = some task →
      task.waitsFor connection = true
  · exact Or.inr all
  · refine Or.inl ?_
    simp only [not_forall, Bool.not_eq_true] at all
    obtain ⟨other, now, found, leaves⟩ := all
    rcases moves.lookup other with
      same | woken | ⟨steps, old, earlier, goes⟩ | ⟨-, new, added, arises⟩
    · rw [awaited.waiting other now (same.symm.trans found)] at leaves
      cases leaves
    · rw [woken] at found
      obtain ⟨old, earlier, rfl⟩ := Option.map_eq_some_iff.mp found
      rw [waitsFor_permit, awaited.waiting other old earlier] at leaves
      cases leaves
    · have waited := awaited.waiting other old earlier
      rw [found] at goes
      cases goes with
      | completes => cases waited
      | on follows =>
        cases follows with
        | withdraw | query | request | answered => cases leaves
        | drained => cases waited
        | @complete connections deadline =>
          -- the only step by which a drain stops waiting, and the operation still runs
          have runs := hasRunning_of_query running (List.contains_iff_mem.mp waited)
          have draining : server.draining = true := by
            refine Bool.not_eq_false _ |>.mp fun calm => ?_
            have none := sound.tracked.calm calm other _ earlier
            cases none
          refine ⟨(moves.draining (by rw [steps]; rfl)).trans draining, ?_⟩
          intro id task present kind
          have same := (sound.act once).tracked.single id other task _ present found kind rfl
          rw [same, found] at present
          obtain rfl := Option.some.inj present
          exact runs
    · obtain rfl : new = now := Option.some.inj (added.symm.trans found)
      cases arises with
      | purge => cases leaves
      | drain =>
        have member := sound.housed.served connection phase known notClosed
        rw [Task.waitsFor, List.contains_iff_mem.mpr member] at leaves
        cases leaves
      | accepted accepts =>
        rw [Task.waitsFor_of_not_isDrain accepts.isDrain] at leaves
        cases leaves

/-- No call closes a connection before a task is over. -/
def OutlastedBy (server : Server σ) (actions : List Action) (task : TaskId)
    (connection : ConnectionId) : Prop :=
  ∀ front purge back, actions = front ++ .advance purge :: back →
    Ordered.get? (server.run front).tasks purge = some (.purge connection) →
    (server.run front).phase? connection ≠ some .closed →
    Ordered.get? (server.run front).tasks task = none

theorem OutlastedBy.step {actions : List Action} {action : Action} {task : TaskId}
    {connection : ConnectionId}
    (outlasted : OutlastedBy server (action :: actions) task connection) :
    OutlastedBy (server.act action) actions task connection := by
  intro front purge back split found notClosed
  exact outlasted (action :: front) purge back (by rw [split]; rfl) found notClosed

theorem unpurged_act {action : Action} {connection : ConnectionId}
    (unpurged : ∀ id task, Ordered.get? server.tasks id = some task → task ≠ .purge connection)
    (kept : action.closes connection = false) :
    ∀ id task, Ordered.get? (server.act action).tasks id = some task →
      task ≠ .purge connection := by
  refine (moves_act server action).all unpurged ?_ ?_ ?_
  · intro task other same
    cases task with
    | purge => exact other same
    | _ => cases same
  · intro id task next _ goes same
    subst same
    cases goes with
    | on follows => cases follows
  · intro task arises same
    subst same
    cases arises with
    | purge closes =>
      rw [kept] at closes
      cases closes
    | accepted accepts => exact accepts

theorem outlastedBy_of_not_closes {actions : List Action} {connection : ConnectionId}
    (unpurged : ∀ id task, Ordered.get? server.tasks id = some task → task ≠ .purge connection)
    (kept : ∀ action ∈ actions, action.closes connection = false) (task : TaskId) :
    OutlastedBy server actions task connection := by
  intro front
  induction front generalizing server actions with
  | nil =>
    intro purge back _ found
    exact absurd rfl (unpurged purge _ found)
  | cons action rest ih =>
    intro purge back split
    rw [split] at kept
    have first := kept action List.mem_cons_self
    have later := fun other member => kept other (List.mem_cons_of_mem _ member)
    exact ih (unpurged_act unpurged first) later purge back rfl

theorem Awaited.act {task : TaskId} {connection : ConnectionId} {id : String} {action : Action}
    {rest : List Action} (awaited : Awaited server task connection id) (sound : Sound server)
    (once : Once server (action :: rest))
    (outlasted : OutlastedBy server (action :: rest) task connection)
    (still : ∃ job, Ordered.get? (server.act action).tasks task = some (.query connection id job)) :
    Overran (server.act action) ∨ Awaited (server.act action) task connection id := by
  refine (awaited.waiting_act sound once).imp_right fun waiting => ⟨still, ?_, waiting⟩
  obtain ⟨job, running⟩ := awaited.pending
  obtain ⟨phase, known, notClosed⟩ := awaited.served
  rcases (moves_act server action).notClosed known notClosed with
    served | ⟨other, steps, purge | ⟨rest, report, complete⟩⟩
  · exact served
  · subst steps
    have gone := outlasted [] other rest rfl purge (by
      change server.phase? connection ≠ some .closed
      rw [known]
      exact fun same => notClosed (Option.some.inj same))
    change Ordered.get? server.tasks task = none at gone
    rw [running] at gone
    cases gone
  · have waits := awaited.waiting other _ complete
    cases waits

end Server

end MockGraph
