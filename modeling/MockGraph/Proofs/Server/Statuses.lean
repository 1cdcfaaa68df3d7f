import MockGraph.Proofs.Json.Reading
import MockGraph.Proofs.Server.Rejection
import MockGraph.Server.Host
set_option autoImplicit false

namespace MockGraph

/-- Why a schema does not let an operation be executed. -/
def TypeSystem.faults (schema : TypeSystem) (operation : Operation) : List ValidationError :=
  match schema.root? operation.kind with
  | none => [.unsupportedOperation operation.kind]
  | some root => schema.selectionErrors root operation.selection

section Jobs

variable {σ : Type} {engine : Engine σ}

/-- An operation is begun if its schema finds no fault with it, and is rejected with all faults
otherwise. -/
theorem Engine.start_faults (engine : Engine σ) (operation : Operation) (payload : Option Json) :
    (engine.schema.faults operation = [] ∧
        ∃ progress, engine.start operation payload = .ok progress) ∨
      engine.schema.faults operation ≠ [] ∧
        engine.start operation payload = .error ⟨engine.schema.faults operation⟩ := by
  cases started : engine.start operation payload with
  | ok progress =>
    obtain ⟨root, known, valid, -⟩ := start_cases started
    refine Or.inl ⟨?_, progress, rfl⟩
    rw [TypeSystem.faults, known]
    exact valid
  | error rejection =>
    refine Or.inr ?_
    unfold start at started
    unfold TypeSystem.faults
    cases known : engine.schema.root? operation.kind with
    | none =>
      simp only [known, Except.error.injEq] at started
      subst started
      exact ⟨List.cons_ne_nil _ _, rfl⟩
    | some root =>
      simp only [known] at started
      cases errors : engine.schema.selectionErrors root operation.selection with
      | nil =>
        simp only [errors] at started
        split at started <;> cases started
      | cons error others =>
        simp only [errors, Except.error.injEq] at started
        subst started
        dsimp only
        rw [errors]
        exact ⟨List.cons_ne_nil _ _, rfl⟩

theorem Run.data_of_step {run : Run} {field : FieldSelection} {world : World σ}
    {response : Response} (stepped : (run.step engine field world).1 = .finished response) :
    response.data = some .null := by
  rcases run.step_cases engine field world with
    ⟨-, typename⟩ | ⟨-, ⟨error, -, skipped⟩ | ⟨definition, source, met, done, -, -, -,
      ⟨value, -, completed⟩ | ⟨-, ended⟩⟩⟩
  · rw [typename] at stepped
    cases stepped
  · rw [skipped] at stepped
    cases stepped
  · rw [completed] at stepped
    cases stepped
  · rw [ended] at stepped
    cases stepped
    rfl

/-- A run has data when it is over, at whichever gates it waits. -/
theorem Job.data_of_proceed {fields : List FieldSelection} {run : Run} {hasPermit : Bool}
    {gates left : Gates} {world after : World σ} {response : Response}
    (finished : proceed engine fields run hasPermit gates world =
      (.finished response, left, after)) : ∃ data, response.data = some data := by
  induction fields generalizing run hasPermit gates world with
  | nil =>
    cases finished
    exact ⟨_, rfl⟩
  | cons field rest ih =>
    unfold proceed at finished
    dsimp only at finished
    rcases stepped : run.step engine field world with ⟨progress, next⟩
    rw [stepped] at finished
    cases progress with
    | running next =>
      dsimp only at finished
      split at finished
      · exact ih finished
      · split at finished
        · exact ih finished
        · split at finished
          · exact ih finished
          · cases finished
    | finished answer =>
      have nulls := Run.data_of_step (congrArg Prod.fst stepped)
      dsimp only at finished
      split at finished
      · cases finished
        exact ⟨_, nulls⟩
      · split at finished
        · cases finished
          exact ⟨_, nulls⟩
        · split at finished
          · cases finished
            exact ⟨_, nulls⟩
          · cases finished

end Jobs

/-- What is left of a request after its first step: its errors if there are any, and otherwise a
run, or a response with data. -/
inductive Task.Checked : List ValidationError → Task → Prop
  | rejected {error others} :
      Checked (error :: others)
        (.answered (.ofErrors ((error :: others).map ValidationError.fieldError)))
  | running {remaining run hasPermit} : Checked [] (.request (.running remaining run hasPermit))
  | executed {response data} : response.data = some data → Checked [] (.answered response)

namespace Server

variable {σ : Type} {server : Server σ} {task : TaskId}

/-- The schema that a task meets with its first step. -/
def schemaMet? (task : TaskId) : Server σ → List Action → Option TypeSystem
  | _, [] => none
  | server, action :: rest =>
    if action.isStepOf task then some server.engine.schema
    else schemaMet? task (server.act action) rest

theorem schemaMet?_append (server : Server σ) (front back : List Action) :
    schemaMet? task server (front ++ back) =
      (schemaMet? task server front).or (schemaMet? task (server.run front) back) := by
  induction front generalizing server with
  | nil => rfl
  | cons action rest ih =>
    rw [List.cons_append, schemaMet?, schemaMet?, run_cons]
    split
    · rfl
    · exact ih (server.act action)

/-- A request that can go on waits at a gate again, or has its response. -/
theorem advance_ready {job : Job} (found : Ordered.get? server.tasks task = some (.request job))
    (ready : job.isWaiting = false) :
    server.advance task =
      server.resumeJob task job .request fun response server =>
        server.become task (.answered response) := by
  rw [advance_request_eq found, if_neg (Bool.eq_false_iff.mp ready)]

/-- What a job with data in its response leaves of a request. -/
theorem checked_resumeJob {job : Job} (data : ∀ response gates world,
      job.resume server.engine server.gates server.world = (.finished response, gates, world) →
      ∃ data, response.data = some data) :
    ∃ kind, Ordered.get? (server.resumeJob task job .request fun response server =>
      server.become task (.answered response)).tasks task = some kind ∧ kind.Checked [] := by
  unfold resumeJob
  rcases resumed : job.resume server.engine server.gates server.world with ⟨outcome, gates, world⟩
  cases outcome with
  | waiting gate remaining run => exact ⟨_, by rw [get?_become, if_pos rfl], .running⟩
  | finished response =>
    obtain ⟨value, has⟩ := data response gates world resumed
    exact ⟨_, by rw [get?_become, if_pos rfl], .executed has⟩

/-- A request with a fault is answered with its errors, and nothing else changes. -/
theorem advance_faulty {operation : Operation}
    (found : Ordered.get? server.tasks task = some (.request (.queued operation)))
    (faulty : server.engine.schema.faults operation ≠ []) :
    server.advance task =
      server.become task
        (.answered (.ofErrors
          ((server.engine.schema.faults operation).map ValidationError.fieldError))) := by
  rcases server.engine.start_faults operation none with ⟨faultless, -⟩ | ⟨-, rejected⟩
  · exact absurd faultless faulty
  · rw [advance_ready found rfl, resumeJob, Job.resume, rejected]
    rfl

theorem checked_advance {operation : Operation}
    (found : Ordered.get? server.tasks task = some (.request (.queued operation))) :
    ∃ kind, Ordered.get? (server.advance task).tasks task = some kind ∧
      kind.Checked (server.engine.schema.faults operation) := by
  rcases server.engine.start_faults operation none with ⟨faultless, progress, started⟩ | ⟨faulty, -⟩
  · rw [advance_ready found rfl, faultless]
    refine checked_resumeJob fun response gates world resumed => ?_
    rw [Job.resume, started] at resumed
    cases progress with
    | running run => exact Job.data_of_proceed resumed
    | finished answer =>
      obtain ⟨root, -, -, ⟨error, -, same⟩ | ⟨seed, -, impossible⟩⟩ := Engine.start_cases started
      · cases resumed
        cases same
        exact ⟨_, rfl⟩
      · cases impossible
  · rw [advance_faulty found faulty, get?_become, if_pos rfl]
    refine ⟨_, rfl, ?_⟩
    cases faults : server.engine.schema.faults operation with
    | nil => exact absurd faults faulty
    | cons error others => exact .rejected

theorem checked_act {faults : List ValidationError} {kind : Task}
    (given : task.number < server.nextTask) (found : Ordered.get? server.tasks task = some kind)
    (checked : kind.Checked faults) (action : Action) :
    ∃ next, Ordered.get? (server.act action).tasks task = some next ∧ next.Checked faults := by
  cases steps : action.isStepOf task with
  | false =>
    rcases get?_act_of_given given found steps with same | woken
    · exact ⟨kind, same, checked⟩
    · refine ⟨_, woken, ?_⟩
      cases checked with
      | rejected => exact .rejected
      | running => exact .running
      | executed data => exact .executed data
  | true =>
    obtain rfl := Action.eq_of_isStepOf steps
    rw [Server.act]
    cases checked with
    | rejected => exact ⟨_, by rw [advance, found]; exact found, .rejected⟩
    | executed data => exact ⟨_, by rw [advance, found]; exact found, .executed data⟩
    | @running remaining run hasPermit =>
      cases hasPermit with
      | false => exact ⟨_, by rw [advance, found]; exact found, .running⟩
      | true =>
        rw [advance_ready found rfl]
        exact checked_resumeJob fun response gates world resumed => Job.data_of_proceed resumed

theorem checked_run {faults : List ValidationError} {kind : Task}
    (given : task.number < server.nextTask) (found : Ordered.get? server.tasks task = some kind)
    (checked : kind.Checked faults) (actions : List Action) :
    ∃ next, Ordered.get? (server.run actions).tasks task = some next ∧ next.Checked faults := by
  induction actions generalizing server kind with
  | nil => exact ⟨kind, found, checked⟩
  | cons action rest ih =>
    obtain ⟨next, later, stays⟩ := checked_act given found checked action
    exact ih (Nat.lt_of_lt_of_le given (moves_act server action).nextTask_le) later stays

/-- Until its first step a request is as it was, and from then on its schema has decided what
becomes of it. -/
theorem request_run {operation : Operation} (given : task.number < server.nextTask)
    (found : Ordered.get? server.tasks task = some (.request (.queued operation)))
    (actions : List Action) :
    match schemaMet? task server actions with
    | none => Ordered.get? (server.run actions).tasks task = some (.request (.queued operation))
    | some schema => ∃ kind, Ordered.get? (server.run actions).tasks task = some kind ∧
        kind.Checked (schema.faults operation) := by
  induction actions generalizing server with
  | nil => exact found
  | cons action rest ih =>
    have later := Nat.lt_of_lt_of_le given (moves_act server action).nextTask_le
    rw [schemaMet?, run_cons]
    cases steps : action.isStepOf task with
    | false =>
      rw [if_neg Bool.false_ne_true]
      rcases get?_act_of_given given found steps with same | woken
      · exact ih later same
      · exact ih later woken
    | true =>
      rw [if_pos rfl]
      obtain rfl := Action.eq_of_isStepOf steps
      obtain ⟨kind, after, checked⟩ := checked_advance found
      exact checked_run later after checked rest

def withHandlers (server : Server σ) (handlers : Handlers σ) : Server σ :=
  { server with engine := { server.engine with handlers } }

/-- An action changes what is left of tasks and nothing else, and does the same with any handlers:
it calls none of them, draws nothing and delivers nothing. -/
def Spares (server : Server σ) (action : Action) : Prop :=
  ∀ handlers, (server.withHandlers handlers).act action = { server.withHandlers handlers with
    tasks := (server.act action).tasks, nextTask := (server.act action).nextTask }

theorem spares_submit (server : Server σ) (request : Request) :
    Spares server (.submit request) := by
  intro handlers
  rw [act, act]
  unfold submit withHandlers
  by_cases draining : server.draining = true
  · simp only [if_pos draining]
  · simp only [if_neg draining]
    cases server.engine.schema.parseOperation request.query request.operationName
      request.bindings with
    | error error => rfl
    | ok operation =>
      by_cases subscribes : operation.kind = .subscription
      · simp only [if_pos subscribes]
      · simp only [if_neg subscribes]
        rfl

theorem spares_advance_faulty {operation : Operation}
    (found : Ordered.get? server.tasks task = some (.request (.queued operation)))
    (faulty : server.engine.schema.faults operation ≠ []) : Spares server (.advance task) := by
  intro handlers
  have same : (server.withHandlers handlers).advance task =
      (server.withHandlers handlers).become task _ := advance_faulty found faulty
  rw [act, act, advance_faulty found faulty, same]
  rfl

theorem spares_advance_answered {response : Response}
    (found : Ordered.get? server.tasks task = some (.answered response)) :
    Spares server (.advance task) := by
  intro handlers
  have same : (server.withHandlers handlers).advance task = server.withHandlers handlers := by
    rw [advance, show (server.withHandlers handlers).tasks = server.tasks from rfl, found]
  have rest : server.advance task = server := by rw [advance, found]
  rw [act, act, same, rest]
  rfl

/-- What is done again and again is a list of actions, if it is one each time. -/
theorem repeat_runs {step : Server σ → Server σ}
    (runs : ∀ server, ∃ actions, step server = server.run actions) (count : Nat)
    (server : Server σ) : ∃ actions, Nat.repeat step count server = server.run actions := by
  induction count with
  | zero => exact ⟨[], rfl⟩
  | succ count ih =>
    obtain ⟨front, first⟩ := ih
    obtain ⟨back, last⟩ := runs (Nat.repeat step count server)
    exact ⟨front ++ back, by rw [Nat.repeat, last, first, run_append]⟩

theorem proceed_runs (server : Server σ) (ready : Ready) :
    ∃ actions, server.proceed ready = server.run actions := by
  cases ready with
  | task id => exact repeat_runs (fun server => ⟨[.advance id], rfl⟩) _ server
  | events => exact repeat_runs (fun server => ⟨[.pump], rfl⟩) _ server

theorem settle_runs (server : Server σ) (queue : List Ready) :
    ∃ actions, server.settle queue = server.run actions := by
  have within : ∀ fuel queue (server : Server σ), ∃ actions,
      settleWithin fuel queue server = server.run actions := by
    intro fuel
    induction fuel with
    | zero => exact fun queue server => ⟨[], rfl⟩
    | succ fuel ih =>
      intro queue server
      unfold settleWithin
      split
      · exact ⟨[], rfl⟩
      · rename_i ready rest _
        obtain ⟨front, first⟩ := server.proceed_runs ready
        obtain ⟨back, later⟩ := ih rest (server.proceed ready)
        exact ⟨front ++ back, by rw [later, first, run_append]⟩
  exact within _ queue server

namespace HttpReply

/-- The members of the object that a body is. -/
def members? (reply : HttpReply) : Option (Ordered (Option String) Tree) :=
  match Tree.read reply.body with
  | (.object members, false) => some members
  | _ => none

/-- The body has errors, at least one, and no data. -/
def ListsErrors (reply : HttpReply) : Prop :=
  ∃ members error others, reply.members? = some members ∧
    Ordered.get? members (some "errors") = some (.array (error :: others)) ∧
    Ordered.get? members (some "data") = none

/-- The body has data, which may be `null`. -/
def HasData (reply : HttpReply) : Prop :=
  ∃ members data, reply.members? = some members ∧ Ordered.get? members (some "data") = some data

theorem members?_json (status : Nat) (members : Ordered String Json) :
    (json status (.object members)).members? = some (Json.memberTrees members) := by
  rw [members?, show (json status (.object members)).body = (Json.object members).text from rfl,
    Json.read_text]
  rfl

theorem listsErrors_ofErrors (status : Nat) {errors : List FieldError} (present : errors ≠ []) :
    (json status (Response.ofErrors errors).toJson).ListsErrors := by
  cases errors with
  | nil => exact absurd rfl present
  | cons error others => exact ⟨_, _, _, members?_json status _, rfl, rfl⟩

theorem hasData_toJson (status : Nat) {response : Response} {data : Json}
    (has : response.data = some data) : (json status response.toJson).HasData := by
  refine ⟨_, data.tree, members?_json status _, ?_⟩
  rw [has]
  rfl

end HttpReply

end Server

structure PostCall (σ : Type) where
  before : Server σ
  request : Request

namespace PostCall

open Server

variable {σ : Type} {call : PostCall σ} {back : List Action}

/-- What becomes of a request. -/
inductive Fate where
  /-- The server was draining when the call looked. -/
  | refused
  | rejected (errors : List ValidationError)
  | executed
  /-- The operation is still to take its first step. -/
  | queued

def submission (call : PostCall σ) : Submission := (call.before.submit call.request).1

/-- The server when the call waits for the first time, or is over. -/
def begun (call : PostCall σ) : Server σ := call.before.act (.submit call.request)

def after (call : PostCall σ) (back : List Action) : Server σ := call.begun.run back

/-- The task that the call adds, if it adds one. -/
def task (call : PostCall σ) : TaskId := ⟨call.before.nextTask⟩

/-- The reply, if the request has one after further actions. -/
def reply? (call : PostCall σ) (back : List Action) : Option HttpReply :=
  match call.submission with
  | .refused error => some (replyOf (.error error))
  | .answered response => some (replyOf (.ok response))
  | .running task =>
    ((call.after back).takeResponse? task).map fun (response, _) => replyOf (.ok response)

/-- What becomes of an operation with the schema that it meets. -/
def Fate.ofSchema (operation : Operation) : Option TypeSystem → Fate
  | none => .queued
  | some schema =>
    match schema.faults operation with
    | [] => .executed
    | errors => .rejected errors

/-- What has become of the request after further actions. It is refused by a server that drains, and
rejected if its text has no operation, if that is a subscription, or if the schema that its first
step meets finds a fault. -/
def fate (call : PostCall σ) (back : List Action) : Fate :=
  if call.before.draining then .refused
  else
    match call.before.engine.schema.parseOperation call.request.query call.request.operationName
        call.request.bindings with
    | .error error => .rejected [error]
    | .ok operation =>
      if operation.kind = .subscription then .rejected [.subscriptionOverHttp]
      else .ofSchema operation (schemaMet? call.task call.begun back)

theorem begun_cases (call : PostCall σ) :
    (call.before.draining = true ∧ call.submission = .refused .draining ∧
        ∀ back, call.fate back = .refused) ∨
      call.before.draining = false ∧
        ((∃ error : ValidationError, call.submission = .answered (.error error.fieldError) ∧
            ∀ back, call.fate back = .rejected [error]) ∨
          ∃ operation, call.submission = .running call.task ∧
            call.begun = (call.before.spawn (.request (.queued operation))).2 ∧
            ∀ back,
              call.fate back = .ofSchema operation (schemaMet? call.task call.begun back)) := by
  have submitted : call.before.submit call.request = (call.submission, call.begun) := rfl
  unfold submit at submitted
  unfold fate
  cases draining : call.before.draining with
  | true =>
    rw [if_pos draining] at submitted
    exact Or.inl ⟨rfl, (congrArg Prod.fst submitted).symm, fun _ => rfl⟩
  | false =>
    rw [if_neg (by rw [draining]; exact Bool.false_ne_true)] at submitted
    refine Or.inr ⟨rfl, ?_⟩
    cases parsed : call.before.engine.schema.parseOperation call.request.query
      call.request.operationName call.request.bindings with
    | error error =>
      rw [parsed] at submitted
      exact Or.inl ⟨error, (congrArg Prod.fst submitted).symm, fun _ => rfl⟩
    | ok operation =>
      rw [parsed] at submitted
      dsimp only at submitted ⊢
      by_cases subscribes : operation.kind = .subscription
      · rw [if_pos subscribes] at submitted
        exact Or.inl
          ⟨.subscriptionOverHttp, (congrArg Prod.fst submitted).symm, fun _ => if_pos subscribes⟩
      · rw [if_neg subscribes] at submitted
        exact Or.inr ⟨operation, (congrArg Prod.fst submitted).symm,
          (congrArg Prod.snd submitted).symm, fun _ => if_neg subscribes⟩

/-- What a request is answered, by what has become of it. There is no reply while it has still to be
looked at, or waits at a gate. -/
inductive Replies (call : PostCall σ) (back : List Action) : Fate → Option HttpReply → Prop
  | refused :
      Replies call back .refused
        (some (.json 503 (Response.ofErrors [Draining.fieldError .draining]).toJson))
  | rejected {error others} :
      Replies call back (.rejected (error :: others))
        (some (.json 400
          (Response.ofErrors ((error :: others).map ValidationError.fieldError)).toJson))
  | executed {response : Response} {data} : response.data = some data →
      Replies call back .executed (some (.json 200 response.toJson))
  | waiting {remaining run hasPermit} :
      Ordered.get? (call.after back).tasks call.task =
        some (.request (.running remaining run hasPermit)) → Replies call back .executed none
  | queued {operation} :
      Ordered.get? (call.after back).tasks call.task = some (.request (.queued operation)) →
      Replies call back .queued none

theorem replyOf_of_data {response : Response} {data : Json} (has : response.data = some data) :
    replyOf (.ok response) = .json 200 response.toJson := by
  rw [replyOf, has]
  rfl

section Running

variable {operation : Operation} (running : call.submission = .running call.task)
  (begun : call.begun = (call.before.spawn (.request (.queued operation))).2)

include running in
theorem reply?_of_answered {response : Response}
    (found : Ordered.get? (call.after back).tasks call.task = some (.answered response)) :
    call.reply? back = some (replyOf (.ok response)) := by
  rw [reply?, running]
  dsimp only
  rw [takeResponse?, found]
  rfl

include running in
theorem reply?_of_request {job : Job}
    (found : Ordered.get? (call.after back).tasks call.task = some (.request job)) :
    call.reply? back = none := by
  rw [reply?, running]
  dsimp only
  rw [takeResponse?, found]
  rfl

include begun in
theorem request_after (back : List Action) :
    match schemaMet? call.task call.begun back with
    | none => Ordered.get? (call.after back).tasks call.task = some (.request (.queued operation))
    | some schema => ∃ kind, Ordered.get? (call.after back).tasks call.task = some kind ∧
        kind.Checked (schema.faults operation) := by
  have given : call.task.number < call.begun.nextTask := by
    rw [begun]
    exact Nat.lt_succ_self _
  have found : Ordered.get? call.begun.tasks call.task = some (.request (.queued operation)) := by
    rw [begun, get?_spawn]
    exact if_pos rfl
  exact request_run given found back

include running begun in
theorem replies_of_running (back : List Action) :
    call.Replies back (.ofSchema operation (schemaMet? call.task call.begun back))
      (call.reply? back) := by
  have left := request_after begun back
  cases met : schemaMet? call.task call.begun back with
  | none =>
    rw [met] at left
    rw [reply?_of_request running left]
    exact .queued left
  | some schema =>
    rw [met] at left
    obtain ⟨kind, found, checked⟩ := left
    rw [Fate.ofSchema]
    generalize schema.faults operation = faults at checked
    cases checked with
    | rejected =>
      rw [reply?_of_answered running found]
      exact .rejected
    | running =>
      rw [reply?_of_request running found]
      exact .waiting found
    | executed has =>
      rw [reply?_of_answered running found, replyOf_of_data has]
      exact .executed has

end Running

theorem replies (call : PostCall σ) (back : List Action) :
    call.Replies back (call.fate back) (call.reply? back) := by
  rcases call.begun_cases with
    ⟨-, refused, fate⟩ | ⟨-, ⟨error, answered, fate⟩ | ⟨operation, running, begun, fate⟩⟩
  · rw [fate, reply?, refused]
    exact .refused
  · rw [fate, reply?, answered]
    exact .rejected
  · rw [fate]
    exact replies_of_running running begun back

/-- The call of a request and the steps of its task change what is left of tasks and nothing else,
with any handlers. -/
structure Spared (call : PostCall σ) (back : List Action) : Prop where
  submits : Spares call.before (.submit call.request)
  steps : call.submission = .running call.task →
      ∀ front rest, back = front ++ .advance call.task :: rest →
        Spares (call.after front) (.advance call.task)

theorem faulty_of_not_executed {operation : Operation} {schema : TypeSystem}
    (unexecuted : Fate.ofSchema operation (some schema) ≠ .executed) :
    schema.faults operation ≠ [] := by
  intro faultless
  rw [Fate.ofSchema, faultless] at unexecuted
  exact unexecuted rfl

/-- What is not executed leaves all but its task as it was. -/
theorem spared_of_not_executed (unexecuted : call.fate back ≠ .executed) : call.Spared back := by
  refine ⟨spares_submit call.before call.request, ?_⟩
  rintro running front rest rfl
  rcases call.begun_cases with
    ⟨-, refused, -⟩ | ⟨-, ⟨error, answered, -⟩ | ⟨operation, -, begun, fate⟩⟩
  · cases refused.symm.trans running
  · cases answered.symm.trans running
  · have left := request_after begun front
    have first : schemaMet? call.task (call.begun.run front) (.advance call.task :: rest) =
        some (call.after front).engine.schema := if_pos (decide_eq_true rfl)
    rw [fate, schemaMet?_append, first] at unexecuted
    cases met : schemaMet? call.task call.begun front with
    | none =>
      rw [met] at left unexecuted
      exact spares_advance_faulty left (faulty_of_not_executed unexecuted)
    | some schema =>
      rw [met] at left unexecuted
      obtain ⟨kind, found, checked⟩ := left
      have faulty := faulty_of_not_executed unexecuted
      generalize schema.faults operation = faults at checked faulty
      cases checked with
      | rejected => exact spares_advance_answered found
      | running | executed => exact absurd rfl faulty

/-- On one thread, a request that is posted is answered after the actions by which the server
settles. -/
theorem respond_eq_reply? (call : PostCall σ) (config : Config)
    (sockets : Ordered ConnectionId Socket) {posted : HttpRequest}
    (route : posted.route config = .post) (decoded : posted.operation = .ok call.request) :
    ∃ back, call.begun.settle [] = call.after back ∧
      ((⟨config, call.before, sockets⟩ : Host σ).respond posted).map Prod.fst =
        call.reply? back := by
  obtain ⟨back, settled⟩ := call.begun.settle_runs []
  refine ⟨back, settled, ?_⟩
  unfold Host.respond
  dsimp only
  rw [route, decoded]
  dsimp only
  rw [reply?, submission, Option.map_map]
  unfold Host.submit Host.collect?
  dsimp only
  cases submitted : (call.before.submit call.request).1 with
  | refused error => rfl
  | answered response => rfl
  | running task =>
    have same : (call.before.submit call.request).2.settle [] = call.after back := settled
    rw [Option.map_map, Host.settle, same]
    rfl

theorem ofSchema_ne_refused (operation : Operation) (schema : Option TypeSystem) :
    Fate.ofSchema operation schema ≠ .refused := by
  intro refused
  unfold Fate.ofSchema at refused
  split at refused
  · cases refused
  · split at refused <;> cases refused

theorem fate_refused_iff (call : PostCall σ) (back : List Action) :
    call.fate back = .refused ↔ call.before.draining = true := by
  rcases call.begun_cases with
    ⟨draining, -, fate⟩ | ⟨calm, ⟨error, -, fate⟩ | ⟨operation, -, -, fate⟩⟩
  · exact iff_of_true (fate back) draining
  · exact iff_of_false (fate back ▸ Fate.noConfusion) (Bool.eq_false_iff.mp calm)
  · exact iff_of_false (fate back ▸ ofSchema_ne_refused operation _) (Bool.eq_false_iff.mp calm)

/-- What the status of a reply tells, and what is true of a request with that status. -/
structure Tells (call : PostCall σ) (back : List Action) (reply : HttpReply) : Prop where
  refused : reply.status = 503 ↔ call.before.draining = true
  rejected : reply.status = 400 ↔ ∃ errors, call.fate back = .rejected errors
  executed : reply.status = 200 ↔ call.fate back = .executed
  decided : call.fate back ≠ .queued
  unexecuted : reply.status ≠ 200 → reply.ListsErrors ∧ call.Spared back
  hasData : reply.status = 200 → reply.HasData

theorem tells_of_replies {reply : HttpReply}
    (replies : call.Replies back (call.fate back) (some reply)) : call.Tells back reply := by
  have refused := call.fate_refused_iff back
  have spared := @spared_of_not_executed _ call back
  generalize fated : call.fate back = fate at replies refused spared
  cases replies with
  | refused =>
    have listed :=
      HttpReply.listsErrors_ofErrors 503 (List.cons_ne_nil (Draining.fieldError .draining) [])
    exact ⟨by simp [← refused, HttpReply.json], by simp [fated, HttpReply.json],
      by simp [fated, HttpReply.json], by simp [fated], fun _ => ⟨listed, spared (by simp)⟩,
      by simp [HttpReply.json]⟩
  | @rejected error others =>
    have listed := HttpReply.listsErrors_ofErrors 400
      (List.cons_ne_nil error.fieldError (others.map ValidationError.fieldError))
    exact ⟨by simp [← refused, HttpReply.json], by simp [fated, HttpReply.json],
      by simp [fated, HttpReply.json], by simp [fated], fun _ => ⟨listed, spared (by simp)⟩,
      by simp [HttpReply.json]⟩
  | executed has =>
    exact ⟨by simp [← refused, HttpReply.json], by simp [fated, HttpReply.json],
      by simp [fated, HttpReply.json], by simp [fated], by simp [HttpReply.json],
      fun _ => HttpReply.hasData_toJson 200 has⟩

/-- In whatever order calls take their steps, the status of a reply tells what became of the
request. The server was draining when the call looked, and the status is 503, or the request was
rejected before it was executed, and the status is 400, or it was executed, and the status is 200,
even if all that came of it is `null`. What is not executed calls no handler, draws nothing, and has
errors and no data. There is no reply only before the first step of the operation and while it waits
at a gate. On one thread, the reply to what is posted is that after the server has settled. -/
theorem status_tells_executed (call : PostCall σ) :
    (∀ back, (∀ reply, call.reply? back = some reply → call.Tells back reply) ∧
        (call.reply? back = none →
          (call.fate back = .queued ∧ ∃ operation, Ordered.get? (call.after back).tasks call.task =
              some (.request (.queued operation))) ∨
            call.fate back = .executed ∧
              ∃ remaining run hasPermit, Ordered.get? (call.after back).tasks call.task =
                some (.request (.running remaining run hasPermit)))) ∧
      ∀ (config : Config) (sockets : Ordered ConnectionId Socket) (posted : HttpRequest),
        posted.route config = .post → posted.operation = .ok call.request →
          ∃ back, call.begun.settle [] = call.after back ∧
            ((⟨config, call.before, sockets⟩ : Host σ).respond posted).map Prod.fst =
              call.reply? back := by
  refine ⟨fun back => ⟨fun reply replied => ?_, fun silent => ?_⟩, fun config sockets posted => ?_⟩
  · exact tells_of_replies (replied ▸ call.replies back)
  · have replies := call.replies back
    rw [silent] at replies
    generalize call.fate back = fate at replies
    cases replies with
    | waiting found => exact Or.inr ⟨rfl, _, _, _, found⟩
    | queued found => exact Or.inl ⟨rfl, _, found⟩
  · exact call.respond_eq_reply? config sockets

end PostCall

namespace Gondola

open Server

def closed : Engine Unit :=
  ⟨schema,
    ⟨MockRules.standard.withType "Query" (.value fun _ => .error (.custom "closed")), .standard⟩,
    []⟩

def asks : PostCall Unit := ⟨.start closed world 1000, request⟩

def posted : HttpRequest :=
  ⟨"POST", "/graphql", [("content-type", "application/json")], r#"{"query":"{runs}"}"#⟩

/-- What is executed is told as such, though nothing but an error comes of it. -/
theorem status_tells_executed_null :
    asks.reply? [] = none ∧ (asks.fate [] = .queued ∨ asks.fate [] = .executed) ∧
      asks.reply? [.advance ⟨0⟩] =
        some (.json 200 (Response.executed .null [.new "closed"]).toJson) ∧
      asks.Tells [.advance ⟨0⟩] (.json 200 (Response.executed .null [.new "closed"]).toJson) ∧
      posted.route .standard = .post ∧ posted.operation = .ok request ∧
      ∃ back, asks.begun.settle [] = asks.after back ∧
        ((⟨.standard, asks.before, []⟩ : Host Unit).respond posted).map Prod.fst =
          asks.reply? back := by
  have submitted : asks.before.submit asks.request =
      (.running ⟨0⟩, (asks.before.spawn (.request (.queued operation))).2) := by
    have accepted :
        asks.before.engine.schema.parseOperation asks.request.query asks.request.operationName
          asks.request.bindings = .ok operation := parsed
    unfold submit
    rw [if_neg (by decide), accepted]
    rfl
  have replied : ∀ back, asks.reply? back =
      (((asks.before.spawn (.request (.queued operation))).2.run back).takeResponse? ⟨0⟩).map
        fun (response, _) => replyOf (.ok response) := by
    intro back
    rw [PostCall.reply?, PostCall.submission, PostCall.after, PostCall.begun, act, submitted]
  have first := replied [.advance ⟨0⟩]
  have decoded : posted.operation = .ok request := by decide +kernel
  obtain ⟨tells, responds⟩ := asks.status_tells_executed
  refine ⟨replied [], ?_, first, (tells [.advance ⟨0⟩]).1 _ first, rfl, decoded,
    responds .standard [] posted rfl decoded⟩
  exact ((tells []).2 (replied [])).imp And.left And.left

end Gondola

end MockGraph
