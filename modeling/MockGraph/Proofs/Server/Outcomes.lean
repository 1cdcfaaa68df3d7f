import Mathlib.Data.List.Induction
import Mathlib.Logic.ExistsUnique
import MockGraph.Proofs.Server.StartSteps
set_option autoImplicit false

namespace MockGraph

/-- A call of a client that begins an operation on a connection. -/
structure StartCall (σ : Type) where
  before : Server σ
  connection : ConnectionId
  id : String
  request : Request

namespace StartCall

open Server

variable {σ : Type} {call : StartCall σ} {task : TaskId} {back : List Action}

/-- The server when the call waits for the first time, or is over. -/
def begun (call : StartCall σ) : Server σ :=
  call.before.act (.handle call.connection (.start call.id call.request))

def task? (call : StartCall σ) : Option TaskId :=
  (call.before.handle call.connection (.start call.id call.request)).1

def refusal? (call : StartCall σ) : Option FieldError :=
  if call.before.phase? call.connection ≠ some .open then some (Draining.fieldError .draining)
  else
    match call.before.engine.schema.parseOperation call.request.query call.request.operationName
        call.request.bindings with
    | .error error => some error.fieldError
    | .ok _ => none

def after (call : StartCall σ) (back : List Action) : Server σ := call.begun.run back

def rest? (call : StartCall σ) (back : List Action) : Option Task :=
  call.task?.bind (Ordered.get? (call.after back).tasks)

/-- What the call and its task offer to the connection. -/
def sent (call : StartCall σ) (back : List Action) : List ServerMessage :=
  (call.refusal?.map fun error => .error call.id [error]).toList ++
    call.task?.toList.flatMap fun task => yields offers task call.begun back

def queued (call : StartCall σ) (back : List Action) : List ServerMessage :=
  gained call.connection call.before call.begun ++
    call.task?.toList.flatMap fun task => queuedBy task call.connection call.begun back

/-- The registrations that the task of the call makes. -/
def made (call : StartCall σ) (back : List Action) : List Registration :=
  call.task?.toList.flatMap fun task =>
    yields (fun server => server.registry.makes) task call.begun back

/-- The call is refused at once with an error, or its connection is open and it has a task. -/
theorem begun_cases (call : StartCall σ) :
    (∃ error, call.refusal? = some error ∧ call.task? = none ∧
        call.begun = call.before.send call.connection (.error call.id [error])) ∨
      ∃ operation, call.refusal? = none ∧ call.task? = some ⟨call.before.nextTask⟩ ∧
        call.before.phase? call.connection = some .open ∧ call.begun = (call.before.spawn
          (if operation.kind = .subscription then .register call.connection call.id operation
            else .query call.connection call.id (.queued operation))).2 := by
  unfold refusal? task? begun
  rw [act, handle]
  unfold startOperation
  dsimp only
  split
  · exact Or.inl ⟨_, rfl, rfl, rfl⟩
  · rename_i isOpen
    cases call.before.engine.schema.parseOperation call.request.query call.request.operationName
        call.request.bindings with
    | error error => exact Or.inl ⟨_, rfl, rfl, rfl⟩
    | ok operation => exact Or.inr ⟨operation, rfl, rfl, Decidable.not_not.mp isOpen, rfl⟩

/-- The call has not returned: its task is still to register or to withdraw, and offers nothing
before it does. It has two steps at most. -/
structure Pending (call : StartCall σ) (back : List Action) : Prop where
  waits : ∃ task, call.rest? back = some task ∧ task.isCall = true
  sent : call.sent back = []
  steps : ∀ task, call.task? = some task → back.countP (·.isStepOf task) < 2

/-- The call is refused with one error. No operation runs for it. What it registered is closed, and
no drain has purged it. -/
structure Refused (call : StartCall σ) (back : List Action) (error : FieldError) : Prop where
  sent : call.sent back = [.error call.id [error]]
  ended : call.rest? back = none
  unspawned : ∀ operation, call.rest? [] ≠ some (.query call.connection call.id (.queued operation))
  closed : ∀ registration ∈ call.made back, (call.after back).registry.Spent registration.id
  undismissed : ∀ registration ∈ call.made back, ∀ drain, ∀ step ∈ dismissals drain call.begun back,
    registration ∉ step.purged

/-- The operation of the call has a task, which runs, or is over and has offered a result and then
that the operation is complete. Nothing is registered for it. -/
structure Runs (call : StartCall σ) (back : List Action) (operation : Operation) : Prop where
  spawned : call.rest? [] = some (.query call.connection call.id (.queued operation))
  made : call.made back = []
  result :
      (call.sent back = [] ∧ ∃ job, call.rest? back = some (.query call.connection call.id job)) ∨
        call.rest? back = none ∧
          ∃ response, call.sent back = [.next call.id response, .complete call.id]

/-- A registration stays until something takes it away. -/
def Holds (call : StartCall σ) (back : List Action) (registration : Registration) : Prop :=
  registration ∈ (call.after back).registry.registered ∨
    (call.after back).registry.Spent registration.id ∧
      ∃ front action rest, back = front ++ action :: rest ∧
        registration ∈ (call.after front).registry.registered ∧
        (call.after front).Takes action registration

/-- The call has made one registration on its connection under its name, which stays until something
takes it away. It has offered nothing. -/
structure Registers (call : StartCall σ) (back : List Action) (registration : Registration) :
    Prop where
  sent : call.sent back = []
  ended : call.rest? back = none
  made : call.made back = [registration]
  connection : registration.connection = call.connection
  name : registration.operationId = call.id
  holds : call.Holds back registration

/-- What becomes of a start. -/
inductive Outcome where
  | refused (error : FieldError)
  | runs (operation : Operation)
  | registers (registration : Registration)

/-- What has become of the call. -/
def Comes (call : StartCall σ) (back : List Action) : Outcome → Prop
  | .refused error => call.Refused back error
  | .runs operation => call.Runs back operation
  | .registers registration => call.Registers back registration

theorem Comes.unique {one other : Outcome} (first : call.Comes back one)
    (second : call.Comes back other) : one = other := by
  -- The first task tells an operation that runs from the others, and what is offered a refusal from
  -- a registration.
  cases one with
  | refused error =>
    cases other with
    | refused another =>
      have same := first.sent.symm.trans second.sent
      cases same
      rfl
    | runs operation => exact absurd second.spawned (first.unspawned operation)
    | registers registration => cases first.sent.symm.trans second.sent
  | runs operation =>
    cases other with
    | refused error => exact absurd first.spawned (second.unspawned operation)
    | runs another =>
      have same := first.spawned.symm.trans second.spawned
      cases same
      rfl
    | registers registration => cases first.made.symm.trans second.made
  | registers registration =>
    cases other with
    | refused error => cases first.sent.symm.trans second.sent
    | runs operation => cases first.made.symm.trans second.made
    | registers another =>
      have same := first.made.symm.trans second.made
      cases same
      rfl

theorem after_snoc (call : StartCall σ) (back : List Action) (action : Action) :
    call.after (back ++ [action]) = (call.after back).act action :=
  run_append call.begun back [action]

section Task

variable (began : call.task? = some task)
include began

theorem rest?_eq (back : List Action) :
    call.rest? back = Ordered.get? (call.after back).tasks task := by
  rw [rest?, began]
  rfl

theorem sent_snoc (back : List Action) (action : Action) :
    call.sent (back ++ [action]) =
      call.sent back ++ yield offers task (call.after back) action := by
  rw [sent, sent, began]
  simp [yields_append, yields, after]

theorem made_snoc (back : List Action) (action : Action) :
    call.made (back ++ [action]) =
      call.made back ++
        yield (fun server => server.registry.makes) task (call.after back) action := by
  rw [made, made, began]
  simp [yields_append, yields, after]

theorem queued_snoc (back : List Action) (action : Action) :
    call.queued (back ++ [action]) =
      call.queued back ++
        if action.isStepOf task then
          gained call.connection (call.after back) ((call.after back).act action)
        else [] := by
  rw [queued, queued, began]
  simp [queuedBy_append, queuedBy, after, gained]

theorem given (back : List Action) : task.number < (call.after back).nextTask := by
  induction back using List.reverseRecOn with
  | nil =>
    rcases call.begun_cases with ⟨error, -, none, -⟩ | ⟨operation, -, some, -, spawned⟩
    · rw [none] at began
      cases began
    · rw [some] at began
      cases began
      show call.before.nextTask < call.begun.nextTask
      rw [spawned]
      exact Nat.lt_succ_self _
  | append_singleton back action ih =>
    rw [after_snoc]
    exact Nat.lt_of_lt_of_le ih (moves_act _ action).nextTask_le

/-- Nothing comes of a call any more when its task is over. -/
theorem ended_snoc (ended : call.rest? back = none) (action : Action) :
    call.rest? (back ++ [action]) = none ∧ call.sent (back ++ [action]) = call.sent back ∧
      call.made (back ++ [action]) = call.made back := by
  rw [rest?_eq began] at ended ⊢
  rw [sent_snoc began, made_snoc began, yield_gone ended, yield_gone ended, after_snoc]
  exact ⟨gone_act (given began back) ended action, List.append_nil _, List.append_nil _⟩

/-- The steps of others bring nothing of the call, and leave its task as it is, but for a permit. -/
theorem other_snoc (orderly : Orderly (call.after back)) {kind : Task}
    (rest : call.rest? back = some kind) {action : Action} (other : action.isStepOf task = false) :
    (call.rest? (back ++ [action]) = some kind ∨ call.rest? (back ++ [action]) = some kind.permit) ∧
      call.sent (back ++ [action]) = call.sent back ∧
      call.made (back ++ [action]) = call.made back := by
  rw [rest?_eq began] at rest ⊢
  rw [sent_snoc began, made_snoc began, yield_other other, yield_other other, after_snoc]
  exact ⟨get?_act_of_not_isStepOf orderly.swept.numbered rest other, List.append_nil _,
    List.append_nil _⟩

end Task

/-- An operation that runs goes on to run, or is over with its result. -/
theorem Runs.step {operation : Operation} (began : call.task? = some task)
    (orderly : Orderly (call.after back)) (runs : call.Runs back operation) (action : Action) :
    call.Runs (back ++ [action]) operation := by
  rcases runs.result with ⟨sent, job, rest⟩ | ⟨ended, response, sent⟩
  · cases steps : action.isStepOf task with
    | false =>
      obtain ⟨stays, same, unmade⟩ := other_snoc began orderly rest steps
      refine ⟨runs.spawned, unmade.trans runs.made, Or.inl ⟨same.trans sent, ?_⟩⟩
      rcases stays with rest | permitted
      · exact ⟨job, rest⟩
      · exact ⟨job.permit, permitted⟩
    | true =>
      obtain rfl := Action.eq_of_isStepOf steps
      rw [rest?_eq began] at rest
      have unmade : call.made (back ++ [.advance task]) = [] := by
        rw [made_snoc began, runs.made, yield_advance rest]
        rfl
      refine ⟨runs.spawned, unmade, ?_⟩
      rw [sent_snoc began, sent, yield_advance rest, rest?_eq began, after_snoc]
      rcases act_query rest with ⟨none, -, goesOn⟩ | ⟨response, middle, offered, -, -, finished⟩
      · exact Or.inl ⟨none, goesOn⟩
      · refine Or.inr ⟨?_, response, offered⟩
        rw [finished, get?_finish, if_pos rfl]
  · obtain ⟨still, same, unmade⟩ := ended_snoc began ended action
    exact ⟨runs.spawned, unmade.trans runs.made, Or.inr ⟨still, response, same.trans sent⟩⟩

/-- A registration goes on to stay, or is taken, if its start does not withdraw it. -/
theorem Holds.step {registration : Registration} {action : Action}
    (orderly : Orderly (call.after back)) (holds : call.Holds back registration)
    (known : (call.after back).phase? registration.connection ≠ none)
    (unclaimed : registration ∈ (call.after back).registry.registered →
      ∀ task connection id, action = .advance task →
        Ordered.get? (call.after back).tasks task ≠
          some (.withdraw connection id registration.id)) :
    call.Holds (back ++ [action]) registration := by
  unfold Holds
  rw [after_snoc]
  rcases holds with member | ⟨spent, front, taker, rest, split, taken⟩
  · by_cases stays : registration ∈ ((call.after back).act action).registry.registered
    · exact Or.inl stays
    · obtain ⟨spent, takes⟩ := orderly.dismissive.takes known member stays (unclaimed member)
      exact Or.inr ⟨spent, back, action, [], rfl, member, takes⟩
  · refine Or.inr ⟨?_, front, taker, rest ++ [action], ?_, taken⟩
    · exact spent_act orderly.swept spent action
    · rw [split, List.append_assoc]
      rfl

theorem Holds.given {registration : Registration} (orderly : Orderly (call.after back))
    (holds : call.Holds back registration) :
    registration.id.number < (call.after back).registry.nextId := by
  rcases holds with member | ⟨spent, -⟩
  · exact orderly.swept.consistent.below registration member
  · exact spent.given

/-- The call has made a registration, and no other task is to withdraw that. -/
structure Owns (call : StartCall σ) (task : TaskId) (back : List Action)
    (registration : Registration) : Prop where
  made : call.made back = [registration]
  connection : registration.connection = call.connection
  name : registration.operationId = call.id
  holds : call.Holds back registration
  claims : ∀ other connection id,
      Ordered.get? (call.after back).tasks other = some (.withdraw connection id registration.id) →
        other = task

theorem Owns.step {registration : Registration} {action : Action} (began : call.task? = some task)
    (orderly : Orderly (call.after back)) (known : (call.after back).phase? call.connection ≠ none)
    (owns : call.Owns task back registration)
    (unmade : call.made (back ++ [action]) = call.made back)
    (elsewhere : registration ∈ (call.after back).registry.registered →
      action.isStepOf task = false ∨ call.rest? back = none) :
    call.Owns task (back ++ [action]) registration := by
  refine ⟨unmade.trans owns.made, owns.connection, owns.name, ?_, ?_⟩
  · refine owns.holds.step orderly (by rw [owns.connection]; exact known) ?_
    rintro member other connection id rfl found
    obtain rfl := owns.claims other connection id found
    rcases elsewhere member with other | ended
    · exact absurd rfl (of_decide_eq_false other)
    · rw [rest?_eq began, found] at ended
      cases ended
  · intro other connection id found
    rw [after_snoc] at found
    rcases withdraw_of_act found with earlier | ⟨-, new, -⟩
    · exact owns.claims other connection id earlier
    · have old := owns.holds.given orderly
      omega

theorem owns_of_register {operation : Operation} {registration : Registration} {next : Registry}
    (orderly : Orderly (call.after back))
    (found : Ordered.get? (call.after back).tasks task =
      some (.register call.connection call.id operation))
    (accepted : (call.after back).registry.register call.connection (sinkOf call.connection) call.id
        operation = (.ok registration, next))
    (opens : Registry.Opens (call.after back).registry next registration)
    (owner : registration.connection = call.connection) (named : registration.operationId = call.id)
    (made : call.made (back ++ [.advance task]) = [registration]) :
    call.Owns task (back ++ [.advance task]) registration := by
  refine ⟨made, owner, named, Or.inl ?_, ?_⟩
  · rw [after_snoc, Server.act, registry_advance, found, Option.map_some, Option.getD_some,
      Registry.settle, accepted, orderly.swept.consistent.registered_opens opens]
    exact List.mem_append_right _ List.mem_cons_self
  · intro other connection id claimed
    rw [after_snoc] at claimed
    rcases withdraw_of_act claimed with earlier | ⟨same, -⟩
    · have old := orderly.given other connection id registration.id earlier
      have new : registration.id.number = (call.after back).registry.nextId := by rw [opens.number]
      omega
    · cases same
      rfl

/-- The call has returned with a registration, and offered nothing. -/
structure Settled (call : StartCall σ) (task : TaskId) (back : List Action)
    (registration : Registration) : Prop where
  ended : call.rest? back = none
  sent : call.sent back = []
  owns : call.Owns task back registration

theorem Settled.registers {registration : Registration}
    (settled : call.Settled task back registration) : call.Registers back registration :=
  ⟨settled.sent, settled.ended, settled.owns.made, settled.owns.connection, settled.owns.name,
    settled.owns.holds⟩

/-- How far the start of a subscription came. -/
inductive Course (call : StartCall σ) (task : TaskId) (back : List Action) : Prop
  | registering {operation}
    (rest : call.rest? back = some (.register call.connection call.id operation))
    (sent : call.sent back = []) (made : call.made back = [])
    (steps : back.countP (·.isStepOf task) = 0)
  | withdrawing {registration : Registration}
      (rest : call.rest? back = some (.withdraw call.connection call.id registration.id))
      (sent : call.sent back = []) (owns : call.Owns task back registration)
      (steps : back.countP (·.isStepOf task) = 1)
  | refused {error} (refused : call.Refused back error)
  | settled {registration} (settled : call.Settled task back registration)

section Subscription

variable {operation : Operation} (began : call.task? = some task)
  (orderly : Orderly (call.after back))
include began orderly

theorem Refused.step {error : FieldError} (refused : call.Refused back error) (action : Action) :
    call.Refused (back ++ [action]) error := by
  obtain ⟨ended, same, unmade⟩ := ended_snoc began refused.ended action
  refine ⟨same.trans refused.sent, ended, refused.unspawned, ?_, ?_⟩
  · intro registration member
    rw [unmade] at member
    rw [after_snoc]
    have spent := refused.closed registration member
    exact spent_act orderly.swept spent action
  · intro registration member drain step happened purged
    rw [unmade] at member
    rw [dismissals_append] at happened
    rcases List.mem_append.mp happened with before | now
    · exact refused.undismissed registration member drain step before purged
    · rw [dismissals, dismissals, List.append_nil] at now
      exact (refused.closed registration member).closed registration
        (registered_of_dismissed now purged) rfl

/-- Who has a registration keeps it until something takes it away. -/
theorem Settled.step {registration : Registration}
    (known : (call.after back).phase? call.connection ≠ none)
    (settled : call.Settled task back registration) (action : Action) :
    call.Settled task (back ++ [action]) registration := by
  obtain ⟨ended, same, unmade⟩ := ended_snoc began settled.ended action
  exact ⟨ended, same.trans settled.sent,
    settled.owns.step began orderly known unmade fun _ => Or.inr settled.ended⟩

/-- The start is refused by the registry, or makes a registration. That is to be withdrawn at once,
if the connection is no longer open. -/
theorem step_registering
    (unspawned : ∀ operation,
      call.rest? [] ≠ some (.query call.connection call.id (.queued operation)))
    (rest : call.rest? back = some (.register call.connection call.id operation))
    (sent : call.sent back = []) (made : call.made back = [])
    (steps : back.countP (·.isStepOf task) = 0) : call.Course task (back ++ [.advance task]) := by
  have found := (rest?_eq began back).symm.trans rest
  have nowSent := sent_snoc began back (.advance task)
  have nowMade := made_snoc began back (.advance task)
  have nowRest := rest?_eq began (back ++ [.advance task])
  rw [sent, yield_advance found, offers, List.nil_append] at nowSent
  rw [made, yield_advance found, Registry.makes, List.nil_append] at nowMade
  rw [after_snoc] at nowRest
  rcases act_register found with
    ⟨error, refused, after⟩ | ⟨registration, next, accepted, opens, owner, named, after⟩
  · rw [refused] at nowSent nowMade
    rw [after, get?_finish, if_pos rfl] at nowRest
    have none : ∀ registration, registration ∉ call.made (back ++ [.advance task]) := by
      intro registration
      rw [nowMade]
      exact List.not_mem_nil
    exact .refused ⟨nowSent, nowRest, unspawned,
      fun registration member => absurd member (none registration),
      fun registration member => absurd member (none registration)⟩
  · rw [accepted] at nowSent nowMade
    have owns := owns_of_register orderly found accepted opens owner named nowMade
    rw [after] at nowRest
    split at nowRest
    · rw [get?_finish, if_pos rfl] at nowRest
      exact .settled ⟨nowRest, nowSent, owns⟩
    · rw [get?_become, if_pos rfl] at nowRest
      refine .withdrawing nowRest nowSent owns ?_
      rw [List.countP_append, steps]
      simp [Action.isStepOf]

end Subscription

section Run

variable (orderly : Orderly call.begun)
include orderly

/-- No drain has purged what is registered still when its start withdraws it. -/
theorem undismissed {registration : Registration} {number : RegistrationId}
    {connection : ConnectionId} {id : String}
    (found : Ordered.get? (call.after back).tasks task = some (.withdraw connection id number))
    (member : registration ∈ (call.after back).registry.registered) :
    ∀ drain, ∀ step ∈ dismissals drain call.begun (back ++ [.advance task]),
      registration ∉ step.purged := by
  intro drain step happened purged
  rw [dismissals_append] at happened
  rcases List.mem_append.mp happened with before | last
  · exact (orderly.dismissive.spent_of_purged before purged).closed registration member rfl
  · rw [dismissals, dismissals, List.append_nil] at last
    rcases dismissed_cases drain (call.begun.run back) (.advance task) with
      ⟨same, connection, others, report, completes, -⟩ | ⟨nothing, -⟩
    · cases same
      cases found.symm.trans completes
    · rw [nothing] at last
      cases last

variable (began : call.task? = some task)
include began

/-- The start withdraws the registration that it made and is refused, unless something has taken
that. -/
theorem step_withdrawing {registration : Registration}
    (known : (call.after back).phase? call.connection ≠ none)
    (unspawned : ∀ operation,
      call.rest? [] ≠ some (.query call.connection call.id (.queued operation)))
    (rest : call.rest? back = some (.withdraw call.connection call.id registration.id))
    (sent : call.sent back = []) (owns : call.Owns task back registration) :
    call.Course task (back ++ [.advance task]) := by
  have now : Orderly (call.after back) := orderly.run back
  have consistent := now.swept.consistent
  have found := (rest?_eq began back).symm.trans rest
  have nowSent := sent_snoc began back (.advance task)
  have nowMade := made_snoc began back (.advance task)
  have nowRest := rest?_eq began (back ++ [.advance task])
  rw [sent, yield_advance found, offers, List.nil_append] at nowSent
  have nothing :
      (call.after back).registry.makes (.withdraw call.connection call.id registration.id) = [] :=
    rfl
  rw [yield_advance found, nothing, List.append_nil] at nowMade
  rw [after_snoc, Server.act, Server.advance, found, get?_finish, if_pos rfl] at nowRest
  rcases consistent.unregister_cases registration.id with ⟨removed, isOpen⟩ | ⟨kept, none⟩
  · rw [removed, if_pos rfl] at nowSent
    have member : registration ∈ (call.after back).registry.registered := by
      rcases owns.holds with member | ⟨spent, -⟩
      · exact member
      · obtain ⟨other, inside, same⟩ := isOpen
        exact absurd same (spent.closed other inside)
    have gone : registration ∉ ((call.after back).registry.settle
        (.withdraw call.connection call.id registration.id)).registered := by
      rw [Registry.settle, (consistent.keeps_unregister registration.id).registered,
        List.mem_filter]
      simp
    refine .refused ⟨nowSent, nowRest, unspawned, ?_, ?_⟩
    all_goals
      intro made inside
      rw [nowMade, owns.made, List.mem_singleton] at inside
      subst inside
    · rw [after_snoc, Server.act, registry_advance, found]
      exact consistent.spent_of_gone member gone
    · exact undismissed orderly found member
  · -- Something else was first and has taken the registration, so the start has nothing to say.
    rw [kept, if_neg Bool.false_ne_true] at nowSent
    have later :=
      owns.step began now known nowMade fun member => absurd rfl (none registration member)
    exact .settled ⟨nowRest, nowSent, later⟩

/-- Whatever comes next, the start of a subscription goes on as it should. -/
theorem Course.step (known : (call.after back).phase? call.connection ≠ none)
    (unspawned : ∀ operation,
      call.rest? [] ≠ some (.query call.connection call.id (.queued operation)))
    (course : call.Course task back) (action : Action) : call.Course task (back ++ [action]) := by
  have now : Orderly (call.after back) := orderly.run back
  cases course with
  | refused refused => exact .refused (refused.step began now action)
  | settled settled => exact .settled (settled.step began now known action)
  | registering rest sent made steps =>
    cases own : action.isStepOf task with
    | true =>
      obtain rfl := Action.eq_of_isStepOf own
      exact step_registering began now unspawned rest sent made steps
    | false =>
      obtain ⟨stays, same, unmade⟩ := other_snoc began now rest own
      refine .registering (or_self_iff.mp stays) (same.trans sent) (unmade.trans made) ?_
      rw [List.countP_append, steps, List.countP_singleton, own]
      rfl
  | withdrawing rest sent owns steps =>
    cases own : action.isStepOf task with
    | true =>
      obtain rfl := Action.eq_of_isStepOf own
      exact step_withdrawing orderly began known unspawned rest sent owns
    | false =>
      obtain ⟨stays, same, unmade⟩ := other_snoc began now rest own
      refine .withdrawing (or_self_iff.mp stays) (same.trans sent)
        (owns.step began now known unmade fun _ => Or.inl own) ?_
      rw [List.countP_append, steps, List.countP_singleton, own]
      rfl

end Run

/-- A call that is refused at once is refused by that one error. -/
theorem refused_at_once {error : FieldError} (refused : call.refusal? = some error)
    (none : call.task? = none) (back : List Action) : call.Refused back error := by
  have ended : ∀ back, call.rest? back = .none := by
    intro back
    rw [rest?, none]
    rfl
  have unmade : call.made back = [] := by
    rw [made, none]
    rfl
  refine ⟨?_, ended back, ?_, ?_, ?_⟩
  · rw [sent, refused, none]
    rfl
  · intro operation
    rw [ended]
    nofun
  all_goals
    rw [unmade]
    nofun

section Whole

variable (orderly : Orderly call.before) (known : call.before.phase? call.connection ≠ none)
include orderly known

theorem known_after (back : List Action) : (call.after back).phase? call.connection ≠ none :=
  (known_run orderly.swept.housed known
    (.handle call.connection (.start call.id call.request) :: back)).2

theorem stays (kept : List Action → Prop) (now : kept back)
    (step : ∀ back action, Orderly (call.after back) →
      (call.after back).phase? call.connection ≠ none → kept back → kept (back ++ [action]))
    (later : List Action) : kept (back ++ later) := by
  induction later using List.reverseRecOn with
  | nil =>
    rw [List.append_nil]
    exact now
  | append_singleton later action ih =>
    have ready : Orderly (call.after (back ++ later)) := (orderly.act _).run _
    rw [← List.append_assoc]
    exact step _ action ready (known_after orderly known _) ih

/-- A call that is not refused at once is the start of a subscription on its course, or its
operation runs. -/
theorem progress (began : call.task? = some task) (back : List Action) :
    (call.Course task back ∧
        ∀ operation, call.rest? [] ≠ some (.query call.connection call.id (.queued operation))) ∨
      ∃ operation, call.Runs back operation := by
  have first : Orderly call.begun := orderly.act _
  rcases call.begun_cases with ⟨error, -, none, -⟩ | ⟨operation, accepted, number, -, spawned⟩
  · rw [none] at began
    cases began
  · have sent : call.sent [] = [] := by
      rw [sent, accepted, began]
      rfl
    have made : call.made [] = [] := by
      rw [made, began]
      rfl
    have rest := rest?_eq began []
    have same : task = ⟨call.before.nextTask⟩ := Option.some.inj (began.symm.trans number)
    rw [after, Server.run, List.foldl_nil, spawned, same, get?_spawn, if_pos rfl] at rest
    by_cases subscription : operation.kind = .subscription
    · rw [if_pos subscription] at rest
      have unspawned : ∀ operation, call.rest? [] ≠
          some (.query call.connection call.id (.queued operation)) := by
        intro operation
        rw [rest]
        nofun
      refine Or.inl ⟨?_, unspawned⟩
      have course : call.Course task [] := .registering rest sent made rfl
      exact stays orderly known (call.Course task ·) course
        (fun back action _ known course => course.step first began known unspawned action) back
    · rw [if_neg subscription] at rest
      have runs : call.Runs [] operation := ⟨rest, made, Or.inl ⟨sent, .queued operation, rest⟩⟩
      exact Or.inr ⟨operation, stays orderly known (call.Runs · operation) runs
        (fun back action ready _ runs => runs.step began ready action) back⟩

/-- The call has not returned, or something has become of it for good. -/
theorem pending_or_comes (back : List Action) :
    call.Pending back ∨ ∃ outcome, ∀ later, call.Comes (back ++ later) outcome := by
  rcases call.begun_cases with ⟨error, refused, none, -⟩ | ⟨operation, -, began, -⟩
  · exact Or.inr ⟨.refused error, fun later => refused_at_once refused none (back ++ later)⟩
  · rcases progress orderly known began back with ⟨course, -⟩ | ⟨operation, runs⟩
    · cases course with
      | registering rest sent made steps =>
        refine Or.inl ⟨⟨_, rest, rfl⟩, sent, fun task same => ?_⟩
        cases began.symm.trans same
        omega
      | withdrawing rest sent owns steps =>
        refine Or.inl ⟨⟨_, rest, rfl⟩, sent, fun task same => ?_⟩
        cases began.symm.trans same
        omega
      | @refused error refused =>
        exact Or.inr ⟨.refused error, stays orderly known (call.Refused · error) refused
          fun back action ready _ refused => refused.step began ready action⟩
      | @settled registration settled =>
        have kept := stays orderly known (call.Settled _ · registration) settled
          fun back action ready known settled => settled.step began ready known action
        exact Or.inr ⟨.registers registration, fun later => (kept later).registers⟩
    · exact Or.inr ⟨.runs operation, stays orderly known (call.Runs · operation) runs
        fun back action ready _ runs => runs.step began ready action⟩

theorem isStartOf_rest (began : call.task? = some task) {kind : Task}
    (rest : call.rest? back = some kind) : kind.isStartOf call.connection call.id = true := by
  have own : call.connection = call.connection ∧ call.id = call.id := ⟨rfl, rfl⟩
  rcases progress orderly known began back with ⟨course, -⟩ | ⟨operation, runs⟩
  · cases course with
    | registering begins =>
      cases begins.symm.trans rest
      exact decide_eq_true own
    | withdrawing withdraws =>
      cases withdraws.symm.trans rest
      exact decide_eq_true own
    | refused refused => cases refused.ended.symm.trans rest
    | settled settled => cases settled.ended.symm.trans rest
  · rcases runs.result with ⟨-, job, running⟩ | ⟨ended, -⟩
    · cases running.symm.trans rest
      exact decide_eq_true own
    · cases ended.symm.trans rest

/-- What the task of a call offers with an action is queued, if the connection is not closed. -/
theorem gained_step (began : call.task? = some task) (action : Action)
    (notClosed : (call.after back).phase? call.connection ≠ some .closed) :
    (if action.isStepOf task then
       gained call.connection (call.after back) ((call.after back).act action)
     else []) = yield offers task (call.after back) action := by
  cases own : action.isStepOf task with
  | false => exact (yield_other own).symm
  | true =>
    obtain rfl := Action.eq_of_isStepOf own
    rw [if_pos rfl]
    cases rest : call.rest? back with
    | none =>
      rw [rest?_eq began] at rest
      rw [yield_gone rest, Server.act, Server.advance, rest]
      exact List.drop_length
    | some kind =>
      have housed : Housed (call.after back) := ((orderly.act _).run back).swept.housed
      have start := isStartOf_rest orderly known began rest
      rw [rest?_eq began] at rest
      rw [yield_advance rest, gained_advance housed (known_after orderly known back) rest start,
        if_neg notClosed]

/-- On a connection that is not closed, all that a call offers is queued. -/
theorem queued_eq_sent (back : List Action)
    (notClosed : (call.after back).phase? call.connection ≠ some .closed) :
    call.queued back = call.sent back := by
  have housed := orderly.swept.housed
  rcases call.begun_cases with
    ⟨error, refused, none, sends⟩ | ⟨operation, accepted, began, -, spawned⟩
  · have unclosed : call.before.phase? call.connection ≠ some .closed := by
      intro closed
      exact notClosed
        (closed_run housed closed (.handle call.connection (.start call.id call.request) :: back))
    have queued :=
      outbox_sent call.before known (housed.attached call.connection) (.error call.id [error])
    rw [if_neg unclosed, ← sends] at queued
    have gained := gained_eq ⟨queued, fun closed => absurd closed unclosed⟩
    rw [StartCall.queued, gained, sent, refused, none]
    rfl
  · induction back using List.reverseRecOn with
    | nil =>
      have quiet : gained call.connection call.before call.begun = [] := by
        rw [spawned]
        exact List.drop_length
      rw [queued, sent, quiet, accepted, began]
      rfl
    | append_singleton back action ih =>
      have unclosed : (call.after back).phase? call.connection ≠ some .closed := by
        intro closed
        rw [after_snoc] at notClosed
        exact notClosed (closed_act ((orderly.act _).run back).swept.housed action closed)
      rw [queued_snoc began, sent_snoc began, ih unclosed,
        gained_step orderly known began action unclosed]

end Whole

end StartCall

namespace Server

variable {σ : Type}

/-- Every start has one outcome, in whatever order calls take their steps after it. While it has not
returned, it has offered nothing, and it returns with its second step at the latest. Then it is
refused with one error, and what it has registered is closed and was purged by no drain; or its
operation runs, and offers its result once and then that it is complete; or it has made a
registration and offered nothing, and the registration stays until the client stops it or its
connection is closed. That is so from then on, and nothing else. Whatever the start offers is queued
as long as the connection is not closed. -/
theorem start_has_one_outcome (engine : Engine σ) (world : World σ) (drainTimeout : Nat)
    (front : List Action) (connection : ConnectionId) (id : String) (request : Request)
    (known : ((start engine world drainTimeout).run front).phase? connection ≠ none) :
    let call : StartCall σ := ⟨(start engine world drainTimeout).run front, connection, id, request⟩
    ∀ back, (call.Pending back ∨ ∃ outcome, (∀ later, call.Comes (back ++ later) outcome) ∧
        ∀ other, call.Comes back other → other = outcome) ∧
      ((call.after back).phase? connection ≠ some .closed → call.queued back = call.sent back) := by
  intro call back
  have orderly : Orderly call.before := (Orderly.start engine world drainTimeout).run front
  refine ⟨?_, StartCall.queued_eq_sent orderly known back⟩
  refine (StartCall.pending_or_comes orderly known back).imp_right ?_
  rintro ⟨outcome, comes⟩
  have now := comes []
  rw [List.append_nil] at now
  exact ⟨outcome, comes, fun other another => another.unique now⟩

end Server

namespace Chairlift

open Server

/-- A client watches on a connection that has just been opened. -/
def watchCall : StartCall Unit := ⟨opened, ⟨1⟩, "mine", watch⟩

/-- A drain begins before the client is registered. -/
def late : List Action := [.beginDrain, .advance ⟨0⟩, .advance ⟨0⟩]

/-- The drain also comes to the connection before the start withdraws the registration. -/
def outrun : List Action := [.beginDrain, .advance ⟨0⟩, .advance ⟨1⟩, .advance ⟨1⟩, .advance ⟨0⟩]

theorem begun_watchCall : watchCall.begun = watched := handled_watch rfl rfl "mine"

theorem accepted_watchCall : watchCall.refusal? = none ∧ watchCall.task? = some ⟨0⟩ := by
  rcases watchCall.begun_cases with ⟨error, -, -, sends⟩ | ⟨operation, accepted, began, -⟩
  · rw [begun_watchCall] at sends
    cases congrArg (·.tasks.length) sends
  · exact ⟨accepted, began⟩

/-- If the start is first, the client gets an error, and if the drain is first, it is told that its
subscription is complete. It never gets both. -/
theorem start_has_one_outcome_late :
    opened.phase? ⟨1⟩ ≠ none ∧
    (watchCall.queued late = [.error "mine" [Draining.fieldError .draining]] ∧
      ∃ outcome, (∀ later, watchCall.Comes (late ++ later) outcome) ∧
        ∀ other, watchCall.Comes late other → other = outcome) ∧
    (watchCall.after outrun).outbox ⟨1⟩ = [.complete "mine"] ∧
      ∃ outcome, (∀ later, watchCall.Comes (outrun ++ later) outcome) ∧
        ∀ other, watchCall.Comes outrun other → other = outcome := by
  have known : opened.phase? ⟨1⟩ ≠ none := nofun
  have outcomes :=
    start_has_one_outcome engine world 1000 [.openConnection, .openConnection] ⟨1⟩ "mine" watch
      known
  obtain ⟨accepted, began⟩ := accepted_watchCall
  have ended : ∀ back, Ordered.get? (watched.run back).tasks ⟨0⟩ = none →
      ¬ watchCall.Pending back := by
    intro back gone pending
    obtain ⟨task, rest, -⟩ := pending.waits
    rw [StartCall.rest?_eq began, StartCall.after, begun_watchCall, gone] at rest
    cases rest
  have sent : watchCall.sent late = [.error "mine" [Draining.fieldError .draining]] := by
    rw [StartCall.sent, accepted, began, begun_watchCall]
    rfl
  have notClosed : (watchCall.after late).phase? ⟨1⟩ ≠ some .closed := by
    rw [StartCall.after, begun_watchCall]
    nofun
  obtain ⟨decided, queued⟩ := outcomes late
  refine ⟨known, ⟨(queued notClosed).trans sent, decided.resolve_left (ended late rfl)⟩, ?_,
    (outcomes outrun).1.resolve_left (ended outrun rfl)⟩
  rw [StartCall.after, begun_watchCall]
  rfl

end Chairlift

end MockGraph
