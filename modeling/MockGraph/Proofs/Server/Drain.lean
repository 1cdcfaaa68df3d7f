import MockGraph.Proofs.Server.Waiting
set_option autoImplicit false

namespace MockGraph

namespace Server

variable {σ : Type} {server : Server σ}

/-- The step of a task in which the operation of a connection is over: its result is queued, and
then that it is complete, before the connection is closed and while a drain, if one has begun, still
waits. -/
structure Finishes (ready : Server σ) (task : TaskId) (connection : ConnectionId) (id : String)
    (response : Response) : Prop where
  resumed : ∃ job gates world, Ordered.get? ready.tasks task = some (.query connection id job) ∧
    job.resume ready.engine ready.gates ready.world = (.finished response, gates, world)
  notClosed : ready.phase? connection ≠ some .closed
  waiting : ∀ drain stage, Ordered.get? ready.tasks drain = some stage → stage.isDrain = true →
    ∃ connections deadline, stage = .drain connections deadline ∧ connection ∈ connections
  queued : (ready.act (.advance task)).outbox connection =
    ready.outbox connection ++ [.next id response, .complete id]

/-- The step of an operation that is awaited: it goes on and queues nothing, or it is over. -/
theorem Awaited.advance {task : TaskId} {connection : ConnectionId} {id : String}
    (awaited : Awaited server task connection id) (sound : Sound server) :
    ((∃ job,
          Ordered.get? (server.act (.advance task)).tasks task = some (.query connection id job)) ∧
        (server.act (.advance task)).outbox connection = server.outbox connection) ∨
      ∃ response, Finishes server task connection id response ∧
        Ordered.get? (server.act (.advance task)).tasks task = none := by
  obtain ⟨job, running⟩ := awaited.pending
  obtain ⟨phase, known, notClosed⟩ := awaited.served
  have unclosed : server.phase? connection ≠ some .closed := by
    rw [known]
    exact fun same => notClosed (Option.some.inj same)
  rcases advance_query running with
    waits | ⟨middle, idle, same, ⟨rest, goesOn⟩ | ⟨response, gates, world, resumed, finished⟩⟩
  · rw [Server.act, waits]
    exact Or.inl ⟨⟨job, running⟩, rfl⟩
  · rw [Server.act, goesOn]
    exact Or.inl ⟨⟨rest, by rw [get?_become, if_pos rfl]⟩, outbox_of_connections same connection⟩
  · refine Or.inr ⟨response, ⟨⟨job, gates, world, running, resumed⟩, unclosed, ?_, ?_⟩, ?_⟩
    · intro drain stage found kind
      have waits := awaited.waiting drain stage found
      cases stage with
      | drain connections deadline =>
        exact ⟨connections, deadline, rfl, List.contains_iff_mem.mp waits⟩
      | complete | drained => cases waits
      | _ => cases kind
    · have result :
          ((middle.send connection (.next id response)).send connection (.complete id)).outbox
            connection = _ := outbox_result sound.housed idle same (known ▸ Option.some_ne_none _)
      rw [if_neg unclosed] at result
      rw [Server.act, finished]
      exact result
    · rw [Server.act, finished, get?_finish, if_pos rfl]

/-- The messages that the steps of a task queue on a connection. -/
def queuedBy (task : TaskId) (connection : ConnectionId) :
    Server σ → List Action → List ServerMessage
  | _, [] => []
  | server, action :: rest =>
    let after := server.act action
    (if action.isStepOf task then (after.outbox connection).drop (server.outbox connection).length
     else []) ++ queuedBy task connection after rest

theorem queuedBy_append (task : TaskId) (connection : ConnectionId) (server : Server σ)
    (front back : List Action) :
    queuedBy task connection server (front ++ back) =
      queuedBy task connection server front ++
        queuedBy task connection (server.run front) back := by
  induction front generalizing server with
  | nil => rfl
  | cons action rest ih =>
    rw [List.cons_append, queuedBy, queuedBy, run_cons, ih, List.append_assoc]

theorem queuedBy_of_gone {actions : List Action} {task : TaskId}
    (given : task.number < server.nextTask) (gone : Ordered.get? server.tasks task = none)
    (connection : ConnectionId) : queuedBy task connection server actions = [] := by
  induction actions generalizing server with
  | nil => rfl
  | cons action rest ih =>
    have later :=
      ih (Nat.lt_of_lt_of_le given (moves_act server action).nextTask_le)
        (gone_act given gone action)
    rw [queuedBy, later, List.append_nil]
    split
    · rename_i steps
      obtain rfl := Action.eq_of_isStepOf steps
      have idle : server.act (.advance task) = server := by rw [act, advance, gone]
      rw [idle, List.drop_length]
    · rfl

/-- Where a drain is over in time at last, an operation that is awaited finishes, and queues its
messages once. -/
theorem Awaited.run {actions : List Action} {task : TaskId} {connection : ConnectionId}
    {id : String} (awaited : Awaited server task connection id) (sound : Sound server)
    (once : Once server actions) (outlasted : OutlastedBy server actions task connection)
    {drain : TaskId} {report : DrainReport}
    (drained : Ordered.get? (server.run actions).tasks drain = some (.drained report))
    (inTime : report.timedOut = false) :
    ∃ response, queuedBy task connection server actions = [.next id response, .complete id] ∧
      ∃ front back, actions = front ++ .advance task :: back ∧
        Finishes (server.run front) task connection id response := by
  induction actions generalizing server with
  | nil =>
    have waits := awaited.waiting drain _ drained
    cases waits
  | cons action rest ih =>
    have goesOn :
        (∃ job, Ordered.get? (server.act action).tasks task = some (.query connection id job)) →
          ∃ response,
            queuedBy task connection (server.act action) rest = [.next id response, .complete id] ∧
              ∃ front back, rest = front ++ .advance task :: back ∧
                Finishes ((server.act action).run front) task connection id response := by
      intro still
      rcases awaited.act sound once outlasted still with overran | later
      · exact absurd overran (not_overran once.step.2 drained inTime)
      · exact ih later (sound.act once) once.step.2 outlasted.step drained
    obtain ⟨job, running⟩ := awaited.pending
    cases steps : action.isStepOf task with
    | false =>
      have still : ∃ job,
          Ordered.get? (server.act action).tasks task = some (.query connection id job) := by
        rcases get?_act_of_not_isStepOf sound.tracked.numbered running steps with same | woken
        · exact ⟨job, same⟩
        · exact ⟨job.permit, woken⟩
      obtain ⟨response, queued, front, back, split, finishes⟩ := goesOn still
      refine ⟨response, ?_, action :: front, back, by rw [split]; rfl, finishes⟩
      rw [queuedBy, steps]
      exact queued
    | true =>
      obtain rfl := Action.eq_of_isStepOf steps
      rcases awaited.advance sound with ⟨still, same⟩ | ⟨response, finishes, gone⟩
      · obtain ⟨response, queued, front, back, split, finishes⟩ := goesOn still
        refine ⟨response, ?_, .advance task :: front, back, by rw [split]; rfl, finishes⟩
        rw [queuedBy, if_pos steps, same, List.drop_length]
        exact queued
      · refine ⟨response, ?_, [], rest, rfl, finishes⟩
        have moves := moves_act server (.advance task)
        have given := Nat.lt_of_lt_of_le (sound.tracked.numbered task _ running) moves.nextTask_le
        rw [queuedBy, if_pos steps, finishes.queued, List.drop_left, queuedBy_of_gone given gone]
        rfl

/-- A message that begins an operation adds a task of it on an open connection. -/
theorem handle_start {connection : ConnectionId} {id : String} {request : Request} {task : TaskId}
    (begun : (server.handle connection (.start id request)).1 = some task) :
    server.phase? connection = some .open ∧ task = ⟨server.nextTask⟩ ∧
      ∃ added, Task.isDrain added = false ∧
        server.act (.handle connection (.start id request)) = (server.spawn added).2 := by
  rw [Server.act]
  unfold handle startOperation at begun ⊢
  dsimp only at begun ⊢
  split at begun
  · cases begun
  · rename_i opened
    rw [if_neg opened]
    split at begun
    · cases begun
    · rename_i operation parsed
      refine ⟨Decidable.not_not.mp opened, (Option.some.inj begun).symm, _, ?_, rfl⟩
      split <;> rfl

/-- A request is refused with nothing changed, answered at once, or a task is added for it. -/
theorem submit_cases (server : Server σ) (request : Request) :
    (server.draining = true ∧ server.submit request = (.refused .draining, server)) ∨
      (server.draining = false ∧ ∃ response, (server.submit request).1 = .answered response) ∨
      server.draining = false ∧ ∃ operation, server.submit request =
        (.running ⟨server.nextTask⟩, (server.spawn (.request (.queued operation))).2) := by
  unfold submit
  split
  · rename_i draining
    exact Or.inl ⟨draining, rfl⟩
  · rename_i calm
    have calm := Bool.eq_false_iff.mpr calm
    refine Or.inr ?_
    split
    · exact Or.inl ⟨calm, _, rfl⟩
    · split
      · exact Or.inl ⟨calm, _, rfl⟩
      · exact Or.inr ⟨calm, _, rfl⟩

/-- An operation that has just begun is awaited: its connection is open, so no drain has begun. -/
theorem Sound.awaited {connection : ConnectionId} {id : String} {request : Request} {task : TaskId}
    {job : Job} (sound : Sound server)
    (begun : (server.handle connection (.start id request)).1 = some task)
    (found : Ordered.get? (server.act (.handle connection (.start id request))).tasks task =
      some (.query connection id job)) :
    Awaited (server.act (.handle connection (.start id request))) task connection id := by
  obtain ⟨opened, -, added, kind, after⟩ := handle_start begun
  have calm : server.draining = false := by
    refine Bool.eq_false_iff.mpr fun draining => ?_
    exact sound.housed.shut draining connection opened
  refine ⟨⟨job, found⟩, ⟨.open, ?_, nofun⟩, ?_⟩
  · rw [after]
    exact opened
  · intro other present known
    apply Task.waitsFor_of_not_isDrain
    rw [after, get?_spawn] at known
    split at known
    · cases known
      exact kind
    · exact sound.tracked.calm calm other present known

theorem Sound.unanswered {operation : Operation} (sound : Sound server)
    (calm : server.draining = false) :
    Unanswered (server.spawn (.request (.queued operation))).2 ⟨server.nextTask⟩ := by
  refine ⟨⟨.queued operation, by rw [get?_spawn, if_pos rfl]⟩, ?_⟩
  intro other present known
  apply Task.inTime_of_not_isDrain
  rw [get?_spawn] at known
  split at known
  · cases known
    rfl
  · exact sound.tracked.calm calm other present known

/-- A drain that is over in time has lost nothing, in whatever order calls and tasks took their
steps. The result of every operation that a message began was queued, and then that it is complete,
and neither again. Every request has its response, or was refused before it did anything. -/
theorem drain_loses_nothing (engine : Engine σ) (world : World σ) (drainTimeout : Nat)
    (actions : List Action) (single : actions.countP Action.isDrain ≤ 1) (drain : TaskId)
    (report : DrainReport)
    (drained : Ordered.get? ((start engine world drainTimeout).run actions).tasks drain =
      some (.drained report)) (inTime : report.timedOut = false) :
    (∀ front connection id request back,
      actions = front ++ .handle connection (.start id request) :: back →
      let before := (start engine world drainTimeout).run front
      let after := before.act (.handle connection (.start id request))
      ∀ task job, (before.handle connection (.start id request)).1 = some task →
        Ordered.get? after.tasks task = some (.query connection id job) →
        OutlastedBy after back task connection →
        ∃ response, queuedBy task connection after back = [.next id response, .complete id] ∧
          ∃ middle rest, back = middle ++ .advance task :: rest ∧
            Finishes (after.run middle) task connection id response) ∧
    ∀ front request back, actions = front ++ .submit request :: back →
      let before := (start engine world drainTimeout).run front
      let after := before.act (.submit request)
      if before.draining then before.submit request = (.refused .draining, before)
      else
        (∃ response, (before.submit request).1 = .answered response) ∨
          ∃ task response, (before.submit request).1 = .running task ∧
            Ordered.get? (after.run back).tasks task = some (.answered response) ∧
            ∃ middle rest, back = middle ++ .advance task :: rest ∧
              Answers (after.run middle) task response := by
  have once : Once (start engine world drainTimeout) actions := single
  have sound := sound_start engine world drainTimeout
  refine ⟨?_, ?_⟩
  · intro front connection id request back split
    rw [split] at once drained
    rw [run_append] at drained
    intro before after task job begun found outlasted
    obtain ⟨soundBefore, onceBefore⟩ := sound.run once
    have awaited : Awaited after task connection id := soundBefore.awaited begun found
    exact awaited.run (soundBefore.act onceBefore) onceBefore.step.2 outlasted drained inTime
  · intro front request back split
    rw [split] at once drained
    rw [run_append] at drained
    intro before after
    obtain ⟨soundBefore, onceBefore⟩ := sound.run once
    rcases submit_cases before request with
      ⟨draining, refused⟩ | ⟨calm, answered⟩ | ⟨calm, operation, running⟩
    · rw [if_pos draining]
      exact refused
    · rw [calm, if_neg Bool.false_ne_true]
      exact Or.inl answered
    · rw [calm, if_neg Bool.false_ne_true]
      have unanswered : Unanswered after ⟨before.nextTask⟩ := by
        show Unanswered (before.act (.submit request)) _
        rw [Server.act, running]
        exact soundBefore.unanswered calm
      obtain ⟨response, answered, middle, rest, split, answers⟩ :=
        unanswered.run (soundBefore.act onceBefore) onceBefore.step.2 drained inTime
      refine Or.inr ⟨⟨before.nextTask⟩, response, ?_, answered, middle, rest, split, answers⟩
      rw [running]

end Server

namespace Gondola

open Server Syntax

/-- Whether a gondola runs. -/
def schema : TypeSystem where
  query := "Query"
  mutation := none
  subscription := none
  types :=
    [("Query", .object "Query" none [("runs", ⟨"runs", none, .nonNull (.named "Boolean"), []⟩)]),
      ("Boolean", .scalar "Boolean" none)]
  directives := []

def engine : Engine Unit := ⟨schema, ⟨MockRules.standard, .standard⟩, []⟩

def world : World Unit := ⟨.ofSeed 0, (), .new⟩

def request : Request := ⟨"{runs}", none, none⟩

def definition : OperationDefinition := ⟨.query, none, [], [], [.field none "runs" [] [] []]⟩

def document : Document := ⟨[definition], []⟩

def operation : Operation := ⟨.query, none, [⟨"runs", none, [], []⟩], []⟩

theorem sound : schema.documentSound document = true := by
  have selected : schema.selectionSound [] [] "Query" definition.selection = true := by
    simp [definition, TypeSystem.selectionSound]
    decide
  have merged : TypeSystem.mergeable [] 2 definition.selection = true := by
    simp [definition, TypeSystem.mergeable, TypeSystem.levelFields, TypeSystem.distinctKeys]
  have sound : schema.operationSound document definition = true := by
    show (_ && schema.selectionSound [] [] "Query" definition.selection &&
      TypeSystem.mergeable [] 2 definition.selection) = true
    rw [selected, merged]
    decide
  show (_ && (schema.operationSound document definition && true)) = true
  rw [sound]
  decide

theorem parsed :
    schema.parseOperation request.query request.operationName request.bindings = .ok operation := by
  have read : Document.parse? request.query = some document := rfl
  have lowered : schema.lowerOperation document definition [] = operation := by
    simp [document, definition, TypeSystem.lowerOperation, lowerSelection]
    rfl
  rw [← lowered]
  exact TypeSystem.parseOperation_of_sound read sound rfl rfl

def opened : Server Unit := (start engine world 1000).run [.openConnection]

def begun : Server Unit := (opened.spawn (.query ⟨1⟩ "runs" (.queued operation))).2

/-- Somebody else asks without a connection, and a drain begins while both wait for their
answers. -/
def later : List Action :=
  [.submit request, .beginDrain, .advance ⟨2⟩, .advance ⟨1⟩, .advance ⟨2⟩, .advance ⟨0⟩,
    .advance ⟨2⟩, .advance ⟨2⟩, .advance ⟨2⟩]

def actions : List Action := .openConnection :: .handle ⟨1⟩ (.start "runs" request) :: later

theorem handled : opened.handle ⟨1⟩ (.start "runs" request) = (some ⟨0⟩, begun) := by
  show opened.startOperation ⟨1⟩ "runs" request = _
  unfold startOperation
  rw [if_neg (by decide), show opened.engine.schema = schema from rfl, parsed]
  rfl

theorem submitted :
    begun.submit request = (.running ⟨1⟩, (begun.spawn (.request (.queued operation))).2) := by
  unfold submit
  rw [if_neg (by decide), show begun.engine.schema = schema from rfl, parsed]
  rfl

theorem drained : Ordered.get? ((start engine world 1000).run actions).tasks ⟨2⟩ =
    some (.drained ⟨1, 0, false⟩) := by
  show Ordered.get? (((opened.act (.handle ⟨1⟩ (.start "runs" request))).act (.submit request)).run
    (later.drop 1)).tasks ⟨2⟩ = _
  rw [act, handled, act, submitted]
  rfl

theorem drain_loses_nothing_running :
    actions.countP Action.isDrain ≤ 1 ∧
      Ordered.get? ((start engine world 1000).run actions).tasks ⟨2⟩ =
        some (.drained ⟨1, 0, false⟩) ∧
      (∃ response, queuedBy ⟨0⟩ ⟨1⟩ begun later = [.next "runs" response, .complete "runs"]) ∧
      ∃ response, Ordered.get? ((start engine world 1000).run actions).tasks ⟨1⟩ =
        some (.answered response) := by
  have single : actions.countP Action.isDrain ≤ 1 := by decide
  obtain ⟨queued, answered⟩ :=
    drain_loses_nothing engine world 1000 actions single ⟨2⟩ _ drained rfl
  have start : opened.act (.handle ⟨1⟩ (.start "runs" request)) = begun := by rw [act, handled]
  refine ⟨single, drained, ?_, ?_⟩
  · have outlasted : OutlastedBy begun later ⟨0⟩ ⟨1⟩ := by
      refine outlastedBy_of_not_closes (fun id task found same => ?_) (by decide) ⟨0⟩
      rw [same, begun, get?_spawn] at found
      split at found <;> cases found
    have known : Ordered.get? begun.tasks ⟨0⟩ = some (.query ⟨1⟩ "runs" (.queued operation)) := rfl
    have result := queued [.openConnection] ⟨1⟩ "runs" request later rfl ⟨0⟩ (.queued operation)
      (congrArg Prod.fst handled)
    rw [show (Server.start engine world 1000).run [.openConnection] = opened from rfl,
      start] at result
    obtain ⟨response, messages, -⟩ := result known outlasted
    exact ⟨response, messages⟩
  · have result :=
      answered [.openConnection, .handle ⟨1⟩ (.start "runs" request)] request (later.drop 1) rfl
    have ready : (Server.start engine world 1000).run
        [.openConnection, .handle ⟨1⟩ (.start "runs" request)] = begun := start
    rw [ready, if_neg (by decide), submitted] at result
    rcases result with ⟨_, impossible⟩ | ⟨task, response, same, found, -⟩
    · cases impossible
    · obtain rfl : ⟨1⟩ = task := Submission.running.inj same
      refine ⟨response, ?_⟩
      rw [← found, ← ready]
      rfl

end Gondola

end MockGraph
