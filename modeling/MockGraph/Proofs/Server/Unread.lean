import Mathlib.Data.List.Forall2
import MockGraph.Proofs.Server.Silence
set_option autoImplicit false

namespace MockGraph

/-- A connection as if nothing had been queued on it. -/
def Connection.unread (connection : Connection) : Connection := { connection with outbox := [] }

/-- The connections of a server by their numbers. -/
abbrev Connections := Ordered ConnectionId Connection

namespace Connections

variable {first second : Connections}

def outbox (connections : Connections) (id : ConnectionId) : List ServerMessage :=
  ((Ordered.get? connections id).map (·.outbox)).getD []

/-- The same connections, apart from what was queued on them. -/
def Alike (first second : Connections) : Prop :=
  List.Forall₂ (fun one other => one.1 = other.1 ∧ one.2.unread = other.2.unread) first second

theorem Alike.refl (connections : Connections) : Alike connections connections :=
  List.forall₂_same.mpr fun _ _ => ⟨rfl, rfl⟩

theorem Alike.get? (alike : Alike first second) (id : ConnectionId) :
    (Ordered.get? second id).map Connection.unread =
      (Ordered.get? first id).map Connection.unread := by
  induction alike with
  | nil => rfl
  | @cons one other firsts seconds same _ ih =>
    obtain ⟨key, unread⟩ := same
    unfold Ordered.get?
    rw [← key]
    split
    · simp [unread]
    · exact ih

/-- Whatever is told by a connection without its messages is told by both. -/
theorem Alike.view {α : Type} {view : Connection → α} (alike : Alike first second)
    (id : ConnectionId)
    (unread : ∀ connection : Connection, view connection.unread = view connection) :
    (Ordered.get? second id).map view = (Ordered.get? first id).map view := by
  have same := congrArg (Option.map view) (alike.get? id)
  rw [Option.map_map, Option.map_map] at same
  have through : view ∘ Connection.unread = view := funext unread
  rw [through] at same
  exact same

/-- The same messages are queued on both, and they stay alike. -/
structure Echoes (first second firstAfter secondAfter : Connections) : Prop where
  alike : Alike firstAfter secondAfter
  same : ∀ id, ∃ messages, outbox firstAfter id = outbox first id ++ messages ∧
    outbox secondAfter id = outbox second id ++ messages

theorem Echoes.refl (alike : Alike first second) : Echoes first second first second :=
  ⟨alike, fun _ => ⟨[], (List.append_nil _).symm, (List.append_nil _).symm⟩⟩

theorem Echoes.trans {firstNext secondNext firstAfter secondAfter : Connections}
    (next : Echoes first second firstNext secondNext)
    (later : Echoes firstNext secondNext firstAfter secondAfter) :
    Echoes first second firstAfter secondAfter := by
  refine ⟨later.alike, fun id => ?_⟩
  obtain ⟨front, one, other⟩ := next.same id
  obtain ⟨back, oneLater, otherLater⟩ := later.same id
  refine ⟨front ++ back, ?_, ?_⟩
  · rw [oneLater, one, List.append_assoc]
  · rw [otherLater, other, List.append_assoc]

/-- A change that queues something or nothing, whatever was queued before. -/
structure Blind (change : Connection → Connection) (messages : Connection → List ServerMessage) :
    Prop where
  unread : ∀ one other : Connection, one.unread = other.unread →
      (change one).unread = (change other).unread
  queues : ∀ connection, (change connection).outbox = connection.outbox ++ messages connection
  same : ∀ one other : Connection, one.unread = other.unread → messages one = messages other

theorem Alike.adjust {change : Connection → Connection} {messages : Connection → List ServerMessage}
    (alike : Alike first second) (blind : Blind change messages) (id : ConnectionId) :
    Alike (Ordered.adjust first id change) (Ordered.adjust second id change) := by
  induction alike with
  | nil => exact .nil
  | @cons one other firsts seconds same rest ih =>
    obtain ⟨key, unread⟩ := same
    unfold Ordered.adjust
    rw [← key]
    split
    · exact .cons ⟨rfl, blind.unread _ _ unread⟩ rest
    · exact .cons ⟨rfl, unread⟩ ih

theorem alike_adjust {change : Connection → Connection}
    (same : ∀ connection, (change connection).unread = connection.unread)
    (connections : Connections) (id : ConnectionId) :
    Alike connections (Ordered.adjust connections id change) := by
  induction connections with
  | nil => exact .nil
  | cons entry rest ih =>
    unfold Ordered.adjust
    split
    · exact .cons ⟨rfl, (same entry.2).symm⟩ (Alike.refl rest)
    · exact .cons ⟨rfl, rfl⟩ ih

theorem outbox_adjust {change : Connection → Connection}
    {messages : Connection → List ServerMessage} (blind : Blind change messages)
    (connections : Connections) (id other : ConnectionId) :
    outbox (Ordered.adjust connections id change) other = outbox connections other ++
      if id = other then ((Ordered.get? connections other).map messages).getD [] else [] := by
  rw [outbox, outbox, Ordered.get?_adjust]
  split
  · cases Ordered.get? connections other with
    | none => rfl
    | some connection => exact blind.queues connection
  · rw [List.append_nil]

theorem Echoes.adjust {change : Connection → Connection}
    {messages : Connection → List ServerMessage} (alike : Alike first second)
    (blind : Blind change messages) (id : ConnectionId) :
    Echoes first second (Ordered.adjust first id change) (Ordered.adjust second id change) := by
  refine ⟨alike.adjust blind id, fun other => ⟨_, outbox_adjust blind first id other, ?_⟩⟩
  have told : (Ordered.get? second other).map messages = (Ordered.get? first other).map messages :=
    alike.view other fun connection => blind.same _ _ rfl
  rw [outbox_adjust blind second id other, told]

theorem Alike.insert (alike : Alike first second) (id : ConnectionId) (connection : Connection) :
    Alike (Ordered.insert first id connection) (Ordered.insert second id connection) := by
  induction alike with
  | nil => exact .refl _
  | @cons one other firsts seconds same rest ih =>
    obtain ⟨key, unread⟩ := same
    unfold Ordered.insert
    rw [← key]
    split
    · exact .cons ⟨rfl, rfl⟩ rest
    · exact .cons ⟨rfl, unread⟩ ih

theorem outbox_insert {connections : Connections} {id : ConnectionId}
    (fresh : Ordered.get? connections id = none) {connection : Connection}
    (empty : connection.outbox = []) (other : ConnectionId) :
    outbox (Ordered.insert connections id connection) other = outbox connections other := by
  rw [outbox, outbox, Ordered.get?_insert]
  split
  · rename_i same
    rw [← same, fresh]
    exact empty
  · rfl

theorem Echoes.insert (alike : Alike first second) {id : ConnectionId}
    (fresh : Ordered.get? first id = none) {connection : Connection}
    (empty : connection.outbox = []) :
    Echoes first second (Ordered.insert first id connection)
      (Ordered.insert second id connection) := by
  have absent : Ordered.get? second id = none := by
    have same := alike.get? id
    rw [fresh] at same
    exact Option.map_eq_none_iff.mp same
  refine ⟨alike.insert id connection, fun other => ⟨[], ?_, ?_⟩⟩
  · rw [outbox_insert fresh empty, List.append_nil]
  · rw [outbox_insert absent empty, List.append_nil]

/-- Queueing is blind, if messages are not what decides about it. -/
theorem blind_queue {takes : Connection → Bool}
    (unread : ∀ connection : Connection, takes connection.unread = takes connection)
    (message : ServerMessage) :
    Blind (fun connection => if takes connection then connection.queue message else connection)
      fun connection => if takes connection then [message] else [] := by
  have same : ∀ one other : Connection, one.unread = other.unread → takes one = takes other := by
    intro one other equal
    rw [← unread one, equal, unread other]
  refine ⟨?_, ?_, ?_⟩
  · intro one other equal
    rw [same one other equal]
    split <;> exact equal
  · intro connection
    split
    · rfl
    · exact (List.append_nil _).symm
  · intro one other equal
    rw [same one other equal]

theorem blind_of_outbox {change : Connection → Connection}
    (unread : ∀ connection : Connection,
      (change connection).unread = (change connection.unread).unread)
    (outbox : ∀ connection, (change connection).outbox = connection.outbox) :
    Blind change fun _ => [] := by
  refine ⟨?_, ?_, fun _ _ _ => rfl⟩
  · intro one other equal
    rw [unread one, equal, ← unread other]
  · intro connection
    rw [outbox, List.append_nil]

theorem blind_beginClosing : Blind (·.beginClosing) fun _ => [] := by
  apply blind_of_outbox <;> intro connection <;> cases phase : connection.phase <;>
    simp [Connection.beginClosing, Connection.unread, phase]

theorem blind_markClosed : Blind (·.markClosed) fun _ => [] :=
  blind_of_outbox (fun _ => rfl) fun _ => rfl

end Connections

namespace Server

open Connections

variable {σ : Type}

/-- The same server with other connections. -/
def withConnections (server : Server σ) (connections : Connections) : Server σ :=
  { server with connections }

/-- A step that does not read what was queued: on a server that differs in nothing else, it does the
same and queues the same messages. -/
def Unreading (step : Server σ → Server σ) : Prop :=
  ∀ (server : Server σ) (other : Connections), Alike server.connections other →
    ∃ after, step (server.withConnections other) = (step server).withConnections after ∧
      Echoes server.connections other (step server).connections after

theorem Unreading.comp {first second : Server σ → Server σ} (unreading : Unreading first)
    (later : Unreading second) : Unreading fun server => second (first server) := by
  intro server other alike
  obtain ⟨middle, stepped, echoes⟩ := unreading server other alike
  obtain ⟨after, again, echoesLater⟩ := later (first server) middle echoes.alike
  refine ⟨after, ?_, echoes.trans echoesLater⟩
  dsimp only
  rw [stepped, again]

/-- A step that leaves connections alone does not read them. -/
theorem unreading_of_rest {step : Server σ → Server σ}
    (rest : ∀ server connections,
      step (server.withConnections connections) = (step server).withConnections connections) :
    Unreading step := by
  intro server other alike
  have kept : (step server).connections = server.connections := by
    have same := congrArg Server.connections (rest server server.connections)
    exact same
  refine ⟨other, rest server other, ?_⟩
  rw [kept]
  exact .refl alike

theorem unreading_id : Unreading fun server : Server σ => server := unreading_of_rest fun _ _ => rfl

theorem unreading_adjust {change : Connection → Connection}
    {messages : Connection → List ServerMessage} (blind : Blind change messages)
    (id : ConnectionId) : Unreading fun server : Server σ => server.adjust id change :=
  fun _ _ alike => ⟨_, rfl, .adjust alike blind id⟩

theorem unreading_send (id : ConnectionId) (message : ServerMessage) :
    Unreading fun server : Server σ => server.send id message :=
  unreading_adjust (blind_queue (fun _ => rfl) message) id

theorem unreading_deliver (id : ConnectionId) (message : ServerMessage) :
    Unreading fun server : Server σ => server.adjust id (·.deliver message) :=
  unreading_adjust (blind_queue (fun _ => rfl) message) id

theorem unreading_beginClosing (id : ConnectionId) :
    Unreading fun server : Server σ => server.adjust id (·.beginClosing) :=
  unreading_adjust blind_beginClosing id

theorem unreading_spawn (task : Task) : Unreading fun server : Server σ => (server.spawn task).2 :=
  unreading_of_rest fun _ _ => rfl

theorem unreading_become (id : TaskId) (task : Task) :
    Unreading fun server : Server σ => server.become id task :=
  unreading_of_rest fun _ _ => rfl

theorem unreading_finish (id : TaskId) : Unreading fun server : Server σ => server.finish id :=
  unreading_of_rest fun _ _ => rfl

theorem unreading_registry (registry : Registry) :
    Unreading fun server : Server σ => { server with registry } :=
  unreading_of_rest fun _ _ => rfl

theorem unreading_world (world : World σ) :
    Unreading fun server : Server σ => { server with world } :=
  unreading_of_rest fun _ _ => rfl

theorem unreading_markClosed (id : ConnectionId) :
    Unreading fun server : Server σ => server.markClosed id := by
  have rest :
      Unreading fun server : Server σ => { server with live := server.live.filter (· ≠ id) } :=
    unreading_of_rest fun _ _ => rfl
  exact (unreading_adjust blind_markClosed id).comp rest

theorem unreading_foldl {α : Type} {step : Server σ → α → Server σ}
    (each : ∀ item, Unreading fun server => step server item) (items : List α) :
    Unreading fun server => items.foldl step server := by
  induction items with
  | nil => exact unreading_id
  | cons item rest ih => exact (each item).comp ih

section Alike

variable {server : Server σ} {other : Connections} (alike : Alike server.connections other)
include alike

theorem phase?_alike (id : ConnectionId) :
    (server.withConnections other).phase? id = server.phase? id :=
  alike.view id fun _ => rfl

theorem sinkState_alike : (server.withConnections other).sinkState = server.sinkState := by
  have asked : ∀ (server : Server σ) (sink : SinkId), server.sinkState sink =
      (((server.connection? ⟨sink.number⟩).map (·.acceptsEvents)).map fun accepts =>
        if accepts then SinkState.accepting else .refusing).getD .gone := by
    intro server sink
    unfold sinkState
    cases server.connection? ⟨sink.number⟩ <;> rfl
  funext sink
  have accepts : ((server.withConnections other).connection? ⟨sink.number⟩).map (·.acceptsEvents) =
      (server.connection? ⟨sink.number⟩).map (·.acceptsEvents) := alike.view _ fun _ => rfl
  rw [asked, asked, accepts]

end Alike

/-- A step that depends on a connection's phase does not read what was queued either. -/
theorem unreading_ite {held otherwise : Server σ → Server σ} (id : ConnectionId)
    (phase : Option Phase) (first : Unreading held) (second : Unreading otherwise) :
    Unreading fun server => if server.phase? id = phase then held server else otherwise server := by
  intro server other alike
  dsimp only
  rw [phase?_alike alike]
  split
  · exact first server other alike
  · exact second server other alike

theorem unreading_close (id : ConnectionId) :
    Unreading fun server : Server σ => (server.close id).2 := by
  intro server other alike
  dsimp only
  unfold close
  rw [phase?_alike alike]
  split
  · exact unreading_id server other alike
  · exact ((unreading_beginClosing id).comp (unreading_spawn (.purge id))) server other alike

theorem unreading_handle (id : ConnectionId) (message : ClientMessage) :
    Unreading fun server : Server σ => (server.handle id message).2 := by
  cases message with
  | connectionInit payload => exact unreading_send id .connectionAck
  | ping => exact unreading_send id .pong
  | pong => exact unreading_id
  | connectionTerminate => exact unreading_close id
  | stop name => exact unreading_spawn (.unregister id name)
  | start name request =>
    intro server other alike
    have schema : (server.withConnections other).engine.schema = server.engine.schema := rfl
    unfold handle startOperation
    dsimp only
    rw [phase?_alike alike, schema]
    split
    · exact unreading_send id _ server other alike
    · split
      · exact unreading_send id _ server other alike
      · exact unreading_spawn _ server other alike

theorem unreading_publish (event : Event) :
    Unreading fun server : Server σ => (server.publish event).2 := by
  intro server other alike
  have published :
      (server.withConnections other).registry.publish (server.withConnections other).engine
          (server.withConnections other).sinkState event (server.withConnections other).world =
        server.registry.publish server.engine server.sinkState event server.world := by
    rw [sinkState_alike alike]
    rfl
  dsimp only
  unfold publish
  rw [published]
  rcases server.registry.publish server.engine server.sinkState event server.world with
    ⟨deliveries, world⟩
  have each := unreading_foldl (fun delivery : Delivery =>
    unreading_deliver (σ := σ) ⟨delivery.sink.number⟩ delivery.message) deliveries
  exact ((unreading_world world).comp each) server other alike

theorem unreading_pump : Unreading fun server : Server σ => server.pump := by
  intro server other alike
  have world : (server.withConnections other).world = server.world := rfl
  unfold pump
  dsimp only
  rw [world]
  split
  · rename_i event channel _
    have next : Unreading fun server : Server σ => { server with world.channel := channel } :=
      unreading_of_rest fun _ _ => rfl
    exact (next.comp (unreading_publish event)) server other alike
  · exact unreading_id server other alike

theorem unreading_submit (request : Request) :
    Unreading fun server : Server σ => (server.submit request).2 := by
  intro server other alike
  have draining : (server.withConnections other).draining = server.draining := rfl
  have schema : (server.withConnections other).engine.schema = server.engine.schema := rfl
  unfold submit
  dsimp only
  rw [draining, schema]
  split
  · exact unreading_id server other alike
  · split
    · exact unreading_id server other alike
    · split
      · exact unreading_id server other alike
      · exact unreading_spawn _ server other alike

theorem unreading_beginDrain : Unreading fun server : Server σ => server.beginDrain.2 := by
  intro server other alike
  have drain : Unreading fun server : Server σ => { server with draining := true } :=
    unreading_of_rest fun _ _ => rfl
  have each := unreading_foldl (fun id => unreading_beginClosing (σ := σ) id) server.live
  have spawn := unreading_spawn (σ := σ) (.drain server.live (server.now + server.drainTimeout))
  exact ((drain.comp each).comp spawn) server other alike

theorem unreading_resumeJob (task : TaskId) (job : Job) (waiting : Job → Task)
    {finished : Response → Server σ → Server σ} (each : ∀ response, Unreading (finished response)) :
    Unreading fun server => server.resumeJob task job waiting finished := by
  intro server other alike
  have resumed :
      job.resume (server.withConnections other).engine (server.withConnections other).gates
          (server.withConnections other).world =
        job.resume server.engine server.gates server.world := rfl
  unfold resumeJob
  dsimp only
  rw [resumed]
  rcases job.resume server.engine server.gates server.world with ⟨outcome, gates, world⟩
  have changed : ∀ gates, Unreading fun server : Server σ => { server with world, gates } :=
    fun gates => unreading_of_rest fun _ _ => rfl
  cases outcome with
  | waiting gate remaining run =>
    exact ((changed _).comp (unreading_become task (waiting (.running remaining run false)))) server
      other alike
  | finished response => exact ((changed gates).comp (each response)) server other alike

theorem unreading_purge (id : ConnectionId) :
    Unreading fun server : Server σ => server.purge id := by
  have registry :
      Unreading fun server : Server σ => { server with registry := (server.registry.purge id).2 } :=
    unreading_of_rest fun _ _ => rfl
  exact registry.comp (unreading_ite id (some .closed) unreading_id (unreading_markClosed id))

theorem unreading_registerSubscription (task : TaskId) (id : ConnectionId) (name : String)
    (operation : Operation) :
    Unreading fun server : Server σ => server.registerSubscription task id name operation := by
  intro server other alike
  have registered : (server.withConnections other).registry.register id (sinkOf id) name operation =
      server.registry.register id (sinkOf id) name operation := rfl
  unfold registerSubscription
  dsimp only
  rw [registered]
  rcases server.registry.register id (sinkOf id) name operation with ⟨result, after⟩
  have registry := unreading_registry (σ := σ) after
  cases result with
  | error error =>
    exact (registry.comp ((unreading_send id _).comp (unreading_finish task))) server other alike
  | ok registration =>
    have withdraw := unreading_become (σ := σ) task (.withdraw id name registration.id)
    exact (registry.comp (unreading_ite id (some .open) (unreading_finish task) withdraw)) server
      other alike

theorem unreading_withdraw (id : ConnectionId) (name : String) (registration : RegistrationId) :
    Unreading fun server : Server σ => server.withdraw id name registration := by
  intro server other alike
  have unregistered : (server.withConnections other).registry.unregister registration =
      server.registry.unregister registration := rfl
  unfold withdraw
  dsimp only
  rw [unregistered]
  rcases server.registry.unregister registration with ⟨removed, after⟩
  dsimp only
  split
  · exact ((unreading_registry after).comp (unreading_send id _)) server other alike
  · exact unreading_registry after server other alike

theorem unreading_completeConnection (id : ConnectionId) :
    Unreading fun server : Server σ => (server.completeConnection id).2 := by
  intro server other alike
  have purged : (server.withConnections other).registry.purge id = server.registry.purge id := rfl
  unfold completeConnection
  dsimp only
  rw [purged]
  rcases server.registry.purge id with ⟨names, after⟩
  have each := unreading_foldl (fun name => unreading_send (σ := σ) id (.complete name)) names
  exact (((unreading_registry after).comp each).comp (unreading_markClosed id)) server other alike

theorem unreading_advance (task : TaskId) :
    Unreading fun server : Server σ => server.advance task := by
  intro server other alike
  have tasks : (server.withConnections other).tasks = server.tasks := rfl
  have nothing := unreading_id server other alike
  unfold advance
  dsimp only
  rw [tasks]
  cases Ordered.get? server.tasks task with
  | none => exact nothing
  | some kind =>
    cases kind with
    | purge id => exact ((unreading_purge id).comp (unreading_finish task)) server other alike
    | register id name operation =>
      exact unreading_registerSubscription task id name operation server other alike
    | withdraw id name registration =>
      exact ((unreading_withdraw id name registration).comp (unreading_finish task)) server other
        alike
    | unregister id name =>
      have registry : Unreading fun server : Server σ =>
          { server with registry := (server.registry.unregisterOperation id name).2 } :=
        unreading_of_rest fun _ _ => rfl
      exact (registry.comp (unreading_finish task)) server other alike
    | query id name job =>
      dsimp only
      split
      · exact nothing
      · apply unreading_resumeJob task job (.query id name) _ server other alike
        intro response
        exact ((unreading_send id _).comp (unreading_send id _)).comp (unreading_finish task)
    | request job =>
      dsimp only
      split
      · exact nothing
      · exact unreading_resumeJob task job .request (fun response => unreading_become task _) server
          other alike
    | answered | drained => exact nothing
    | drain connections deadline =>
      have running : (server.withConnections other).hasRunning connections =
          server.hasRunning connections := rfl
      have now : (server.withConnections other).now = server.now := rfl
      dsimp only
      rw [running, now]
      split
      · exact nothing
      · exact unreading_become task _ server other alike
    | complete remaining report =>
      cases remaining with
      | nil => exact unreading_become task _ server other alike
      | cons id rest =>
        have count : ((server.withConnections other).completeConnection id).1 =
            (server.completeConnection id).1 := rfl
        dsimp only
        rw [count]
        exact ((unreading_completeConnection id).comp (unreading_become task _)) server other alike

theorem Housed.fresh {server : Server σ} (housed : Housed server) :
    server.connection? ⟨server.connections.length + 1⟩ = none := by
  cases found : server.connection? ⟨server.connections.length + 1⟩ with
  | none => rfl
  | some connection =>
    have known :=
      housed.opened ⟨server.connections.length + 1⟩ connection.phase (by rw [phase?, found]; rfl)
    dsimp only at known
    omega

theorem unreading_act {server : Server σ} {other : Connections} (housed : Housed server)
    (alike : Alike server.connections other) (action : Action) :
    ∃ after, (server.withConnections other).act action = (server.act action).withConnections after ∧
      Echoes server.connections other (server.act action).connections after := by
  cases action with
  | openConnection =>
    have draining : (server.withConnections other).draining = server.draining := rfl
    unfold act openConnection
    dsimp only
    rw [draining]
    split
    · exact unreading_id server other alike
    · -- A new connection is numbered by how many there are.
      have count : (server.withConnections other).connections.length = server.connections.length :=
        alike.length_eq.symm
      rw [count]
      exact ⟨_, rfl, .insert alike housed.fresh rfl⟩
  | handle id message => exact unreading_handle id message server other alike
  | close id => exact unreading_close id server other alike
  | publish event => exact unreading_publish event server other alike
  | pump => exact unreading_pump server other alike
  | submit request => exact unreading_submit request server other alike
  | beginDrain => exact unreading_beginDrain server other alike
  | advance task => exact unreading_advance task server other alike
  | release gate count =>
    have rest : Unreading fun server : Server σ => (server.release gate count).2 :=
      unreading_of_rest fun _ _ => rfl
    exact rest server other alike
  | reload schema =>
    have rest : Unreading fun server : Server σ => server.act (.reload schema) := by
      apply unreading_of_rest
      intro server connections
      have engine : (server.withConnections connections).engine = server.engine := rfl
      rw [act, act, Server.reload, Server.reload, engine]
      cases server.engine.reload schema <;> rfl
    exact rest server other alike
  | wait milliseconds =>
    have rest :
        Unreading fun server : Server σ => { server with now := server.now + milliseconds } :=
      unreading_of_rest fun _ _ => rfl
    exact rest server other alike

theorem log_alike {server : Server σ} {other : Connections} (housed : Housed server)
    (alike : Alike server.connections other) (actions : List Action) (connection : ConnectionId) :
    log connection (server.withConnections other) actions = log connection server actions := by
  induction actions generalizing server other with
  | nil => rfl
  | cons action rest ih =>
    obtain ⟨after, stepped, echoes⟩ := unreading_act housed alike action
    obtain ⟨messages, first, second⟩ := echoes.same connection
    have later := ih (housed.act action) echoes.alike
    have queued : ((server.act action).withConnections after).outbox connection =
      (server.withConnections other).outbox connection ++ messages := second
    have queuedHere : (server.act action).outbox connection =
        server.outbox connection ++ messages := first
    rw [log, log, stepped, later, queued, queuedHere, List.drop_left, List.drop_left]

end Server

end MockGraph
