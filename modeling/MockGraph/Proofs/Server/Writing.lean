import MockGraph.Proofs.Server.Lifecycle
import MockGraph.Proofs.Server.Silence
import MockGraph.Proofs.Wire.Decoding
import MockGraph.Proofs.Wire.Unambiguous
import MockGraph.Server.Socket
set_option autoImplicit false

namespace MockGraph

namespace Protocol

variable {protocol : Protocol}

theorem eq_of_decode?_ping {text : String} (decoded : protocol.decode? text = some .ping) :
    protocol = .graphqlTransportWs := by
  obtain ⟨word, known⟩ := exists_clientKind?_of_decode? decoded
  unfold clientKind? at known
  split at known <;> first | rfl | cases known

/-- A message that has words in a protocol, and others than a keep-alive. -/
def Utters (protocol : Protocol) (message : ServerMessage) : Prop :=
  ∃ text, protocol.encode? message = some text ∧ protocol.encode? .keepAlive ≠ some text

theorem utters_of_toJson? {message : ServerMessage} (known : protocol.toJson? message ≠ none)
    (other : message ≠ .keepAlive) : protocol.Utters message := by
  obtain ⟨value, written⟩ := Option.ne_none_iff_exists'.mp known
  have encoded : protocol.encode? message = some value.text := by
    rw [encode?, written, Option.map_some]
  refine ⟨value.text, encoded, fun alive => other ?_⟩
  obtain ⟨_, one, two⟩ := toJson?_of_encode? encoded alive nofun
  exact eq_of_toJson? one two

end Protocol

namespace Server

variable {σ : Type} {protocol : Protocol} {connection : ConnectionId}

/-- What the server queues for a client of a protocol is in words of that protocol. -/
theorem Source.utters {before after : Server σ} {action : Action} {messages : List ServerMessage}
    (source : Source connection before after action messages)
    (pings : action = .handle connection .ping → protocol = .graphqlTransportWs) :
    ∀ message ∈ messages, protocol.Utters message := by
  have result (id : String) (response : Response) : protocol.Utters (.next id response) :=
    Protocol.utters_of_toJson? (by cases protocol <;> nofun) nofun
  have complete (id : String) : protocol.Utters (.complete id) :=
    Protocol.utters_of_toJson? nofun nofun
  intro message member
  cases source with
  | replies reply =>
    cases reply message member with
    | ack => exact Protocol.utters_of_toJson? nofun nofun
    | refusal => exact Protocol.utters_of_toJson? nofun nofun
    | pong =>
      rw [pings rfl]
      exact Protocol.utters_of_toJson? nofun nofun
  | @result _ id _ response _ _ _ part =>
    rcases List.mem_cons.mp (part.mem member) with rfl | last
    · exact result id response
    · rw [List.mem_singleton.mp last]
      exact complete id
  | events sent =>
    obtain ⟨-, registration, -, -, response, rfl⟩ := sent message member
    exact result registration.operationId response
  | drain sent =>
    obtain ⟨-, id, rfl⟩ := sent message member
    exact complete id

/-- Messages and closing, but neither keep-alives nor answers to pings of the transport. -/
def Frame.isContent (protocol : Protocol) : Frame → Bool
  | .text words => protocol.encode? .keepAlive ≠ some words
  | .pong _ => false
  | .close _ => true

namespace Writer

variable {writer : Writer} {message : ServerMessage} {messages outbox : List ServerMessage}

/-- What was written besides keep-alives and answers to pings. -/
def contents (writer : Writer) : List Frame :=
  writer.written.filter (Frame.isContent writer.protocol)

def frames (protocol : Protocol) (messages : List ServerMessage) : List Frame :=
  (messages.filterMap protocol.encode?).map .text

theorem write_protocol (writer : Writer) (message : ServerMessage) :
    (writer.write message).protocol = writer.protocol := by
  unfold write
  split <;> rfl

theorem write_taken (writer : Writer) (message : ServerMessage) :
    (writer.write message).taken = writer.taken := by
  unfold write
  split <;> rfl

theorem write_finished (writer : Writer) (message : ServerMessage) :
    (writer.write message).finished = writer.finished := by
  unfold write
  split <;> rfl

/-- A message that the protocol has words for is written in one frame. -/
theorem contents_write (writer : Writer) (utters : writer.protocol.Utters message) :
    (writer.write message).contents = writer.contents ++ frames writer.protocol [message] := by
  obtain ⟨text, encoded, other⟩ := utters
  simp [contents, write, encoded, frames, Frame.isContent, other]

theorem contents_keepAlive (writer : Writer) :
    (writer.write .keepAlive).contents = writer.contents := by
  unfold contents
  rw [write_protocol]
  unfold write
  split
  · rename_i text encoded
    simp [Frame.isContent, encoded]
  · rfl

theorem frames_append (protocol : Protocol) (front back : List ServerMessage) :
    frames protocol (front ++ back) = frames protocol front ++ frames protocol back := by
  simp [frames]

theorem map_filterMap (utters : ∀ message ∈ messages, protocol.Utters message) :
    messages.map protocol.encode? = (messages.filterMap protocol.encode?).map some := by
  induction messages with
  | nil => rfl
  | cons message messages ih =>
    obtain ⟨text, encoded, -⟩ := utters message List.mem_cons_self
    rw [List.map_cons, ih fun other later => utters other (List.mem_cons_of_mem _ later),
      List.filterMap_cons_some encoded, List.map_cons, encoded]

theorem turn_closed (writer : Writer) (outbox : List ServerMessage) :
    (writer.turn outbox .closed).finished = true := by
  unfold turn
  split
  · assumption
  · rfl

theorem foldl_write (writer : Writer)
    (utters : ∀ message ∈ messages, writer.protocol.Utters message) :
    (messages.foldl write writer).contents = writer.contents ++ frames writer.protocol messages ∧
      (messages.foldl write writer).protocol = writer.protocol ∧
      (messages.foldl write writer).taken = writer.taken := by
  induction messages generalizing writer with
  | nil => simp [frames]
  | cons message messages ih =>
    have same := writer.write_protocol message
    obtain ⟨contents, protocol, taken⟩ := ih (writer.write message) (by
      rw [same]
      exact fun other later => utters other (List.mem_cons_of_mem _ later))
    rw [List.foldl_cons, contents, protocol, taken, same, write_taken,
      contents_write writer (utters _ List.mem_cons_self), List.append_assoc, ← frames_append]
    exact ⟨rfl, rfl, rfl⟩

theorem turn_finished {wake : Wake} (other : wake ≠ .closed) :
    (writer.turn outbox wake).finished = writer.finished := by
  unfold turn
  split
  · rfl
  cases wake with
  | message =>
    dsimp only
    unfold receive
    split
    · exact write_finished _ _
    · rfl
  | tick => exact write_finished _ _
  | closed => exact absurd rfl other

/-- How far a writer came with the messages of its connection, and that nothing follows the frame
that closes. -/
structure Kept (protocol : Protocol) (outbox : List ServerMessage) (writer : Writer) : Prop where
  speaks : writer.protocol = protocol
  taken : writer.taken ≤ outbox.length
  contents : writer.contents =
    frames protocol (outbox.take writer.taken) ++ if writer.finished then [.close none] else []
  ended : writer.finished = true →
      writer.taken = outbox.length ∧ writer.written.getLast? = some (.close none)

theorem kept_new (protocol : Protocol) : Kept protocol [] (new protocol) :=
  ⟨rfl, Nat.le_refl 0, rfl, nofun⟩

/-- More messages are no matter, as long as the writer is not finished. -/
theorem Kept.queues (kept : Kept protocol outbox writer) (messages : List ServerMessage)
    (more : writer.finished = true → messages = []) :
    Kept protocol (outbox ++ messages) writer := by
  refine ⟨kept.speaks, ?_, ?_, ?_⟩
  · have := kept.taken
    rw [List.length_append]
    omega
  · rw [kept.contents, List.take_append_of_le_length kept.taken]
  · intro finished
    rw [more finished, List.append_nil]
    exact kept.ended finished

theorem Kept.pong (kept : Kept protocol outbox writer) (payload : String) :
    Kept protocol outbox (writer.pong payload) := by
  unfold Writer.pong
  split
  · exact kept
  · rename_i running
    refine ⟨kept.speaks, kept.taken, ?_, fun finished => absurd finished running⟩
    rw [← kept.contents]
    simp [Writer.contents, Frame.isContent]

/-- A turn goes on with the messages, whatever the writer waited for. -/
theorem Kept.turn (kept : Kept protocol outbox writer)
    (utters : ∀ message ∈ outbox, protocol.Utters message) (wake : Wake) :
    Kept protocol outbox (writer.turn outbox wake) := by
  unfold Writer.turn
  split
  · exact kept
  rename_i running
  have contents := kept.contents
  rw [if_neg running, List.append_nil] at contents
  obtain ⟨rfl, taken, -, -⟩ := kept
  cases wake with
  | message =>
    dsimp only
    unfold receive
    split
    · rename_i message next
      obtain ⟨within, here⟩ := List.getElem?_eq_some_iff.mp next
      have written := contents_write { writer with taken := writer.taken + 1 }
        (utters message (here ▸ List.getElem_mem within))
      refine ⟨write_protocol _ _, ?_, ?_, ?_⟩
      · rw [write_taken]
        exact within
      · rw [written, write_taken, write_finished, if_neg running, List.append_nil,
          List.take_add_one, next, frames_append]
        exact congrArg (· ++ frames writer.protocol [message]) contents
      · rw [write_finished]
        exact fun finished => absurd finished running
    · refine ⟨rfl, taken, ?_, fun finished => absurd finished running⟩
      rw [if_neg running, List.append_nil, contents]
  | tick =>
    refine ⟨write_protocol _ _, ?_, ?_, ?_⟩
    · rw [write_taken]
      exact taken
    · rw [contents_keepAlive, write_taken, write_finished, if_neg running, List.append_nil,
        contents]
    · rw [write_finished]
      exact fun finished => absurd finished running
  | closed =>
    obtain ⟨flushed, speaks, all⟩ :=
      foldl_write { writer with taken := max writer.taken outbox.length } fun message member =>
        utters message (List.mem_of_mem_drop member)
    replace all : (writer.flush outbox).taken = outbox.length := all.trans (Nat.max_eq_right taken)
    refine ⟨speaks, Nat.le_of_eq all, ?_, fun _ => ⟨all, List.getLast?_concat⟩⟩
    calc (writer.flush outbox).written ++ [Frame.close none] |>.filter
          (Frame.isContent (writer.flush outbox).protocol)
      _ = (writer.flush outbox).contents ++ [Frame.close none] := by
        simp [Writer.contents, Frame.isContent]
      _ = frames writer.protocol (outbox.take writer.taken) ++
            frames writer.protocol (outbox.drop writer.taken) ++ [Frame.close none] :=
        congrArg (· ++ [Frame.close none]) (flushed.trans (congrArg (· ++ _) contents))
      _ = frames writer.protocol (outbox.take (writer.flush outbox).taken) ++
            [Frame.close none] := by
        rw [← frames_append, List.take_append_drop, all, List.take_length]

end Writer

/-- What comes next: an action of the server, or a turn of the writer or an answer to a ping of the
transport. -/
inductive LinkStep where
  | act (action : Action)
  | turn (wake : Writer.Wake)
  | ping (payload : String)

/-- The server together with the writer of one connection. -/
structure Link (σ : Type) where
  server : Server σ
  writer : Writer

namespace Link

/-- The writer is told that its connection is closed only once that is so. -/
def step (connection : ConnectionId) (link : Link σ) : LinkStep → Link σ
  | .act action => { link with server := link.server.act action }
  | .turn .closed =>
    if (link.server.connection? connection).map (·.cancelled) = some true then
      { link with writer := link.writer.turn (link.server.outbox connection) .closed }
    else link
  | .turn wake => { link with writer := link.writer.turn (link.server.outbox connection) wake }
  | .ping payload => { link with writer := link.writer.pong payload }

def run (connection : ConnectionId) (link : Link σ) (steps : List LinkStep) : Link σ :=
  steps.foldl (step connection) link

theorem run_append (connection : ConnectionId) (link : Link σ) (front back : List LinkStep) :
    link.run connection (front ++ back) = (link.run connection front).run connection back :=
  List.foldl_append

theorem run_cons (connection : ConnectionId) (link : Link σ) (step : LinkStep)
    (rest : List LinkStep) :
    link.run connection (step :: rest) = (link.step connection step).run connection rest := rfl

end Link

/-- What holds between any two steps: the writer keeps up with messages that it has words for, and
is only finished when there will be no more of them. -/
structure Served (protocol : Protocol) (connection : ConnectionId) (link : Link σ) : Prop where
  housed : Housed link.server
  told : ∀ id, (link.server.connection? id).map (·.cancelled) =
    (link.server.phase? id).map fun phase => decide (phase = .closed)
  utters : ∀ message ∈ link.server.outbox connection, protocol.Utters message
  kept : Writer.Kept protocol (link.server.outbox connection) link.writer
  finished : link.writer.finished = true → link.server.phase? connection = some .closed

theorem served_start (protocol : Protocol) (connection : ConnectionId) (engine : Engine σ)
    (world : World σ) (drainTimeout : Nat) :
    Served protocol connection ⟨start engine world drainTimeout, .new protocol⟩ :=
  have tended := tended_start engine world drainTimeout
  ⟨tended.housed, tended.told, nofun, Writer.kept_new protocol, nofun⟩

theorem Served.act {link : Link σ} (served : Served protocol connection link) (action : Action)
    (pings : action = .handle connection .ping → protocol = .graphqlTransportWs) :
    Served protocol connection { link with server := link.server.act action } := by
  obtain ⟨messages, queues, source⟩ := sends_act served.housed action connection
  have kept := served.kept.queues messages fun finished => queues.closed (served.finished finished)
  rw [← queues.outbox] at kept
  refine ⟨served.housed.act action, (moves_act link.server action).told served.told, ?_, kept,
    fun finished => closed_act served.housed action (served.finished finished)⟩
  rw [queues.outbox]
  intro message member
  rcases List.mem_append.mp member with old | new
  · exact served.utters message old
  · exact source.utters pings message new

theorem Served.turn {link : Link σ} (served : Served protocol connection link) (wake : Writer.Wake)
    (closed : wake = .closed → link.server.phase? connection = some .closed) :
    Served protocol connection
      { link with writer := link.writer.turn (link.server.outbox connection) wake } := by
  refine ⟨served.housed, served.told, served.utters, served.kept.turn served.utters wake,
    fun finished => ?_⟩
  by_cases closing : wake = .closed
  · exact closed closing
  · rw [Writer.turn_finished closing] at finished
    exact served.finished finished

theorem Served.step {link : Link σ} (served : Served protocol connection link) (step : LinkStep)
    (pings : step = .act (.handle connection .ping) → protocol = .graphqlTransportWs) :
    Served protocol connection (link.step connection step) := by
  cases step with
  | act action => exact served.act action fun same => pings (congrArg _ same)
  | ping payload =>
    refine ⟨served.housed, served.told, served.utters, served.kept.pong payload,
      fun finished => served.finished ?_⟩
    unfold Link.step Writer.pong at finished
    dsimp only at finished
    split at finished <;> exact finished
  | turn wake =>
    cases wake with
    | message | tick => exact served.turn _ nofun
    | closed =>
      unfold Link.step
      dsimp only
      split
      · rename_i cancelled
        refine served.turn _ fun _ => ?_
        rw [served.told] at cancelled
        obtain ⟨phase, found, closed⟩ := Option.map_eq_some_iff.mp cancelled
        rw [found, of_decide_eq_true closed]
      · exact served

theorem Served.run {link : Link σ} (served : Served protocol connection link)
    (steps : List LinkStep)
    (pings : .act (.handle connection .ping) ∈ steps → protocol = .graphqlTransportWs) :
    Served protocol connection (link.run connection steps) := by
  induction steps generalizing link with
  | nil => exact served
  | cons step steps ih =>
    refine ih (served.step step fun same => pings ?_) fun member =>
      pings (List.mem_cons_of_mem _ member)
    rw [same]
    exact List.mem_cons_self

/-- Once the writer of a connection has ended, it has written every message that was ever queued
there: each as one frame, in order and with nothing between them but keep-alives, and at last one
frame that closes. It ends when it is told that its connection is closed. -/
theorem writer_loses_nothing (engine : Engine σ) (world : World σ) (drainTimeout : Nat)
    (protocol : Protocol) (connection : ConnectionId) (steps : List LinkStep)
    (decoded : ∀ message, .act (.handle connection message) ∈ steps →
      ∃ text, protocol.decode? text = some message) :
    let link := Link.run connection ⟨start engine world drainTimeout, .new protocol⟩ steps
    (∀ message ∈ link.server.outbox connection, protocol.Utters message) ∧
      (protocol = .graphqlWs → .pong ∉ link.server.outbox connection) ∧
      (link.writer.finished = true → ∃ texts : List String,
        (link.server.outbox connection).map protocol.encode? = texts.map some ∧
        link.writer.contents = texts.map .text ++ [.close none] ∧
        link.writer.written.getLast? = some (.close none)) ∧
      (link.server.phase? connection = some .closed →
        (link.step connection (.turn .closed)).writer.finished = true) := by
  intro link
  have served : Served protocol connection link :=
    (served_start protocol connection engine world drainTimeout).run steps fun member => by
      obtain ⟨text, decoded⟩ := decoded .ping member
      exact Protocol.eq_of_decode?_ping decoded
  refine ⟨served.utters, ?_, ?_, ?_⟩
  · rintro rfl member
    obtain ⟨text, encoded, -⟩ := served.utters .pong member
    cases encoded
  · intro finished
    obtain ⟨taken, last⟩ := served.kept.ended finished
    have contents := served.kept.contents
    rw [taken, List.take_length, if_pos finished] at contents
    exact ⟨(link.server.outbox connection).filterMap protocol.encode?,
      Writer.map_filterMap served.utters, contents, last⟩
  · intro closed
    have cancelled : (link.server.connection? connection).map (·.cancelled) = some true := by
      rw [served.told, closed]
      rfl
    rw [Link.step, if_pos cancelled]
    exact Writer.turn_closed _ _

end Server

namespace Chairlift

open Server

/-- A drain closes the connection of a client before the writer has had a turn for what is
queued. -/
def emptying : List LinkStep :=
  [.act (.advance ⟨0⟩), .turn .tick, .act .beginDrain, .act (.advance ⟨1⟩), .act (.advance ⟨1⟩),
    .turn .closed]

def emptied : List LinkStep :=
  [.act .openConnection, .act .openConnection] ++ .act (.handle ⟨1⟩ (.start "mine" watch)) ::
    emptying

theorem decoded_watch :
    Protocol.graphqlTransportWs.decode?
      (Protocol.tagged "subscribe" [("id", .string "mine"), ("payload", watch.toJson)]).text =
        some (.start "mine" watch) := by
  rw [Protocol.decode?, Json.read_text]
  rfl

theorem run_emptied : Link.run ⟨1⟩ ⟨start engine world 1000, .new .graphqlTransportWs⟩ emptied =
    Link.run ⟨1⟩ ⟨watched, .new .graphqlTransportWs⟩ emptying := by
  have both : Link.run ⟨1⟩ ⟨start engine world 1000, .new .graphqlTransportWs⟩
      [.act .openConnection, .act .openConnection] = ⟨opened, .new .graphqlTransportWs⟩ := rfl
  have first : opened.act (.handle ⟨1⟩ (.start "mine" watch)) = watched :=
    handled_watch rfl rfl "mine"
  rw [emptied, Link.run_append, both, Link.run_cons, Link.step, first]

/-- The client is still told that its operation is complete. -/
theorem writer_loses_nothing_emptied :
    (Link.run ⟨1⟩ ⟨start engine world 1000, .new .graphqlTransportWs⟩ emptied).server.outbox ⟨1⟩ =
        [.complete "mine"] ∧
      ∃ text, Protocol.graphqlTransportWs.encode? (.complete "mine") = some text ∧
        (Link.run ⟨1⟩ ⟨start engine world 1000, .new .graphqlTransportWs⟩ emptied).writer.contents =
          [.text text, .close none] := by
  have decoded : ∀ message, .act (.handle ⟨1⟩ message) ∈ emptied →
      ∃ text, Protocol.graphqlTransportWs.decode? text = some message := by
    intro message member
    have same : message = .start "mine" watch := by simpa [emptied, emptying] using member
    rw [same]
    exact ⟨_, decoded_watch⟩
  have written :=
    (writer_loses_nothing engine world 1000 .graphqlTransportWs ⟨1⟩ emptied decoded).2.2.1
  rw [run_emptied] at written ⊢
  have queued : (Link.run ⟨1⟩ ⟨watched, .new .graphqlTransportWs⟩ emptying).server.outbox ⟨1⟩ =
      [.complete "mine"] := rfl
  have finished : (Link.run ⟨1⟩ ⟨watched, .new .graphqlTransportWs⟩ emptying).writer.finished =
      true := rfl
  obtain ⟨texts, encoded, contents, -⟩ := written finished
  rw [queued, List.map_cons, List.map_nil] at encoded
  obtain ⟨text, rfl, same⟩ : ∃ text, texts = [text] ∧
      Protocol.graphqlTransportWs.encode? (.complete "mine") = some text := by
    match texts, encoded with
    | [text], encoded => exact ⟨text, rfl, (List.cons.inj encoded).1⟩
  exact ⟨queued, text, same, contents⟩

end Chairlift

end MockGraph
