/-
Module: NetworkExercises.SpeedDaemon.Proofs.Output
Purpose: What the event loop writes to the sockets is whole frames as long as the
  clients keep to the protocol, and what it answers to a violation is not.
Main exports: Framed, Client.Conforms, ClientEffect, handleClient_cases, eventStep_short,
  output_framed, violation_answered
-/
import NetworkExercises.Lib.Framing
import NetworkExercises.SpeedDaemon.Events
import NetworkExercises.SpeedDaemon.Proofs.Automaton
import NetworkExercises.SpeedDaemon.Proofs.DecodeLoop

namespace NetworkExercises.SpeedDaemon

open Lib

/-! ### Frames -/

/-- A message the server sends, with a text or a plate that fits. -/
def Message.IsFrame (message : Message) : Prop := message.IsServer ∧ message.WellFormed

/-- Frames of the server, back to back. -/
def Framed (bytes : Bytes) : Prop := Concatenation Message.wire Message.IsFrame bytes

/-- The length of the frame that the bytes begin with. -/
def frameLength : Bytes → Nat
  | 0x10 :: length :: _ => length.toNat + 2
  | 0x21 :: length :: _ => length.toNat + 18
  | _ => 1

theorem frameLength_wire {frame : Message} (isFrame : frame.IsFrame) (more : Bytes) :
    frameLength (frame.wire ++ more) = frame.wire.length := by
  obtain ⟨server, wellFormed⟩ := isFrame
  cases frame with
  | errorM msg =>
      have length := lengthByte_toNat (show msg.length ≤ 255 from wellFormed)
      simp only [Message.wire, Message.type, MessageType.toByte, List.cons_append,
        frameLength, length, List.length_cons]
  | ticket issued =>
      have length := lengthByte_toNat (show issued.plate.length ≤ 255 from wellFormed)
      simp only [Message.wire, Message.type, MessageType.toByte, List.cons_append,
        frameLength, length, List.length_cons, List.length_append, bigEndian_length]
  | heartbeat => rfl
  | plate | wantHeartbeat | camera | dispatcher => simp [Message.IsServer] at server

/-- A frame ends where its own bytes say. -/
theorem wire_delimited {frame other : Message} {more rest : Bytes} (isFrame : frame.IsFrame)
    (otherIsFrame : other.IsFrame) (same : frame.wire ++ more = other.wire ++ rest) :
    frame.wire = other.wire := by
  have lengths := frameLength_wire isFrame more
  rw [same, frameLength_wire otherIsFrame rest] at lengths
  exact List.append_inj_left same lengths.symm

/-- Behind whole frames, only whole frames make whole frames. -/
theorem Framed.of_append {front back : Bytes} (one : Framed front)
    (whole : Framed (front ++ back)) : Framed back :=
  Concatenation.of_append (fun frame _ => frame.wire_ne_nil)
    (fun _ _ _ _ isFrame otherIsFrame => wire_delimited isFrame otherIsFrame) one whole

/-- Frames begin with the type of a server message. -/
theorem Framed.head {bytes : Bytes} {first : UInt8} (framed : Framed (first :: bytes)) :
    first = 0x10 ∨ first = 0x21 ∨ first = 0x41 := by
  obtain ⟨frames, areFrames, bytesEq⟩ := framed
  cases frames with
  | nil => cases bytesEq
  | cons frame frames =>
      have server := (areFrames frame (by simp)).1
      rw [List.flatMap_cons] at bytesEq
      have head : first = frame.type.toByte := (List.cons.inj bytesEq).1
      rw [head]
      cases frame <;> simp [Message.IsServer] at server <;>
        simp [Message.type, MessageType.toByte]

/-- Every socket has been sent whole frames. -/
def FramedNet (net : Net) : Prop := ∀ fd, Framed (net fd)

variable {net : Net}

theorem FramedNet.update (framed : FramedNet net) (fd : SocketFd) {bytes : Bytes}
    (new : Framed bytes) : FramedNet (Function.update net fd bytes) := by
  intro other
  by_cases same : other = fd
  · rw [same, Function.update_self]
    exact new
  · rw [Function.update_of_ne same]
    exact framed other

/-- Whatever a message for a client is, writing the buffer that only holds its
encoding keeps the sockets framed. -/
theorem FramedNet.write {message : Message} (framed : FramedNet net)
    (server : message.IsServer) {buf : U8BoundedArray}
    (encoded : hostToNetwork message BoundedArray.clear = .ok buf) (fd : SocketFd) :
    FramedNet (Function.update net fd (net fd ++ buf.items)) := by
  by_cases wellFormed : message.WellFormed
  · obtain ⟨written, writtenEq, items⟩ := hostToNetwork_clear server wellFormed
    rw [encoded] at writtenEq
    cases writtenEq
    rw [items]
    exact framed.update fd ((framed fd).append (concatenation_encode ⟨server, wellFormed⟩))
  · obtain ⟨error, failed⟩ := hostToNetwork_long wellFormed server BoundedArray.clear
    rw [encoded] at failed
    cases failed

/-! ### Sending tickets and handling messages -/

/-- A ticket whose write succeeds is sent as a whole frame or not at all. -/
theorem sendTicket_framed {pass final : Pass} {fd : SocketFd} {ticket : Ticket}
    (framed : FramedNet pass.net)
    (reaches : (sendTicket fd (.ticket ticket) .all
      { pass with buf := BoundedArray.clear }).Reaches final) : FramedNet final.net := by
  unfold sendTicket at reaches
  rw [if_neg (by simp [Message.type])] at reaches
  split at reaches
  · rw [Outcome.raised_reaches] at reaches
    rw [reaches]
    exact framed
  · next buf encoded =>
    rw [writeAll, Outcome.map_done, Outcome.done_reaches] at reaches
    rw [reaches]
    exact framed.write rfl encoded fd

variable {F : Type} [F64 F] {session final : Session}

theorem Session.dispatch_framed {sends : Nat → Sending}
    (written : ∀ number, (sends number).written = .all) (framed : FramedNet session.world.net)
    (reaches : (session.dispatch sends).Reaches final) : FramedNet final.world.net := by
  obtain ⟨pass, passed, rfl⟩ := Outcome.map_reaches reaches
  unfold dispatchTicketsQueue at passed
  split at passed
  · rw [Outcome.done_reaches] at passed
    rw [passed]
    exact framed
  · refine dispatchLoop_rule (fun pass => FramedNet pass.net) ?_ ?_ framed passed
    · intro number pass final fd ticket error framed failed
      rw [written] at failed
      exact sendTicket_framed framed (.inr ⟨error, failed⟩)
    · intro number pass middle fd ticket framed _ sent
      rw [written] at sent
      have after : FramedNet middle.net := sendTicket_framed framed (.inl sent)
      exact after

/-- Whatever the messages are, their handling keeps the sockets framed on every exit. -/
theorem handleMessages_framed {arrival : Arrival} {calls : Nat → Calls}
    (written : ∀ i number, ((calls i).sends number).written = .all)
    (framed : FramedNet session.world.net)
    (reaches : (handleMessages F arrival calls session).Reaches final) :
    FramedNet final.world.net := by
  refine handleMessages_rule (fun session => FramedNet session.world.net) ?_ ?_ ?_ framed
    reaches
  · intro session final same _ framed
    rw [same]
    exact framed
  · intro session seen camera cars tickets ntickets _ _ framed
    exact framed
  · intro i session final framed dispatched
    exact Session.dispatch_framed (written i) framed dispatched

/-- The plates in the queue stay short whatever the clients send and however the
handling ends. -/
theorem handleMessages_short {arrival : Arrival} {calls : Nat → Calls}
    (short : session.world.Short)
    (reaches : (handleMessages F arrival calls session).Reaches final) :
    final.world.Short := by
  refine handleMessages_rule (fun session => session.world.Short) ?_ ?_ ?_ short reaches
  · intro session final _ same short
    rw [World.Short, same]
    exact short
  · intro session seen camera cars tickets ntickets wellFormed observed short ticket queued
    rcases observe_queue observed ticket queued with old | new
    · exact short ticket old
    · exact new ▸ wellFormed.2
  · intro i session final short dispatched ticket queued
    obtain ⟨pass, passed, rfl⟩ := Outcome.map_reaches dispatched
    exact short ticket (dispatchTicketsQueue_subset passed queued)

/-! ### Events -/

/-- Every write of an event succeeds. -/
structure Sys.Written (sys : Sys) : Prop where
  heartbeat : sys.heartbeat = .all
  errorWrite : sys.errorWrite = .all
  sends : ∀ i number, ((sys.calls i).sends number).written = .all

/-- A client is removed with a whole error frame, if the buffer is empty before, or
with nothing. -/
theorem removeFd_framed {sys : Sys} {fd : SocketFd} {client : Client} {msg : Option Bytes}
    {buf : U8BoundedArray} {state next : ServerState} (written : sys.errorWrite = .all)
    (quiet : msg = none ∨ buf = BoundedArray.clear) (framed : FramedNet state.world.net)
    (removed : removeFd sys fd client msg buf state = some next) :
    FramedNet next.world.net := by
  obtain ⟨deleted, -, rfl⟩ := Option.map_eq_some_iff.mp removed
  cases msg with
  | none => exact framed
  | some msg =>
      obtain rfl : buf = BoundedArray.clear := quiet.resolve_left (by simp)
      change FramedNet (client.sendErrorMsg (some msg) BoundedArray.clear sys.errorWrite
        state.world.net)
      rw [Client.sendErrorMsg, Client.sendError, written]
      cases encoded : hostToNetwork (.errorM msg) BoundedArray.clear with
      | error error => exact framed
      | ok buf => exact framed.write rfl encoded client.fd

/-- The client of an event keeps to the protocol: reading and decoding give no error
but a closed connection, the automaton accepts every message, and the timers that
the messages want are created. -/
def Client.Conforms (client : Client) (sys : Sys) : Prop :=
  ∀ fifo, client.fifo = some fifo →
    match receive fifo sys.arrival with
    | .failed error _ => error = .clientClosedConnection
    | .messages msgs _ _ =>
        client.proto.accepted msgs = msgs ∧
          ∀ i msg, msgs[i]? = some msg → (sys.calls i).Timed msg
    | .trap => True

/-- An event is not for a client, closes its connection, or finds it keeping to the
protocol. -/
def ServerState.Conforms (serverfd : SocketFd) (state : ServerState) (event : Event) : Prop :=
  ∀ client, event.socket ≠ serverfd → state.timers.map event.socket = none →
    state.clients.map event.socket = some client → event.rdhup = false →
      client.Conforms event.sys

/-- A client keeps to the protocol exactly when the handler returns no error but a
closed connection. -/
theorem handleMessages_conforms_iff {sys : Sys} (written : sys.Written)
    (short : session.world.Short)
    (runs : handleMessages F sys.arrival sys.calls session ≠ .trap) :
    session.client.Conforms sys ↔ ∀ error final,
      handleMessages F sys.arrival sys.calls session = .raised error final →
        error = .clientClosedConnection := by
  unfold handleMessages at runs ⊢
  unfold Client.Conforms
  cases held : session.client.fifo with
  | none => simp [held] at runs
  | some fifo =>
      simp only [held, Option.some.injEq, forall_eq'] at runs ⊢
      cases received : receive fifo sys.arrival with
      | trap => simp [received] at runs
      | failed failure left =>
          constructor
          · rintro closed error final ⟨⟩
            exact closed
          · exact fun only => only failure _ rfl
      | messages msgs len left =>
          simp only [received] at runs ⊢
          have wellFormed : ∀ msg ∈ msgs, msg.WellFormed :=
            fun msg member => (receive_wellFormed received msg member).2
          have stillShort : (session.withFifo left).world.Short := short
          cases looped : handleLoop F sys.calls 0 msgs (session.withFifo left) with
          | trap => simp [looped] at runs
          | done middle =>
              obtain ⟨accepted, timed⟩ :=
                handleLoop_done written.sends wellFormed stillShort looped
              simp only [Nat.zero_add] at timed
              simpa using ⟨accepted, timed⟩
          | raised error middle =>
              have differs := handleLoop_raised written.sends wellFormed stillShort looped
              constructor
              · rintro ⟨accepted, timed⟩
                rcases handleLoop_follows (F := F) (i := 0)
                  (fun j msg found => ⟨written.sends _, by simpa using timed j msg found⟩)
                  wellFormed stillShort with ⟨trapped, -⟩ | ⟨_, -, done, -⟩
                · rw [looped] at trapped
                  cases trapped
                · have := done accepted
                  rw [looped] at this
                  cases this
              · exact fun only => absurd (only error _ rfl) differs

/-! ### One event -/

variable {serverfd : SocketFd} {state next : ServerState} {event : Event}

theorem acceptClient_tickets {sys : Sys} (step : acceptClient sys state = some next) :
    next.world.tickets = state.world.tickets := by
  unfold acceptClient at step
  split at step
  · cases step
    rfl
  simp only at step
  split at step
  · cases step
    rfl
  split at step
  · cases step
  · exact (removeFd_world step).2.1

theorem handleTimer_tickets {timer : Timer}
    (step : handleTimer event timer state = some next) :
    next.world.tickets = state.world.tickets := by
  unfold handleTimer at step
  split at step
  · cases step
    rfl
  simp only at step
  split at step
  · exact (removeFd_world step).2.1
  split at step
  · cases step
  · cases step
    rfl
  · exact (removeFd_world step).2.1

variable (F) in
/-- What an event of a known client leads to: it is removed, or its messages are handled, and it
is removed when there is an error. -/
inductive ClientEffect (event : Event) (client : Client) (state : ServerState) :
    ServerState → Prop where
  | closed (closing : event.rdhup = true) {next : ServerState}
      (removed : removeFd event.sys event.socket client none BoundedArray.clear
        { state with fd := event.socket } = some next) :
      ClientEffect event client state next
  | served (stays : ¬ event.rdhup = true) (session : Session)
      (done : handleMessages F event.sys.arrival event.sys.calls (state.session client) =
        .done session) :
      ClientEffect event client state
        ({ state with fd := event.socket }.afterSession event.socket session)
  | failed (stays : ¬ event.rdhup = true) (error : ServerError) (session : Session)
      (raised : handleMessages F event.sys.arrival event.sys.calls (state.session client) =
        .raised error session)
      (errorMsg : Option Bytes) (buf : U8BoundedArray)
      (silent : error = .clientClosedConnection → errorMsg = none) {next : ServerState}
      (removed : removeFd event.sys event.socket session.client errorMsg buf
        ({ state with fd := event.socket }.afterSession event.socket session) = some next) :
      ClientEffect event client state next

theorem handleClient_cases {client : Client}
    (step : handleClient F event client state = some next) :
    ClientEffect F event client state next := by
  have session : ServerState.session { state with fd := event.socket } client =
    state.session client := rfl
  simp only [handleClient, session] at step
  split at step
  · next closing => exact .closed closing step
  next stays =>
  split at step
  · cases step
  · next session done =>
    cases step
    exact .served stays session done
  · next error session raised =>
    split at step
    · exact .failed stays error session raised none session.buf (fun _ => rfl) step
    · next violation =>
      exact .failed stays error session raised _ _ (fun closed => absurd closed violation) step

/-- Only the handling of a client's messages changes the tickets. -/
theorem eventStep_tickets (step : eventStep F serverfd state event = some next) :
    next.world.tickets = state.world.tickets ∨
      ∃ client session, (handleMessages F event.sys.arrival event.sys.calls
          (state.session client)).Reaches session ∧
        next.world.tickets = session.world.tickets := by
  unfold eventStep at step
  split at step
  · exact .inl (acceptClient_tickets step)
  split at step
  · exact .inl (handleTimer_tickets step)
  split at step
  · cases step
    exact .inl rfl
  next client _ =>
  cases handleClient_cases step with
  | closed _ removed => exact .inl (removeFd_world removed).2.1
  | served _ session done => exact .inr ⟨client, session, .inl done, rfl⟩
  | failed _ error session raised _ _ _ removed =>
      exact .inr ⟨client, session, .inr ⟨error, raised⟩, (removeFd_world removed).2.1⟩

theorem eventStep_short (short : state.world.Short)
    (step : eventStep F serverfd state event = some next) : next.world.Short := by
  rcases eventStep_tickets step with same | ⟨client, session, reaches, same⟩
  · rw [World.Short, same]
    exact short
  · rw [World.Short, same]
    exact handleMessages_short short reaches

theorem acceptClient_framed (written : event.sys.Written) (framed : FramedNet state.world.net)
    (step : acceptClient event.sys state = some next) : FramedNet next.world.net := by
  unfold acceptClient at step
  split at step
  · cases step
    exact framed
  · next clientfd _ =>
    have fresh : FramedNet (Function.update state.world.net clientfd []) :=
      framed.update clientfd concatenation_nil
    simp only at step
    split at step
    · cases step
      exact fresh
    split at step
    · cases step
    · exact removeFd_framed written.errorWrite (.inr rfl) (by exact fresh) step

theorem handleTimer_framed {timer : Timer} (written : event.sys.Written)
    (framed : FramedNet state.world.net)
    (step : handleTimer event timer state = some next) : FramedNet next.world.net := by
  unfold handleTimer at step
  split at step
  · cases step
    exact framed
  · next client _ =>
    simp only at step
    split at step
    · exact removeFd_framed written.errorWrite (.inr rfl) (by exact framed) step
    obtain ⟨buf, encoded, -⟩ :=
      hostToNetwork_clear (by rfl : Message.heartbeat.IsServer) trivial
    rw [Client.sendHeartbeat, encoded, written.heartbeat] at step
    cases step
    exact framed.write rfl encoded client.fd

theorem handleClient_framed {client : Client} (written : event.sys.Written)
    (framed : FramedNet state.world.net) (short : state.world.Short)
    (conforms : event.rdhup = false → client.Conforms event.sys)
    (step : handleClient F event client state = some next) : FramedNet next.world.net := by
  cases handleClient_cases step with
  | closed _ removed =>
      exact removeFd_framed written.errorWrite (.inl rfl) (by exact framed) removed
  | served stays session done =>
      have after := handleMessages_framed written.sends framed (.inl done)
      exact after
  | failed stays error session raised errorMsg buf silent removed =>
      have after := handleMessages_framed written.sends framed (.inr ⟨error, raised⟩)
      have closed : error = .clientClosedConnection :=
        (handleMessages_conforms_iff written short (by simp [raised])).mp
          (conforms (by simpa using stays)) error session raised
      exact removeFd_framed written.errorWrite (.inl (silent closed)) (by exact after) removed

/-- An event on which every write succeeds and the client keeps to the protocol keeps
the sockets framed. -/
theorem eventStep_framed (written : event.sys.Written) (framed : FramedNet state.world.net)
    (short : state.world.Short) (conforms : state.Conforms serverfd event)
    (step : eventStep F serverfd state event = some next) : FramedNet next.world.net := by
  unfold eventStep at step
  split at step
  · exact acceptClient_framed written framed step
  next notServer =>
  split at step
  · exact handleTimer_framed written framed step
  next noTimer =>
  split at step
  · cases step
    exact framed
  · next client found =>
    exact handleClient_framed written framed short
      (conforms client notServer noTimer found) step

/-! ### Whole runs -/

/-- In every run whose writes all succeed and whose clients keep to the protocol, the
bytes written to each socket are whole frames of the server, back to back. -/
theorem output_framed {events : List Event} (written : ∀ event ∈ events, event.sys.Written)
    (conforms : EachStep (ServerState.Conforms serverfd) (eventStep F serverfd) .init events)
    (ran : run (eventStep F serverfd) .init events = some state) :
    ∀ fd, Framed (state.world.net fd) := by
  have initial : FramedNet ServerState.init.world.net ∧ ServerState.init.world.Short :=
    ⟨fun _ => concatenation_nil, nofun⟩
  have both : FramedNet state.world.net ∧ state.world.Short := by
    refine run_preserves_when _ (fun state => FramedNet state.world.net ∧ state.world.Short)
      ?_ initial (conforms.and_forall written) ran
    rintro state event next ⟨framed, short⟩ ⟨conforms, written⟩ step
    exact ⟨eventStep_framed written framed short conforms step, eventStep_short short step⟩
  exact both.1

/-- System calls that give no error, and some bytes from the client. -/
def smoothSys (arrival : Arrival) : Sys where
  accepted := .ok 5
  epollAdd := none
  stale := none
  timerRead := none
  heartbeat := .all
  errorWrite := .all
  timerDel := true
  clientDel := true
  arrival := arrival
  calls := smoothCalls

/-- Nothing has arrived. -/
def nothingArrived : Arrival := ⟨[], .wouldBlock, nofun⟩

/-- The server with one client, which has sent nothing. -/
def connected : ServerState :=
  { ServerState.init with
    world := { World.empty with net := Function.update World.empty.net 5 [] }
    clients := Clients.empty.put 5 (.init 5) }

/-- The client asks for heartbeats. -/
def heartbeatWanted : Event :=
  ⟨5, false, smoothSys ⟨[[0x40, 0, 0, 0, 10]], .wouldBlock, by decide⟩⟩

/-- A client connects, asks for heartbeats, and its timer fires. -/
def heartbeatEvents : List Event :=
  [⟨3, false, smoothSys nothingArrived⟩, heartbeatWanted,
    ⟨9, false, smoothSys nothingArrived⟩]

theorem output_framed_heartbeat :
    ∃ state, run (eventStep ℚ 3) .init heartbeatEvents = some state ∧
      state.world.net 5 = [0x41] ∧ ∀ fd, Framed (state.world.net fd) := by
  have written : ∀ event ∈ heartbeatEvents, event.sys.Written := by
    intro event member
    simp only [heartbeatEvents, List.mem_cons, List.not_mem_nil, or_false] at member
    rcases member with rfl | rfl | rfl <;> exact ⟨rfl, rfl, fun _ _ => rfl⟩
  have conforms : EachStep (ServerState.Conforms 3) (eventStep ℚ 3) .init heartbeatEvents := by
    refine ⟨fun client notServer => absurd rfl notServer, fun next accepted => ?_⟩
    obtain rfl : connected = next := Option.some.inj accepted
    refine ⟨?_, fun next asked => ⟨?_, fun _ _ => trivial⟩⟩
    · intro client _ _ found _ fifo held
      cases found
      cases held
      have received : receive [] heartbeatWanted.sys.arrival =
          .messages [.wantHeartbeat 10] 5 [0x40, 0, 0, 0, 10] := by decide +kernel
      rw [received]
      exact ⟨rfl, fun _ _ _ _ => ⟨⟨9, rfl⟩, rfl⟩⟩
    · intro client _ noTimer
      have timed : (eventStep ℚ 3 connected heartbeatWanted).map
          (fun state => (state.timers.map 9).isSome) = some true := by decide +kernel
      rw [asked, Option.map_some, noTimer] at timed
      cases timed
  have ran : (run (eventStep ℚ 3) .init heartbeatEvents).map (fun state => state.world.net 5) =
      some [0x41] := by decide +kernel
  obtain ⟨state, ranEq, sent⟩ := Option.map_eq_some_iff.mp ran
  exact ⟨state, ranEq, sent, output_framed written conforms ranEq⟩

/-- A client connects and sends an error. -/
def violationEvents : List Event :=
  [⟨3, false, smoothSys nothingArrived⟩,
    ⟨5, false, smoothSys ⟨[[0x10, 0]], .wouldBlock, by decide⟩⟩]

/-- Not every run whose writes succeed sends whole frames only. -/
theorem not_every_output_framed :
    ¬ ∀ (events : List Event) (state : ServerState), (∀ event ∈ events, event.sys.Written) →
      run (eventStep ℚ 3) .init events = some state → ∀ fd, Framed (state.world.net fd) := by
  intro always
  have ran : (run (eventStep ℚ 3) .init violationEvents).map
      (fun state => (state.world.net 5).head?) = some (some 69) := by decide +kernel
  obtain ⟨state, ranEq, letter⟩ := Option.map_eq_some_iff.mp ran
  have written : ∀ event ∈ violationEvents, event.sys.Written := by
    intro event member
    simp only [violationEvents, List.mem_cons, List.not_mem_nil, or_false] at member
    rcases member with rfl | rfl <;> exact ⟨rfl, rfl, fun _ _ => rfl⟩
  have framed := always violationEvents state written ranEq 5
  obtain ⟨more, bytesEq⟩ := List.head?_eq_some_iff.mp letter
  rw [bytesEq] at framed
  have head := framed.head
  simp at head

/-! ### The answer to a violation -/

/-- The text that is formatted for an error of a client. -/
def errorText (fd : SocketFd) (error : ServerError) : Bytes := (errorPieces fd error).flatten

theorem writePieces_fit {buf : U8BoundedArray} {pieces : List Bytes}
    (room : (buf.items ++ pieces.flatten).length ≤ 1024) :
    ∃ result, writePieces buf pieces = (result, true) ∧
      result.items = buf.items ++ pieces.flatten := by
  induction pieces generalizing buf with
  | nil => exact ⟨buf, rfl, by simp⟩
  | cons piece pieces ih =>
      rw [List.flatten_cons, ← List.append_assoc] at room
      have first : (buf.items ++ piece).length ≤ 1024 := by
        rw [List.length_append] at room
        omega
      have appended : buf.appendSlice piece = some ⟨buf.items ++ piece, first⟩ := by simp
      obtain ⟨result, written, items⟩ := @ih ⟨buf.items ++ piece, first⟩ room
      refine ⟨result, by rw [writePieces, appended]; exact written, ?_⟩
      rw [items, List.flatten_cons, List.append_assoc]

/-- The text begins with the letter E. -/
theorem errorText_head (fd : SocketFd) (error : ServerError) :
    ∃ more, errorText fd error = 69 :: more := by
  have letter : (text "Error while handleMessages with client: ").head? = some 69 := by
    decide +kernel
  obtain ⟨more, textEq⟩ := List.head?_eq_some_iff.mp letter
  exact ⟨_, by rw [errorText, errorPieces, List.flatten_cons, textEq, List.cons_append]⟩

/-- The message for the client is the text, and the text stays in the buffer. -/
theorem formatError_fit {fd : SocketFd} {error : ServerError}
    (short : (errorText fd error).length ≤ 255) :
    ∃ buf, formatError fd error = (buf, errorText fd error) ∧
      buf.items = errorText fd error := by
  have room : ((BoundedArray.clear : U8BoundedArray).items ++
      (errorPieces fd error).flatten).length ≤ 1024 := by
    rw [BoundedArray.clear_items, List.nil_append]
    exact short.trans (by decide)
  obtain ⟨buf, written, items⟩ := writePieces_fit room
  rw [BoundedArray.clear_items, List.nil_append] at items
  exact ⟨buf, by simp [formatError, written, items, errorText], items⟩

/-- The client of a violation receives the bare text in front of the error frame. -/
theorem violation_answered {client : Client} {error : ServerError}
    (written : event.sys.errorWrite = .all) (stays : event.rdhup = false)
    (raised : handleMessages F event.sys.arrival event.sys.calls (state.session client) =
      .raised error session)
    (violation : error ≠ .clientClosedConnection)
    (short : (errorText event.socket error).length ≤ 255)
    (step : handleClient F event client state = some next) :
    next.world.net session.client.fd = session.world.net session.client.fd ++
      (errorText event.socket error ++
        (Message.errorM (errorText event.socket error)).wire) := by
  obtain ⟨buf, formatted, items⟩ := formatError_fit short
  have room : (buf.items ++ (Message.errorM (errorText event.socket error)).wire).length ≤
      1024 := by
    simp only [items, Message.wire, List.length_append, List.length_cons]
    omega
  obtain ⟨sent, encoded, sentItems⟩ :=
    hostToNetwork_appends (by rfl : (Message.errorM _).IsServer) short buf room
  unfold handleClient at step
  simp only [stays, ServerState.session] at step
  rw [if_neg (by simp)] at step
  unfold ServerState.session at raised
  simp only [raised, if_neg violation, formatted] at step
  rw [(removeFd_world step).2.2]
  change session.client.sendErrorMsg (some (errorText event.socket error)) buf
    event.sys.errorWrite session.world.net session.client.fd = _
  simp [Client.sendErrorMsg, Client.sendError, encoded, writeAll, written, sentItems, items]

/-- After a violation the bytes of the client are not whole frames. -/
theorem violation_unframed {client : Client} {error : ServerError}
    (written : event.sys.Written) (framed : FramedNet state.world.net)
    (stays : event.rdhup = false)
    (raised : handleMessages F event.sys.arrival event.sys.calls (state.session client) =
      .raised error session)
    (violation : error ≠ .clientClosedConnection)
    (short : (errorText event.socket error).length ≤ 255)
    (step : handleClient F event client state = some next) :
    ¬ Framed (next.world.net session.client.fd) := by
  intro whole
  have before : FramedNet session.world.net :=
    handleMessages_framed written.sends framed (.inr ⟨error, raised⟩)
  rw [violation_answered written.errorWrite stays raised violation short step] at whole
  have answer := (before session.client.fd).of_append whole
  obtain ⟨more, textEq⟩ := errorText_head event.socket error
  rw [textEq, List.cons_append] at answer
  have head := answer.head
  simp at head

end NetworkExercises.SpeedDaemon
