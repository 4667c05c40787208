/-
Module: NetworkExercises.SpeedDaemon.Proofs.Closing
Purpose: What is handled of a camera's stream until its client is removed: exactly the
  messages that were whole before the event of the removal.
Main exports: Wake, Connection, wakeStep, handleClient_wakes, wakeStep_stays_iff,
  closed_handled_iff
-/
import NetworkExercises.SpeedDaemon.Proofs.Failures
import NetworkExercises.SpeedDaemon.Proofs.Stream

namespace NetworkExercises.SpeedDaemon

open Lib Checked

/-! ### The events of one connection -/

/-- An event of a client: what the other clients have made of the shared state by then, and
what the system calls give. -/
structure Wake where
  world : World
  timers : Timers
  rdhup : Bool
  arrival : Arrival
  calls : Nat → Calls

def Wake.session (wake : Wake) (client : Client) : Session :=
  ⟨wake.world, wake.timers, client, BoundedArray.clear⟩

/-- A client, `none` once it is removed, and the messages of it that were handled. -/
structure Connection where
  client : Option Client
  handled : List Message

section Events

variable (F : Type) [F64 F]

/-- The messages whose turn of the loop ends without an error. -/
def handledBy (calls : Nat → Calls) (i : Nat) (msgs : List Message) (session : Session) :
    List Message :=
  match msgs with
  | [] => []
  | msg :: msgs =>
      match handleMessage F (calls i) msg session with
      | .done session => msg :: handledBy calls (i + 1) msgs session
      | _ => []

/-- The messages of an event that are handled. -/
def handledIn (wake : Wake) (client : Client) : List Message :=
  match client.fifo with
  | none => []
  | some fifo =>
      match receive fifo wake.arrival with
      | .messages msgs _ left =>
          handledBy F wake.calls 0 msgs ((wake.session client).withFifo left)
      | _ => []

/-- One event of a client: it is removed by the flag `RDHUP` and by every error. -/
def wakeStep (connection : Connection) (wake : Wake) : Option Connection :=
  match connection.client with
  | none => none
  | some client =>
      if wake.rdhup then some { connection with client := none }
      else
        let handled := connection.handled ++ handledIn F wake client
        match handleMessages F wake.arrival wake.calls (wake.session client) with
        | .trap => none
        | .done session => some ⟨some session.client, handled⟩
        | .raised _ _ => some ⟨none, handled⟩

variable {F} {state next : ServerState} {event : Event} {client : Client}

/-- An event of the server for a client is one of these. -/
theorem handleClient_wakes (handled : List Message)
    (step : handleClient F event client state = some next) :
    ∃ left, wakeStep F ⟨some client, handled⟩
        ⟨state.world, state.timers, event.rdhup, event.sys.arrival, event.sys.calls⟩ =
          some left ∧
      (∀ client', left.client = some client' →
        next.clients.map event.socket = some client') ∧
      (left.client = none → ¬ next.Connected event.socket) := by
  have begins : state.session client =
    Wake.session ⟨state.world, state.timers, event.rdhup, event.sys.arrival,
      event.sys.calls⟩ client := rfl
  simp only [wakeStep]
  cases handleClient_cases step with
  | closed closing removed =>
      rw [if_pos closing]
      exact ⟨_, rfl, by simp, fun _ => removeFd_disconnects removed⟩
  | served stays session done =>
      rw [if_neg stays]
      simp only [← begins, done]
      exact ⟨_, rfl, by simp [ServerState.afterSession, Clients.put], by simp⟩
  | failed stays error session raised _ _ _ removed =>
      rw [if_neg stays]
      simp only [← begins, raised]
      exact ⟨_, rfl, by simp, fun _ => removeFd_disconnects removed⟩

/-! ### What an event handles -/

variable {fifo rest : Bytes} {new after msgs : List Message} {calls : Nat → Calls}
  {session final : Session}

theorem handledBy_done {i : Nat} (done : handleLoop F calls i msgs session = .done final) :
    handledBy F calls i msgs session = msgs := by
  induction msgs generalizing i session with
  | nil => rfl
  | cons msg msgs ih =>
      rw [handleLoop, Outcome.andThen_eq_done] at done
      obtain ⟨middle, first, others⟩ := done
      rw [handledBy, first]
      simp only [ih others]

/-- An error leaves some of the messages unhandled. -/
theorem handledBy_raised {i : Nat} {error : ServerError}
    (raised : handleLoop F calls i msgs session = .raised error final) :
    ∃ refused, refused ≠ [] ∧ msgs = handledBy F calls i msgs session ++ refused := by
  induction msgs generalizing i session with
  | nil => cases raised
  | cons msg msgs ih =>
      rw [handleLoop] at raised
      rw [handledBy]
      cases first : handleMessage F (calls i) msg session with
      | trap => exact ⟨msg :: msgs, by simp, rfl⟩
      | raised error session => exact ⟨msg :: msgs, by simp, rfl⟩
      | done middle =>
          rw [first, Outcome.done_andThen] at raised
          obtain ⟨refused, some, split⟩ := ih raised
          exact ⟨refused, some, by rw [List.cons_append, ← split]⟩

variable {wake : Wake} {handled : List Message} {connection : Connection}

/-- An event either keeps the client, and then the messages that are now whole are handled
and the fifo holds the rest, or removes it, and then not all of them are handled. -/
theorem wakeStep_handles (held : client.fifo = some fifo)
    (streamed : ∀ message ∈ new, message.Streamed)
    (afterStreamed : ∀ message ∈ after, message.Streamed)
    (unfinished : Unfinished Message.wire after rest)
    (bytesEq : fifo ++ wake.arrival.bytes = wireAll new ++ rest)
    (step : wakeStep F ⟨some client, handled⟩ wake = some connection) :
    (connection.handled = handled ++ new ∧
        ∃ client', connection.client = some client' ∧ client'.fifo = some rest) ∨
      connection.client = none ∧ ∃ part refused, connection.handled = handled ++ part ∧
        (part = [] ∨ refused ≠ [] ∧ new = part ++ refused) := by
  simp only [wakeStep] at step
  split at step
  · cases step
    exact .inr ⟨rfl, [], [], by simp, .inl rfl⟩
  have heldThere : (wake.session client).client.fifo = some fifo := held
  rw [handleMessages, heldThere] at step
  simp only [handledIn, held] at step
  cases received : receive fifo wake.arrival with
  | trap =>
      rw [received] at step
      cases step
  | failed error left =>
      rw [received] at step
      cases step
      exact .inr ⟨rfl, [], [], rfl, .inl rfl⟩
  | messages msgs len left =>
      obtain ⟨-, -, -, rfl, leftEq⟩ :=
        receive_messages streamed afterStreamed unfinished bytesEq received
      rw [received] at step
      simp only at step
      cases looped : handleLoop F wake.calls 0 msgs ((wake.session client).withFifo left) with
      | trap =>
          rw [looped] at step
          cases step
      | done session =>
          rw [looped] at step
          cases step
          refine .inl ⟨by rw [handledBy_done looped], _, rfl, ?_⟩
          have kept : session.client.fifo = some left := handleLoop_fifo (.inl looped)
          simp only [Session.discard, kept, Option.map_some, leftEq]
      | raised error session =>
          rw [looped] at step
          cases step
          obtain ⟨refused, some, split⟩ := handledBy_raised looped
          exact .inr ⟨rfl, _, refused, rfl, .inr ⟨some, split⟩⟩

/-- The client stays exactly after an event without the flag `RDHUP` that reads something,
ends with `WouldBlock`, and brings at most 64 whole messages that are all handled without an
error. -/
theorem wakeStep_stays_iff (held : client.fifo = some fifo)
    (streamed : ∀ message ∈ new, message.Streamed)
    (afterStreamed : ∀ message ∈ after, message.Streamed)
    (unfinished : Unfinished Message.wire after rest)
    (bytesEq : fifo ++ wake.arrival.bytes = wireAll new ++ rest)
    (step : wakeStep F ⟨some client, handled⟩ wake = some connection) :
    connection.client ≠ none ↔ wake.rdhup = false ∧ wake.arrival.ending = .wouldBlock ∧
      wake.arrival.chunks ≠ [] ∧ new.length ≤ 64 ∧
      ∃ final, handleLoop F wake.calls 0 new
        ((wake.session client).withFifo (fifo ++ wake.arrival.bytes)) = .done final := by
  have heldThere : (wake.session client).client.fifo = some fifo := held
  simp only [wakeStep, handleMessages, heldThere] at step
  cases closing : wake.rdhup with
  | true =>
      simp only [closing, if_true, Option.some.injEq] at step
      subst step
      simp
  | false =>
      simp only [closing, Bool.false_eq_true, if_false] at step
      constructor
      · intro stays
        cases received : receive fifo wake.arrival with
        | trap | failed error left =>
            rw [received] at step
            cases step <;> exact absurd rfl stays
        | messages msgs len left =>
            obtain ⟨ending, something, few, rfl, -⟩ :=
              receive_messages streamed afterStreamed unfinished bytesEq received
            obtain ⟨len', receives, -⟩ :=
              receive_stream ending something streamed afterStreamed unfinished few bytesEq
            rw [received, Received.messages.injEq] at receives
            obtain ⟨-, -, rfl⟩ := receives
            rw [received] at step
            simp only at step
            refine ⟨rfl, ending, something, few, ?_⟩
            split at step
            · cases step
            · next session done =>
              cases looped : handleLoop F wake.calls 0 msgs
                ((wake.session client).withFifo (fifo ++ wake.arrival.bytes)) with
              | done final => exact ⟨final, rfl⟩
              | raised | trap =>
                  rw [looped] at done
                  cases done
            · cases step
              exact absurd rfl stays
      · rintro ⟨-, ending, something, few, final, looped⟩
        obtain ⟨len, receives, -⟩ :=
          receive_stream ending something streamed afterStreamed unfinished few bytesEq
        simp only [receives, looped, Outcome.map_done, Option.some.injEq] at step
        subst step
        simp

/-! ### All events of a connection -/

/-- The bytes that arrive with some events, read or not. -/
def arrived (wakes : List Wake) : Bytes := received (wakes.map Wake.arrival)

theorem arrived_concat (wakes : List Wake) (wake : Wake) :
    arrived (wakes ++ [wake]) = arrived wakes ++ wake.arrival.bytes := by
  rw [arrived, List.map_append, List.map_singleton, received_concat, arrived]

/-- As long as the client is connected, its whole messages were handled, and the fifo holds
the bytes behind them. -/
def Connection.Follows (messages : List Message) (wakes : List Wake)
    (connection : Connection) : Prop :=
  ∀ client, connection.client = some client → ∃ fifo, client.fifo = some fifo ∧
    connection.handled = complete Message.wire messages (arrived wakes).length ∧
    arrived wakes = wireAll connection.handled ++ fifo

variable {messages : List Message} {wakes front : List Wake} {last : Wake} {sent : Bytes}

/-- What the next event does to a connection that follows the stream. -/
theorem Connection.Follows.step (follows : connection.Follows messages wakes)
    {after : Connection} (streamed : ∀ message ∈ messages, message.Streamed)
    (isPart : arrived (wakes ++ [wake]) <+: wireAll messages)
    (step : wakeStep F connection wake = some after) :
    after.Follows messages (wakes ++ [wake]) ∧
      (after.client = none → ∃ part refused,
        after.handled = complete Message.wire messages (arrived wakes).length ++ part ∧
        (part = [] ∨ refused ≠ [] ∧
          complete Message.wire messages (arrived (wakes ++ [wake])).length =
            complete Message.wire messages (arrived wakes).length ++ (part ++ refused))) := by
  obtain ⟨client, handled⟩ := connection
  cases client with
  | none => cases step
  | some client =>
      obtain ⟨fifo, held, whole, split⟩ := follows client rfl
      simp only at whole split
      rw [arrived_concat] at isPart
      obtain ⟨new, others, left, messagesEq, nowWhole, moreEq, unfinished⟩ :=
        whole_more whole split isPart
      have streamedLater : ∀ message ∈ new ++ others, message.Streamed := by
        intro message member
        apply streamed
        rw [messagesEq]
        exact List.mem_append_right _ member
      rcases wakeStep_handles held
          (fun message member => streamedLater message (List.mem_append_left _ member))
          (fun message member => streamedLater message (List.mem_append_right _ member))
          unfinished moreEq step with
        ⟨handledNow, client', stays, heldNow⟩ | ⟨gone, part, refused, handledNow, which⟩
      · refine ⟨fun other same => ?_, fun gone => by rw [stays] at gone; cases gone⟩
        rw [stays, Option.some.injEq] at same
        subst same
        refine ⟨left, heldNow, ?_, ?_⟩
        · rw [arrived_concat, nowWhole, handledNow]
        · rw [arrived_concat, split, List.append_assoc, moreEq, handledNow, wireAll_append,
            List.append_assoc]
      · refine ⟨fun other same => (by rw [gone] at same; cases same), fun _ => ?_⟩
        refine ⟨part, refused, by rw [handledNow, ← whole], ?_⟩
        rcases which with nothing | ⟨some, newEq⟩
        · exact .inl nothing
        · exact .inr ⟨some, by rw [arrived_concat, nowWhole, newEq, ← whole]⟩

theorem run_follows (fd : SocketFd) (streamed : ∀ message ∈ messages, message.Streamed)
    (isPart : arrived wakes <+: wireAll messages)
    (ran : run (wakeStep F) ⟨some (.init fd), []⟩ wakes = some connection) :
    connection.Follows messages wakes := by
  have start : Connection.Follows messages [] ⟨some (.init fd), []⟩ := by
    rintro client ⟨⟩
    exact ⟨[], rfl, (complete_zero fun message _ => message.wire_ne_nil).symm, rfl⟩
  have relates := run_relates (fun wakes connection => arrived wakes <+: wireAll messages →
    Connection.Follows messages wakes connection) ?_ (fun _ => start) ran
  · exact relates isPart
  · intro past before wake after follows step isPart
    have earlier : arrived past <+: wireAll messages := by
      refine List.IsPrefix.trans ?_ isPart
      rw [arrived_concat]
      exact List.prefix_append _ _
    exact ((follows earlier).step streamed isPart step).1

/-- When the client of a camera is removed, every message that it has sent whole was handled
exactly when all of them were whole before the event of the removal. -/
theorem closed_handled_iff (fd : SocketFd) (streamed : ∀ message ∈ messages, message.Streamed)
    (isSent : sent <+: wireAll messages) (arrives : arrived (front ++ [last]) <+: sent)
    (ran : run (wakeStep F) ⟨some (.init fd), []⟩ (front ++ [last]) = some connection)
    (removed : connection.client = none) :
    connection.handled = complete Message.wire messages sent.length ↔
      complete Message.wire messages (arrived front).length =
        complete Message.wire messages sent.length := by
  obtain ⟨middle, frontRan, lastRan⟩ := run_append_eq_some.mp ran
  obtain ⟨next, step, ended⟩ := run_cons_eq_some.mp lastRan
  obtain rfl : next = connection := Option.some.inj ended
  have earlier : arrived front <+: wireAll messages := by
    refine List.IsPrefix.trans ?_ (arrives.trans isSent)
    rw [arrived_concat]
    exact List.prefix_append _ _
  have follows := run_follows fd streamed earlier frontRan
  obtain ⟨part, refused, handled, which⟩ :=
    (follows.step streamed (arrives.trans isSent) step).2 removed
  rcases which with nothing | ⟨some, whole⟩
  · rw [handled, nothing, List.append_nil]
  · -- A message that is whole only now was refused, and neither side holds.
    have all : (complete Message.wire messages (arrived (front ++ [last])).length).length ≤
        (complete Message.wire messages sent.length).length :=
      (complete_mono arrives.length_le).length_le
    rw [whole, List.length_append, List.length_append] at all
    have refusedLength := List.length_pos_iff.mpr some
    constructor
    · intro same
      have lengths := congrArg List.length same
      rw [handled, List.length_append] at lengths
      omega
    · intro same
      have lengths := congrArg List.length same
      omega

/-- The first message of a camera. -/
def cameraBytes : Bytes := [0x80, 0, 1, 0, 2, 0, 60]

/-- It arrives, and the end of the connection with an event of its own, -/
def arrivesFirst : Wake :=
  ⟨.empty, .empty, false, ⟨[cameraBytes], .wouldBlock, by decide⟩, smoothCalls⟩

def closesLater : Wake := ⟨.empty, .empty, true, nothingArrived, smoothCalls⟩

/-- or both are read in one event. -/
def closesAtOnce : Wake :=
  ⟨.empty, .empty, false, ⟨[cameraBytes], .closed, by decide⟩, smoothCalls⟩

theorem camera_streamed : ∀ message ∈ [Message.camera ⟨1, 2, 60⟩], message.Streamed := by
  simp [Message.Streamed]

theorem cameraBytes_isSent : cameraBytes <+: wireAll [.camera ⟨1, 2, 60⟩] := by decide

theorem closed_handled_iff_later :
    ∃ connection, run (wakeStep ℚ) ⟨some (.init 5), []⟩ ([arrivesFirst] ++ [closesLater]) =
        some connection ∧
      (connection.handled = complete Message.wire [.camera ⟨1, 2, 60⟩] cameraBytes.length ↔
        complete Message.wire [.camera ⟨1, 2, 60⟩] (arrived [arrivesFirst]).length =
          complete Message.wire [.camera ⟨1, 2, 60⟩] cameraBytes.length) := by
  have ran : (run (wakeStep ℚ) ⟨some (.init 5), []⟩ ([arrivesFirst] ++ [closesLater])).map
      (fun connection => connection.client) = some none := by decide +kernel
  obtain ⟨connection, ranEq, removed⟩ := Option.map_eq_some_iff.mp ran
  exact ⟨connection, ranEq,
    closed_handled_iff 5 camera_streamed cameraBytes_isSent (by decide) ranEq removed⟩

/-- A message that is read in the same event as the end of the connection is lost. -/
theorem not_closed_handled :
    ¬ ∀ (fd : SocketFd) (messages : List Message) (sent : Bytes) (wakes : List Wake)
      (connection : Connection), (∀ message ∈ messages, message.Streamed) →
        sent <+: wireAll messages → arrived wakes = sent →
          run (wakeStep ℚ) ⟨some (.init fd), []⟩ wakes = some connection →
            connection.client = none →
              connection.handled = complete Message.wire messages sent.length := by
  intro always
  have ran : (run (wakeStep ℚ) ⟨some (.init 5), []⟩ [closesAtOnce]).map
      (fun connection => (connection.client, connection.handled)) = some (none, []) := by
    decide +kernel
  obtain ⟨connection, ranEq, ends⟩ := Option.map_eq_some_iff.mp ran
  obtain ⟨removed, nothing⟩ := Prod.mk.inj ends
  have all := always 5 _ _ [closesAtOnce] connection camera_streamed cameraBytes_isSent
    (by decide) ranEq removed
  rw [nothing] at all
  revert all
  decide

end Events

end NetworkExercises.SpeedDaemon
