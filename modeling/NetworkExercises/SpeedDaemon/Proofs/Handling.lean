/-
Module: NetworkExercises.SpeedDaemon.Proofs.Handling
Purpose: Rules for the message handler: what its prongs do besides observing and
  dispatching leaves the sockets, the tickets and the fifo alone.
Main exports: handleWantHeartbeat_reaches, handleMessage_rule, handleLoop_keeps,
  handleLoop_rule, handleMessages_keeps, handleMessages_rule, handleLoop_fifo
-/
import NetworkExercises.SpeedDaemon.Handler
import NetworkExercises.SpeedDaemon.Proofs.DecodeLoop

namespace NetworkExercises.SpeedDaemon

open Lib

/-! ### What becomes of the client -/

theorem Client.type_eq_unidentified {client : Client} :
    client.type = .unidentified ↔ client.data = .unidentified := by
  unfold Client.type
  cases client.data <;> simp

theorem Client.type_eq_camera {client : Client} :
    client.type = .camera ↔ ∃ camera, client.data = .camera camera := by
  unfold Client.type
  cases client.data <;> simp

theorem setAsCamera_fifo {client client' : Client} {msg : Message}
    (done : client.setAsCamera msg = .ok client') : client'.fifo = client.fifo := by
  unfold Client.setAsCamera at done
  split at done
  · cases done
  split at done
  · cases done
    rfl
  · cases done

theorem setAsDispatcher_ok {client client' : Client} {msg : Message} {disp : Dispatcher}
    (done : client.setAsDispatcher msg = .ok (client', disp)) :
    disp.fd = client.fd ∧ client' = { client with data := .dispatcher disp } := by
  unfold Client.setAsDispatcher at done
  split at done
  · cases done
  split at done
  · cases done
  cases msg with
  | dispatcher roads =>
      cases done
      exact ⟨rfl, rfl⟩
  | errorM | plate | ticket | wantHeartbeat | heartbeat | camera => cases done

/-- A timer is all that a client is given. -/
theorem addTimer_reaches {client client' : Client} {interval : Nat}
    {timerfd : Except String SocketFd} {epollAdd : Option String}
    (reaches : (client.addTimer interval timerfd epollAdd).Reaches client') :
    ∃ timer, client' = { client with timer := timer } := by
  unfold Client.addTimer at reaches
  repeat' split at reaches
  all_goals
    first
    | rw [Outcome.raised_reaches] at reaches
    | rw [Outcome.done_reaches] at reaches
    exact ⟨_, reaches⟩

/-! ### The rules -/

section Arithmetic

variable {F : Type} [F64 F] {session final : Session}

/-- The session with the cars and the queue after an observation. -/
def Session.observed (session : Session) (cars : Cars) (tickets : TicketsQueue) : Session :=
  { session with world := { session.world with cars := cars, tickets := tickets } }

/-- A camera is identified without touching anything but the client. -/
theorem handleIAmCamera_frame {msg : Message}
    (reaches : (handleIAmCamera msg session).Reaches final) :
    final.world = session.world ∧ final.client.fifo = session.client.fifo := by
  rw [handleIAmCamera] at reaches
  split at reaches
  · rw [Outcome.raised_reaches] at reaches
    rw [reaches]
    exact ⟨rfl, rfl⟩
  split at reaches
  · rw [Outcome.raised_reaches] at reaches
    rw [reaches]
    exact ⟨rfl, rfl⟩
  · next client made =>
    rw [Outcome.done_reaches] at reaches
    rw [reaches]
    exact ⟨rfl, setAsCamera_fifo made⟩

/-- A heartbeat request touches the request and the timer of the client, and the timers. -/
theorem handleWantHeartbeat_reaches {calls : Calls} {interval : UInt32}
    (reaches : (handleWantHeartbeat calls interval session).Reaches final) :
    ∃ requested timer timers, final = { session with
      client := { session.client with heartbeatRequested := requested, timer := timer }
      timers := timers } := by
  simp only [handleWantHeartbeat] at reaches
  split at reaches
  · exact ⟨_, _, _, Outcome.raised_reaches.mp reaches⟩
  split at reaches
  · exact ⟨_, _, _, Outcome.done_reaches.mp reaches⟩
  rcases Outcome.andThen_reaches reaches with ⟨error, failed⟩ | ⟨middle, added, rest⟩
  · obtain ⟨client, timed, rfl⟩ := Outcome.map_reaches (.inr ⟨error, failed⟩)
    obtain ⟨timer, rfl⟩ := addTimer_reaches timed
    exact ⟨_, timer, _, rfl⟩
  · obtain ⟨client, timed, rfl⟩ := Outcome.map_reaches (.inl added)
    obtain ⟨timer, rfl⟩ := addTimer_reaches timed
    split at rest
    · exact ⟨_, timer, _, Outcome.done_reaches.mp rest⟩
    · exact ⟨_, timer, _, Outcome.done_reaches.mp rest⟩

/-- A property of the sockets, the tickets and the fifo that every observation and
every dispatching pass keep is kept by the handling of a message, on every exit. -/
theorem handleMessage_rule {calls : Calls} {msg : Message} (P : Session → Prop)
    (other : ∀ session final : Session, final.world.net = session.world.net →
      final.world.tickets = session.world.tickets →
      final.client.fifo = session.client.fifo → P session → P final)
    (observing : ∀ session seen camera cars tickets ntickets, msg = .plate seen →
      observe F session.world.cars session.world.tickets seen camera =
        .ok (cars, tickets, ntickets) → P session → P (session.observed cars tickets))
    (pass : ∀ session final : Session, P session →
      (session.dispatch calls.sends).Reaches final → P final)
    (before : P session)
    (reaches : (handleMessage F calls msg session).Reaches final) : P final := by
  cases msg with
  | heartbeat | errorM msg | ticket issued =>
      rw [handleMessage, Outcome.raised_reaches] at reaches
      rwa [reaches]
  | camera position =>
      obtain ⟨world, fifo⟩ := handleIAmCamera_frame reaches
      exact other session final (by rw [world]) (by rw [world]) fifo before
  | dispatcher roads =>
      rw [handleMessage, handleIAmDispatcher] at reaches
      split at reaches
      · rw [Outcome.raised_reaches] at reaches
        rwa [reaches]
      split at reaches
      · rw [Outcome.raised_reaches] at reaches
        rwa [reaches]
      · next client disp made =>
        apply pass _ final ?_ reaches
        apply other session _ ?_ ?_ ?_ before
        · rfl
        · rfl
        · simp only [(setAsDispatcher_ok made).2]
  | wantHeartbeat interval =>
      obtain ⟨requested, timer, timers, rfl⟩ := handleWantHeartbeat_reaches reaches
      exact other session _ rfl rfl rfl before
  | plate seen =>
      simp only [handleMessage, handlePlate] at reaches
      split at reaches
      · split at reaches
        · exact absurd reaches Outcome.not_trap_reaches
        · rw [Outcome.raised_reaches] at reaches
          rwa [reaches]
        · next cars tickets ntickets observed =>
          have after := observing session seen _ cars tickets ntickets rfl observed before
          split at reaches
          · exact pass _ final after reaches
          · rw [Outcome.done_reaches] at reaches
            rw [reaches]
            exact after
      · rw [Outcome.raised_reaches] at reaches
        rwa [reaches]

/-- What every message keeps, on every exit, is kept by the loop. -/
theorem handleLoop_keeps {calls : Nat → Calls} {i : Nat} {msgs : List Message}
    (P : Session → Prop)
    (kept : ∀ i msg session final, msg ∈ msgs → P session →
      (handleMessage F (calls i) msg session).Reaches final → P final)
    (before : P session)
    (reaches : (handleLoop F calls i msgs session).Reaches final) : P final := by
  induction msgs generalizing i session with
  | nil =>
      rw [handleLoop, Outcome.done_reaches] at reaches
      rwa [reaches]
  | cons msg msgs ih =>
      rw [handleLoop] at reaches
      have first := fun middle => kept i msg session middle (by simp) before
      rcases Outcome.andThen_reaches reaches with ⟨error, failed⟩ | ⟨middle, handled, rest⟩
      · exact first final (.inr ⟨error, failed⟩)
      · apply ih ?_ (first middle (.inl handled)) rest
        exact fun i other session final member => kept i other session final (by simp [member])

/-- The rule for one message carries over to the loop. -/
theorem handleLoop_rule {calls : Nat → Calls} {i : Nat} {msgs : List Message}
    (P : Session → Prop)
    (other : ∀ session final : Session, final.world.net = session.world.net →
      final.world.tickets = session.world.tickets →
      final.client.fifo = session.client.fifo → P session → P final)
    (observing : ∀ session seen camera cars tickets ntickets, .plate seen ∈ msgs →
      observe F session.world.cars session.world.tickets seen camera =
        .ok (cars, tickets, ntickets) → P session → P (session.observed cars tickets))
    (pass : ∀ i session final, P session →
      (Session.dispatch session (calls i).sends).Reaches final → P final)
    (before : P session)
    (reaches : (handleLoop F calls i msgs session).Reaches final) : P final := by
  refine handleLoop_keeps P (fun i msg session final member held handled => ?_) before reaches
  exact handleMessage_rule P other
    (fun session seen camera cars tickets ntickets same =>
      observing session seen camera cars tickets ntickets (same ▸ member))
    (pass i) held handled

/-- The messages of an event are well-formed client messages. -/
theorem receive_wellFormed {fifo left : Bytes} {arrival : Arrival} {msgs : List Message}
    {len : Nat} (received : receive fifo arrival = .messages msgs len left) :
    ∀ msg ∈ msgs, msg.IsClient ∧ msg.WellFormed := by
  simp only [receive] at received
  split at received
  · cases received
  · cases received
  split at received
  · cases received
  split at received
  · cases received
  · cases received
  · next decoded =>
    split at received
    · cases received
      nofun
    · cases received
      exact decode_wellFormed decoded

/-- The session of a client with another fifo. -/
def Session.refill (session : Session) (fifo : Option Bytes) : Session :=
  { session with client := { session.client with fifo := fifo } }

/-- What every message keeps, and another fifo does not matter to, is kept by an event,
on every exit. -/
theorem handleMessages_keeps {arrival : Arrival} {calls : Nat → Calls} (P : Session → Prop)
    (refilled : ∀ session fifo, P session → P (Session.refill session fifo))
    (kept : ∀ i msg session final, msg.WellFormed → P session →
      (handleMessage F (calls i) msg session).Reaches final → P final)
    (before : P session)
    (reaches : (handleMessages F arrival calls session).Reaches final) : P final := by
  unfold handleMessages at reaches
  split at reaches
  · exact absurd reaches Outcome.not_trap_reaches
  split at reaches
  · exact absurd reaches Outcome.not_trap_reaches
  · next fifo _ =>
    rw [Outcome.raised_reaches] at reaches
    rw [reaches]
    exact refilled session (some fifo) before
  · next msgs len left received =>
    obtain ⟨looped, reached, rfl⟩ := Outcome.map_reaches reaches
    apply refilled looped (looped.client.fifo.map (List.drop len))
    apply handleLoop_keeps P ?_ (refilled session (some left) before) reached
    exact fun i msg session final member =>
      kept i msg session final (receive_wellFormed received msg member).2

/-- A property of the sockets and the tickets that the observations of well-formed
plates and the dispatching passes keep is kept by an event, on every exit. -/
theorem handleMessages_rule {arrival : Arrival} {calls : Nat → Calls} (P : Session → Prop)
    (other : ∀ session final : Session, final.world.net = session.world.net →
      final.world.tickets = session.world.tickets → P session → P final)
    (observing : ∀ session seen camera cars tickets ntickets,
      (Message.plate seen).WellFormed →
      observe F session.world.cars session.world.tickets seen camera =
        .ok (cars, tickets, ntickets) → P session → P (session.observed cars tickets))
    (pass : ∀ i session final, P session →
      (Session.dispatch session (calls i).sends).Reaches final → P final)
    (before : P session)
    (reaches : (handleMessages F arrival calls session).Reaches final) : P final := by
  refine handleMessages_keeps P (fun session fifo => other session _ rfl rfl) ?_ before reaches
  intro i msg session final wellFormed held handled
  exact handleMessage_rule P (fun session final net tickets _ => other session final net tickets)
    (fun session seen camera cars tickets ntickets same =>
      observing session seen camera cars tickets ntickets (same ▸ wellFormed))
    (pass i) held handled

/-- No message touches the fifo of the client. -/
theorem handleLoop_fifo {calls : Nat → Calls} {i : Nat} {msgs : List Message}
    (reaches : (handleLoop F calls i msgs session).Reaches final) :
    final.client.fifo = session.client.fifo := by
  refine handleLoop_rule (fun other => other.client.fifo = session.client.fifo) ?_ ?_ ?_
    rfl reaches
  · intro middle final _ _ same before
    rw [same, before]
  · intro middle seen camera cars tickets ntickets _ _ before
    exact before
  · intro i middle final before passed
    obtain ⟨pass, -, rfl⟩ := Outcome.map_reaches passed
    exact before

end Arithmetic

end NetworkExercises.SpeedDaemon
