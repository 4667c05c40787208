/-
Module: NetworkExercises.SpeedDaemon.Proofs.Automaton
Purpose: The message handler acts as the automaton of the protocol: it takes the
  longest accepted beginning of the messages, and nothing of the rest.
Main exports: Proto, Effects, SpeedTraps, handleMessage_refines, handleLoop_refines
-/
import NetworkExercises.SpeedDaemon.Proofs.Delivery
import NetworkExercises.SpeedDaemon.Proofs.Handling

namespace NetworkExercises.SpeedDaemon

open Lib Checked

/-! ### The automaton -/

/-- The role of a client, and whether it has asked for heartbeats. -/
structure Proto where
  role : ClientType
  asked : Bool
deriving DecidableEq, Repr

namespace Proto

/-- Accept a message, or reject it. -/
def step (proto : Proto) : Message → Option Proto
  | .camera _ =>
      if proto.role = .unidentified then some { proto with role := .camera } else none
  | .dispatcher _ =>
      if proto.role = .unidentified then some { proto with role := .dispatcher } else none
  | .wantHeartbeat _ => if proto.asked then none else some { proto with asked := true }
  | .plate _ => if proto.role = .camera then some proto else none
  | .errorM _ | .ticket _ | .heartbeat => none

/-- The longest beginning of a list of messages that is accepted. -/
def accepted (proto : Proto) : List Message → List Message
  | [] => []
  | msg :: msgs =>
      match proto.step msg with
      | some next => msg :: next.accepted msgs
      | none => []

end Proto

/-- The state of the automaton that a client is in. -/
def Client.proto (client : Client) : Proto :=
  ⟨client.type, client.heartbeatRequested || client.timer.isSome⟩

/-! ### The effects of accepted messages -/

section Effects

variable (F : Type) [F64 F]

/-- The client identified as a camera. -/
def Client.asCamera (client : Client) (position : IAmCamera) : Client :=
  { client with
    data := .camera ⟨client.fd, position.road, position.mile, position.limit⟩ }

/-- The session with its client registered as a dispatcher for some roads. -/
def Session.asDispatcher (session : Session) (roads : List UInt16) : Session :=
  { session with
    client := { session.client with data := .dispatcher ⟨session.client.fd, roads⟩ }
    world := { session.world with
      roads := session.world.roads.addDispatcher ⟨session.client.fd, roads⟩ } }

/-- What an accepted message does to the session. -/
inductive Effect (calls : Calls) (session : Session) : Message → Session → Prop where
  | camera (position : IAmCamera) :
      Effect calls session (.camera position)
        { session with client := session.client.asCamera position }
  | dispatcher (roads : List UInt16) (final : Session)
      (passed : (session.asDispatcher roads).dispatch calls.sends = .done final) :
      Effect calls session (.dispatcher roads) final
  | never (interval : UInt32) (zero : interval.toNat = 0) :
      Effect calls session (.wantHeartbeat interval)
        { session with client := { session.client with heartbeatRequested := true } }
  | timer (interval : UInt32) (positive : interval.toNat ≠ 0) (timerfd : SocketFd)
      (created : calls.timerfd = .ok timerfd) :
      Effect calls session (.wantHeartbeat interval)
        { session with
          client := { session.client with
            timer := some ⟨timerfd, session.client.fd, interval.toNat⟩ }
          timers := session.timers.add ⟨timerfd, session.client.fd, interval.toNat⟩ }
  | plate (seen : Plate) (camera : Camera) (isCamera : session.client.data = .camera camera)
      (cars : Cars) (tickets : TicketsQueue)
      (observed : observe F session.world.cars session.world.tickets seen camera =
        .ok (cars, tickets, 0)) :
      Effect calls session (.plate seen) (session.observed cars tickets)
  | ticketed (seen : Plate) (camera : Camera)
      (isCamera : session.client.data = .camera camera) (cars : Cars)
      (tickets : TicketsQueue) (ntickets : Nat) (some : ntickets > 0)
      (observed : observe F session.world.cars session.world.tickets seen camera =
        .ok (cars, tickets, ntickets)) (final : Session)
      (passed : (session.observed cars tickets).dispatch calls.sends = .done final) :
      Effect calls session (.plate seen) final

/-- The effects of a list of messages, one after the other. -/
inductive Effects (calls : Nat → Calls) : Nat → Session → List Message → Session → Prop where
  | nil (i : Nat) (session : Session) : Effects calls i session [] session
  | cons {i : Nat} {session middle final : Session} {msg : Message} {msgs : List Message}
      (effect : Effect F (calls i) session msg middle)
      (effects : Effects calls (i + 1) middle msgs final) :
      Effects calls i session (msg :: msgs) final

end Effects

/-! ### One message -/

/-- The message makes the program create a timer when it is accepted. -/
def Message.WantsTimer : Message → Prop
  | .wantHeartbeat interval => interval.toNat ≠ 0
  | _ => False

/-- The calls for the timer that a message wants give no error. -/
def Calls.Timed (calls : Calls) (msg : Message) : Prop :=
  msg.WantsTimer → (∃ fd, calls.timerfd = .ok fd) ∧ calls.epollAdd = none

/-- The calls that a message makes give no error. -/
structure Calls.Succeed (calls : Calls) (msg : Message) : Prop where
  written : ∀ number, (calls.sends number).written = .all
  timed : calls.Timed msg

/-- Every queued ticket has a plate that fits its frame. -/
def World.Short (world : World) : Prop :=
  ∀ ticket ∈ world.tickets.queue, ticket.plate.length ≤ 255

variable {F : Type} [F64 F] {session : Session}

/-- A pass only takes tickets out of the queue. -/
theorem dispatchTicketsQueue_subset {roads : Roads} {sends : Nat → Sending}
    {pass final : Pass} (reaches : (dispatchTicketsQueue roads sends pass).Reaches final) :
    final.tickets.queue ⊆ pass.tickets.queue := by
  unfold dispatchTicketsQueue at reaches
  split at reaches
  · rw [Outcome.done_reaches] at reaches
    rw [reaches]
    exact List.Subset.refl _
  apply dispatchLoop_rule (fun other => other.tickets.queue ⊆ pass.tickets.queue) ?_ ?_
    (List.Subset.refl _) reaches
  · intro number pass final fd ticket error subset failed
    rw [sendTicket_tickets (.inr ⟨error, failed⟩)]
    exact subset
  · intro number pass middle fd ticket subset found sent
    simp only [TicketsQueue.removeFirst, TicketsQueue.noteSent,
      sendTicket_tickets (.inl sent)]
    exact List.Subset.trans List.eraseP_subset subset

/-- When every write succeeds, a pass ends without an error, leaves the client alone
and keeps the queued plates short. -/
theorem Session.dispatch_done {sends : Nat → Sending}
    (written : ∀ number, (sends number).written = .all) (short : session.world.Short) :
    ∃ final, session.dispatch sends = .done final ∧ final.client = session.client ∧
      final.world.Short := by
  obtain ⟨pass, done⟩ : ∃ pass, dispatchTicketsQueue session.world.roads sends
      ⟨session.world.tickets, session.buf, session.world.net⟩ = .done pass :=
    dispatchTicketsQueue_done written short
  refine ⟨{ session with world := session.world.afterPass pass, buf := pass.buf }, ?_,
    rfl, ?_⟩
  · rw [Session.dispatch, done, Outcome.map_done]
  · intro ticket queued
    exact short ticket (dispatchTicketsQueue_subset (.inl done) queued)

/-- A message is rejected with an error of its own, and changes nothing. -/
def Rejects (F : Type) [F64 F] (calls : Calls) (session : Session) (msg : Message) : Prop :=
  session.client.proto.step msg = none ∧
    ∃ error, error ≠ .clientClosedConnection ∧
      handleMessage F calls msg session = .raised error session

/-- The message is a plate at a camera, and some speed does not fit its ticket. -/
def SpeedTrap (F : Type) [F64 F] (session : Session) (msg : Message) : Prop :=
  ∃ seen camera, msg = .plate seen ∧ session.client.data = .camera camera ∧
    CastFails F ((session.world.cars.carOf seen.plate).observationsAfter seen camera)

/-- A message is accepted and has its effect, unless the cast of a speed traps; a role
that was taken before is kept as it is. -/
def Accepts (F : Type) [F64 F] (calls : Calls) (session : Session) (msg : Message) : Prop :=
  ∃ next, session.client.proto.step msg = some next ∧
    (handleMessage F calls msg session = .trap ∧ SpeedTrap F session msg ∨
      ∃ final, handleMessage F calls msg session = .done final ∧
        Effect F calls session msg final ∧ final.client.proto = next ∧ final.world.Short ∧
        (session.client.data ≠ .unidentified → final.client.data = session.client.data))

variable {calls : Calls}

theorem handleIAmCamera_refines (position : IAmCamera) (short : session.world.Short) :
    Rejects F calls session (.camera position) ∨ Accepts F calls session (.camera position) := by
  by_cases free : session.client.type = .unidentified
  · refine .inr ⟨⟨.camera, session.client.proto.asked⟩, if_pos free, .inr ⟨_, ?_,
      .camera position, rfl, short, fun set => ?_⟩⟩
    · simp [handleMessage, handleIAmCamera, Client.setAsCamera, free, Client.asCamera]
    · exact absurd (Client.type_eq_unidentified.mp free) set
  · exact .inl ⟨if_neg free, .clientAlreadyIdentified, by simp, if_pos free⟩

theorem handleIAmDispatcher_refines (roads : List UInt16)
    (written : ∀ number, (calls.sends number).written = .all)
    (short : session.world.Short) :
    Rejects F calls session (.dispatcher roads) ∨
      Accepts F calls session (.dispatcher roads) := by
  by_cases free : session.client.type = .unidentified
  · have made : session.client.setAsDispatcher (.dispatcher roads) =
        .ok ((session.asDispatcher roads).client, ⟨session.client.fd, roads⟩) := by
      rw [Client.setAsDispatcher, if_neg (not_not.mpr free), if_neg (by simp [Message.type])]
      rfl
    have alsoShort : (session.asDispatcher roads).world.Short := short
    obtain ⟨final, passed, client, finalShort⟩ :=
      Session.dispatch_done written alsoShort
    refine .inr ⟨⟨.dispatcher, session.client.proto.asked⟩, if_pos free, .inr ⟨final, ?_,
      .dispatcher roads final passed, ?_, finalShort, fun set => ?_⟩⟩
    · rw [handleMessage, handleIAmDispatcher, if_neg (not_not.mpr free), made]
      exact passed
    · rw [client]
      rfl
    · exact absurd (Client.type_eq_unidentified.mp free) set
  · exact .inl ⟨if_neg free, .clientAlreadyIdentified, by simp, if_pos free⟩

theorem handleWantHeartbeat_refines (interval : UInt32)
    (timed : calls.Timed (.wantHeartbeat interval))
    (short : session.world.Short) :
    Rejects F calls session (.wantHeartbeat interval) ∨
      Accepts F calls session (.wantHeartbeat interval) := by
  by_cases asked : session.client.heartbeatRequested = true ∨ session.client.timer.isSome
  · have step : session.client.proto.asked = true := by
      simpa [Client.proto] using asked
    refine .inl ⟨by simp [Proto.step, step], .timerAlreadyExists, by simp, ?_⟩
    simp only [handleMessage, handleWantHeartbeat, if_pos asked]
  · have step : session.client.proto.asked = false := by
      simpa [Client.proto] using asked
    refine .inr ⟨⟨session.client.type, true⟩, if_neg (by simp [step]), .inr ?_⟩
    by_cases zero : interval.toNat = 0
    · refine ⟨_, ?_, .never interval zero, rfl, short, fun _ => rfl⟩
      simp only [handleMessage, handleWantHeartbeat, if_neg asked, if_pos zero]
    · obtain ⟨⟨timerfd, created⟩, added⟩ := timed zero
      obtain ⟨notRequested, noTimer⟩ := not_or.mp asked
      refine ⟨_, ?_, .timer interval zero timerfd created, ?_, short, fun _ => rfl⟩
      · simp [handleMessage, handleWantHeartbeat, zero, Client.addTimer, notRequested,
          noTimer, created, added]
      · simp [Client.proto, Client.type]

theorem handlePlate_refines (seen : Plate)
    (written : ∀ number, (calls.sends number).written = .all)
    (wellFormed : (Message.plate seen).WellFormed) (short : session.world.Short) :
    Rejects F calls session (.plate seen) ∨ Accepts F calls session (.plate seen) := by
  by_cases isCamera : session.client.type = .camera
  · obtain ⟨camera, data⟩ := Client.type_eq_camera.mp isCamera
    refine .inr ⟨session.client.proto, if_pos isCamera, ?_⟩
    have nonempty : seen.plate.length ≠ 0 := Nat.one_le_iff_ne_zero.mp wellFormed.1
    cases observed : observe F session.world.cars session.world.tickets seen camera with
    | error fault =>
        cases fault with
        | error error => exact absurd observed (observe_unfailing nonempty error)
        | trap =>
            refine .inl ⟨?_, seen, camera, rfl, data, observe_trap nonempty observed⟩
            simp [handleMessage, handlePlate, data, observed]
    | ok result =>
        obtain ⟨cars, tickets, ntickets⟩ := result
        have nowShort : (session.observed cars tickets).world.Short := by
          intro ticket queued
          rcases observe_queue observed ticket queued with old | new
          · exact short ticket old
          · exact new ▸ wellFormed.2
        by_cases some : ntickets > 0
        · obtain ⟨final, passed, client, finalShort⟩ :=
            Session.dispatch_done written nowShort
          refine .inr ⟨final, ?_, .ticketed seen camera data cars tickets ntickets some
            observed final passed, by rw [client]; rfl, finalShort, fun _ => by rw [client]; rfl⟩
          rw [Session.observed] at passed
          simpa [handleMessage, handlePlate, data, observed, some] using passed
        · obtain rfl : ntickets = 0 := by omega
          refine .inr ⟨_, ?_, .plate seen camera data cars tickets observed, rfl, nowShort,
            fun _ => rfl⟩
          simp [handleMessage, handlePlate, data, observed, Session.observed]
  · refine .inl ⟨if_neg isCamera, .clientNotIdentifiedAsCamera, by simp, ?_⟩
    cases data : session.client.data with
    | camera camera => exact absurd (Client.type_eq_camera.mpr ⟨camera, data⟩) isCamera
    | dispatcher | unidentified => simp [handleMessage, handlePlate, data]

/-- One message is handled as the automaton says. -/
theorem handleMessage_refines {msg : Message} (succeed : calls.Succeed msg)
    (wellFormed : msg.WellFormed) (short : session.world.Short) :
    Rejects F calls session msg ∨ Accepts F calls session msg := by
  cases msg with
  | camera position => exact handleIAmCamera_refines position short
  | dispatcher roads => exact handleIAmDispatcher_refines roads succeed.written short
  | wantHeartbeat interval => exact handleWantHeartbeat_refines interval succeed.timed short
  | plate seen => exact handlePlate_refines seen succeed.written wellFormed short
  | errorM msg | ticket issued | heartbeat =>
      left
      exact ⟨rfl, .unexpectedMessageType, by simp, rfl⟩

/-- A heartbeat request is not accepted without the timer that it wants. -/
theorem handleWantHeartbeat_timed {interval : UInt32} {final : Session}
    (done : handleMessage F calls (.wantHeartbeat interval) session = .done final) :
    calls.Timed (.wantHeartbeat interval) := by
  intro nonzero
  simp only [handleMessage, handleWantHeartbeat] at done
  split at done
  · cases done
  rw [if_neg nonzero] at done
  obtain ⟨middle, added, -⟩ := Outcome.andThen_eq_done.mp done
  unfold Client.addTimer at added
  repeat' split at added
  all_goals try cases added
  next timerfd created _ epollAdd => exact ⟨⟨timerfd, created⟩, epollAdd⟩

/-- A message that is handled without an error is accepted, and has its timer. -/
theorem handleMessage_done {msg : Message} {final : Session}
    (written : ∀ number, (calls.sends number).written = .all) (wellFormed : msg.WellFormed)
    (short : session.world.Short) (done : handleMessage F calls msg session = .done final) :
    session.client.proto.step msg = some final.client.proto ∧ calls.Timed msg ∧
      final.world.Short := by
  have timed : calls.Timed msg := by
    cases msg with
    | wantHeartbeat interval => exact handleWantHeartbeat_timed done
    | errorM | plate | ticket | heartbeat | camera | dispatcher => exact False.elim
  rcases handleMessage_refines (F := F) ⟨written, timed⟩ wellFormed short with
    ⟨-, error, -, raised⟩ |
      ⟨next, accepted, ⟨trapped, -⟩ | ⟨final', done', -, proto, finalShort, -⟩⟩
  · rw [done] at raised
    cases raised
  · rw [done] at trapped
    cases trapped
  · rw [done] at done'
    cases done'
    exact ⟨proto ▸ accepted, timed, finalShort⟩

/-- No message is answered as if the connection were closed. -/
theorem handleMessage_raised {msg : Message} {error : ServerError} {final : Session}
    (written : ∀ number, (calls.sends number).written = .all) (wellFormed : msg.WellFormed)
    (short : session.world.Short)
    (raised : handleMessage F calls msg session = .raised error final) :
    error ≠ .clientClosedConnection := by
  by_cases timed : calls.Timed msg
  · rcases handleMessage_refines (F := F) ⟨written, timed⟩ wellFormed short with
      ⟨-, other, differs, raised'⟩ | ⟨next, -, ⟨trapped, -⟩ | ⟨final', done, -⟩⟩
    · rw [raised] at raised'
      cases raised'
      exact differs
    · rw [raised] at trapped
      cases trapped
    · rw [raised] at done
      cases done
  · cases msg with
    | errorM | plate | ticket | heartbeat | camera | dispatcher => exact absurd False.elim timed
    | wantHeartbeat interval =>
        simp only [handleMessage, handleWantHeartbeat] at raised
        split at raised
        · cases raised
          simp
        split at raised
        · cases raised
        unfold Client.addTimer at raised
        repeat' split at raised
        all_goals
          cases raised
          try simp

/-! ### Lists of messages -/

/-- Some message of the accepted beginning meets the trap of a speed. -/
def SpeedTraps (F : Type) [F64 F] (calls : Nat → Calls) (i : Nat) (session : Session)
    (msgs : List Message) : Prop :=
  ∃ front msg back middle, session.client.proto.accepted msgs = front ++ msg :: back ∧
    Effects F calls i session front middle ∧ SpeedTrap F middle msg

/-- The loop has the effects of the longest accepted beginning, and returns an error
exactly when a message was rejected, unless the cast of a speed traps. -/
theorem handleLoop_follows {calls : Nat → Calls} {i : Nat} {msgs : List Message}
    (succeed : ∀ j msg, msgs[j]? = some msg → (calls (i + j)).Succeed msg)
    (wellFormed : ∀ msg ∈ msgs, msg.WellFormed) (short : session.world.Short) :
    handleLoop F calls i msgs session = .trap ∧ SpeedTraps F calls i session msgs ∨
      ∃ final, Effects F calls i session (session.client.proto.accepted msgs) final ∧
        (session.client.proto.accepted msgs = msgs →
          handleLoop F calls i msgs session = .done final) ∧
        (session.client.proto.accepted msgs ≠ msgs →
          ∃ error, handleLoop F calls i msgs session = .raised error final) ∧
        (session.client.data ≠ .unidentified →
          final.client.data = session.client.data) := by
  induction msgs generalizing i session with
  | nil => exact .inr ⟨session, .nil i session, fun _ => rfl, fun differ => absurd rfl differ,
      fun _ => rfl⟩
  | cons msg msgs ih =>
      rcases handleMessage_refines (F := F) (succeed 0 msg rfl) (wellFormed msg (by simp))
        short with ⟨rejected, error, -, raised⟩ | ⟨next, accepted, handled⟩
      · have none : session.client.proto.accepted (msg :: msgs) = [] := by
          rw [Proto.accepted, rejected]
        rw [Nat.add_zero] at raised
        rw [none, handleLoop, raised, Outcome.raised_andThen]
        exact .inr ⟨session, .nil i session, by simp, fun _ => ⟨error, rfl⟩, fun _ => rfl⟩
      have taken : session.client.proto.accepted (msg :: msgs) =
          msg :: next.accepted msgs := by
        rw [Proto.accepted, accepted]
      rw [Nat.add_zero] at handled
      rcases handled with ⟨trapped, speed⟩ | ⟨middle, done, effect, proto, middleShort, kept⟩
      · have loopTraps : handleLoop F calls i (msg :: msgs) session = .trap := by
          rw [handleLoop, trapped, Outcome.trap_andThen]
        exact .inl ⟨loopTraps, [], msg, _, session, taken, .nil i session, speed⟩
      have later : ∀ j msg, msgs[j]? = some msg → (calls (i + 1 + j)).Succeed msg := by
        intro j other found
        rw [show i + 1 + j = i + (j + 1) by omega]
        exact succeed (j + 1) other found
      rw [← proto] at taken
      rw [handleLoop, done, Outcome.done_andThen]
      rcases ih later (fun other member => wellFormed other (by simp [member])) middleShort
        with ⟨trapped, front, plate, back, last, split, effects, speed⟩ |
          ⟨final, effects, whole, cut, laterKept⟩
      · exact .inl ⟨trapped, msg :: front, plate, back, last, by rw [taken, split]; rfl,
          .cons effect effects, speed⟩
      · rw [taken]
        refine .inr ⟨final, .cons effect effects, fun same => whole (List.cons.inj same).2,
          fun differ => cut fun same => differ (by rw [same]), fun set => ?_⟩
        rw [laterKept (by rw [kept set]; exact set), kept set]

/-- A loop that ends without an error has accepted every message, with its timer. -/
theorem handleLoop_done {calls : Nat → Calls} {i : Nat} {msgs : List Message}
    {final : Session} (written : ∀ i number, ((calls i).sends number).written = .all)
    (wellFormed : ∀ msg ∈ msgs, msg.WellFormed) (short : session.world.Short)
    (done : handleLoop F calls i msgs session = .done final) :
    session.client.proto.accepted msgs = msgs ∧
      ∀ j msg, msgs[j]? = some msg → (calls (i + j)).Timed msg := by
  induction msgs generalizing i session with
  | nil => exact ⟨rfl, by simp⟩
  | cons msg msgs ih =>
      rw [handleLoop] at done
      obtain ⟨middle, handled, rest⟩ := Outcome.andThen_eq_done.mp done
      obtain ⟨accepted, timed, middleShort⟩ :=
        handleMessage_done (written i) (wellFormed msg (by simp)) short handled
      obtain ⟨later, laterTimed⟩ :=
        ih (fun other member => wellFormed other (by simp [member])) middleShort rest
      refine ⟨by simp only [Proto.accepted, accepted, later], fun j other found => ?_⟩
      cases j with
      | zero =>
          cases found
          exact timed
      | succ j =>
          rw [show i + (j + 1) = i + 1 + j by omega]
          exact laterTimed j other found

theorem handleLoop_raised {calls : Nat → Calls} {i : Nat} {msgs : List Message}
    {error : ServerError} {final : Session}
    (written : ∀ i number, ((calls i).sends number).written = .all)
    (wellFormed : ∀ msg ∈ msgs, msg.WellFormed) (short : session.world.Short)
    (raised : handleLoop F calls i msgs session = .raised error final) :
    error ≠ .clientClosedConnection := by
  induction msgs generalizing i session with
  | nil => cases raised
  | cons msg msgs ih =>
      rw [handleLoop] at raised
      have first := wellFormed msg (by simp)
      cases handled : handleMessage F (calls i) msg session with
      | trap => simp [handled] at raised
      | raised failure middle =>
          rw [handled] at raised
          cases raised
          exact handleMessage_raised (written i) first short handled
      | done middle =>
          rw [handled, Outcome.done_andThen] at raised
          obtain ⟨-, -, middleShort⟩ := handleMessage_done (written i) first short handled
          exact ih (fun other member => wellFormed other (by simp [member])) middleShort raised

/-- For every list of decoded messages and every client, the loop has the effects of
the longest accepted beginning and of nothing else, and returns an error exactly when
a message was rejected; it only traps where a speed does not fit its ticket.  What a
client was identified as never changes. -/
theorem handleLoop_refines {calls : Nat → Calls} {i : Nat} {msgs : List Message}
    (succeed : ∀ j msg, msgs[j]? = some msg → (calls (i + j)).Succeed msg)
    (wellFormed : ∀ msg ∈ msgs, msg.WellFormed) (short : session.world.Short) :
    (handleLoop F calls i msgs session = .trap → SpeedTraps F calls i session msgs) ∧
      (handleLoop F calls i msgs session ≠ .trap →
        ∃ final, Effects F calls i session (session.client.proto.accepted msgs) final ∧
          (session.client.proto.accepted msgs = msgs →
            handleLoop F calls i msgs session = .done final) ∧
          (session.client.proto.accepted msgs ≠ msgs →
            ∃ error, handleLoop F calls i msgs session = .raised error final) ∧
          (session.client.data ≠ .unidentified →
            final.client.data = session.client.data)) := by
  rcases handleLoop_follows (F := F) succeed wellFormed short with ⟨trapped, speed⟩ | follows
  · exact ⟨fun _ => speed, fun runs => absurd trapped runs⟩
  · refine ⟨fun trapped => ?_, fun _ => follows⟩
    obtain ⟨final, -, whole, cut, -⟩ := follows
    by_cases all : session.client.proto.accepted msgs = msgs
    · rw [whole all] at trapped
      cases trapped
    · obtain ⟨error, raised⟩ := cut all
      rw [raised] at trapped
      cases trapped

/-- A client that has sent nothing yet. -/
def newcomer : Session := ⟨.empty, .empty, .init 5, BoundedArray.clear⟩

/-- Calls that give no error. -/
def smoothCalls (_ : Nat) : Calls := ⟨fun _ => .least .all, .ok 9, none⟩

/-- A camera that asks for heartbeats, sees a plate, and then wants to be a
dispatcher. -/
def turncoat : List Message :=
  [.camera ⟨1, 2, 60⟩, .wantHeartbeat 10, .plate ⟨[65], 7⟩, .dispatcher [1]]

theorem handleLoop_refines_turncoat :
    ∃ final, Effects ℚ smoothCalls 0 newcomer
        [.camera ⟨1, 2, 60⟩, .wantHeartbeat 10, .plate ⟨[65], 7⟩] final ∧
      ∃ error, handleLoop ℚ smoothCalls 0 turncoat newcomer = .raised error final := by
  have runs : handleLoop ℚ smoothCalls 0 turncoat newcomer ≠ .trap := nofun
  have succeed : ∀ j msg, turncoat[j]? = some msg → (smoothCalls (0 + j)).Succeed msg :=
    fun _ _ _ => ⟨fun _ => rfl, fun _ => ⟨⟨9, rfl⟩, rfl⟩⟩
  have short : newcomer.world.Short := by
    intro ticket queued
    cases queued
  obtain ⟨final, effects, -, cut, -⟩ :=
    (handleLoop_refines succeed (by decide) short).2 runs
  exact ⟨final, effects, cut (by decide)⟩

end NetworkExercises.SpeedDaemon
