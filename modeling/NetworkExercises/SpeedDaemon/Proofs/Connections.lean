/-
Module: NetworkExercises.SpeedDaemon.Proofs.Connections
Purpose: Each connection of the server is a protocol automaton on its own bytes: what a client
  is known as, and what its fifo holds, does not depend on the other clients and the timers.
Main exports: Identity, arrivalsOf, Followed, eventStep_stays, server_refines_connections
-/
import NetworkExercises.SpeedDaemon.Proofs.Ownership
import NetworkExercises.SpeedDaemon.Proofs.ServerRefinement
import NetworkExercises.SpeedDaemon.Proofs.Stream

namespace NetworkExercises.SpeedDaemon

open Lib Checked

/-! ### What a client is known as -/

/-- The role of a client with the camera or the dispatcher that it is, and whether it has asked
for heartbeats. -/
structure Identity where
  data : ClientData
  asked : Bool
deriving DecidableEq, Repr

/-- A client that has just connected. -/
def Identity.start : Identity := ⟨.unidentified, false⟩

/-- The messages that the protocol allows a client with this identity. -/
def Identity.step (fd : SocketFd) (identity : Identity) : Message → Option Identity
  | .camera position =>
      if identity.data = .unidentified then
        some { identity with
          data := .camera ⟨fd, position.road, position.mile, position.limit⟩ }
      else none
  | .dispatcher roads =>
      if identity.data = .unidentified then
        some { identity with data := .dispatcher ⟨fd, roads⟩ }
      else none
  | .wantHeartbeat _ => if identity.asked then none else some { identity with asked := true }
  | .plate _ =>
      match identity.data with
      | .camera _ => some identity
      | _ => none
  | .errorM _ | .ticket _ | .heartbeat => none

def Client.identity (client : Client) : Identity :=
  ⟨client.data, client.heartbeatRequested || client.timer.isSome⟩

section Arithmetic

variable {F : Type} [F64 F] {session final : Session}

/-- A pass leaves the client alone. -/
theorem Session.dispatch_client {sends : Nat → Sending}
    (reaches : (session.dispatch sends).Reaches final) : final.client = session.client := by
  obtain ⟨pass, -, rfl⟩ := Outcome.map_reaches reaches
  rfl

theorem handleWantHeartbeat_identity {calls : Calls} {interval : UInt32}
    (done : handleWantHeartbeat calls interval session = .done final) :
    session.client.identity.asked = false ∧
      final.client.identity = { session.client.identity with asked := true } ∧
        final.client.fd = session.client.fd := by
  simp only [handleWantHeartbeat] at done
  split at done
  · cases done
  next free =>
  rw [not_or, Bool.not_eq_true, Bool.not_eq_true] at free
  have unasked : session.client.identity.asked = false := by simp [Client.identity, free]
  refine ⟨unasked, ?_⟩
  split at done
  · cases done
    exact ⟨rfl, rfl⟩
  · obtain ⟨middle, added, rest⟩ := Outcome.andThen_eq_done.mp done
    have timed : ∃ timer, middle = { session with
        client := { session.client with timer := some timer } } := by
      unfold Client.addTimer at added
      repeat' split at added
      all_goals cases added
      exact ⟨_, rfl⟩
    obtain ⟨timer, rfl⟩ := timed
    cases rest
    simp [Client.identity]

/-- A message that is handled is one that the protocol allows. -/
theorem handleMessage_identity {calls : Calls} {msg : Message}
    (done : handleMessage F calls msg session = .done final) :
    session.client.identity.step session.client.fd msg = some final.client.identity ∧
      final.client.fd = session.client.fd := by
  cases msg with
  | heartbeat | errorM msg | ticket issued => cases done
  | camera position =>
      rw [handleMessage, handleIAmCamera] at done
      split at done
      · cases done
      next unidentified =>
      have free := Client.type_eq_unidentified.mp (not_not.mp unidentified)
      rw [Client.setAsCamera, if_neg unidentified] at done
      cases done
      exact ⟨by simp [Identity.step, Client.identity, free], rfl⟩
  | dispatcher roads =>
      rw [handleMessage, handleIAmDispatcher] at done
      split at done
      · cases done
      next unidentified =>
      have free := Client.type_eq_unidentified.mp (not_not.mp unidentified)
      rw [setAsDispatcher_free (not_not.mp unidentified)] at done
      rw [Session.dispatch_client (.inl done)]
      exact ⟨by simp [Identity.step, Client.identity, free], rfl⟩
  | wantHeartbeat interval =>
      obtain ⟨unasked, identity, fdEq⟩ := handleWantHeartbeat_identity done
      exact ⟨by rw [identity, Identity.step, unasked]; rfl, fdEq⟩
  | plate seen =>
      simp only [handleMessage, handlePlate] at done
      split at done
      · next camera data =>
        have allowed : session.client.identity.step session.client.fd (.plate seen) =
            some session.client.identity := by simp [Identity.step, Client.identity, data]
        have same : final.client = session.client := by
          split at done
          · cases done
          · cases done
          · split at done
            · have kept := Session.dispatch_client (.inl done)
              exact kept
            · cases done
              rfl
        rw [same]
        exact ⟨allowed, rfl⟩
      · cases done

/-- Messages that are all handled are a run of the protocol. -/
theorem handleLoop_identity {calls : Nat → Calls} {i : Nat} {msgs : List Message}
    (done : handleLoop F calls i msgs session = .done final) :
    run (Identity.step session.client.fd) session.client.identity msgs =
        some final.client.identity ∧
      final.client.fd = session.client.fd := by
  induction msgs generalizing i session with
  | nil =>
      cases done
      exact ⟨rfl, rfl⟩
  | cons msg msgs ih =>
      rw [handleLoop] at done
      obtain ⟨middle, handled, rest⟩ := Outcome.andThen_eq_done.mp done
      obtain ⟨step, fdEq⟩ := handleMessage_identity handled
      obtain ⟨ran, laterFd⟩ := ih rest
      rw [fdEq] at ran laterFd
      exact ⟨run_cons_eq_some.mpr ⟨_, step, ran⟩, laterFd⟩

/-- Messages that are handled without an error were decoded from the fifo and what arrived. -/
theorem handleMessages_done {arrival : Arrival} {calls : Nat → Calls}
    (done : handleMessages F arrival calls session = .done final) :
    ∃ fifo msgs len left looped, session.client.fifo = some fifo ∧
      receive fifo arrival = .messages msgs len left ∧
      handleLoop F calls 0 msgs (session.withFifo left) = .done looped ∧
      final = looped.discard len := by
  unfold handleMessages at done
  cases held : session.client.fifo with
  | none =>
      rw [held] at done
      cases done
  | some fifo =>
      rw [held] at done
      simp only at done
      cases received : receive fifo arrival with
      | trap =>
          rw [received] at done
          cases done
      | failed error left =>
          rw [received] at done
          cases done
      | messages msgs len left =>
          rw [received] at done
          simp only at done
          cases looped : handleLoop F calls 0 msgs (session.withFifo left) with
          | trap =>
              rw [looped] at done
              cases done
          | raised error middle =>
              rw [looped] at done
              cases done
          | done middle =>
              rw [looped] at done
              cases done
              exact ⟨fifo, msgs, len, left, middle, rfl, received, looped, rfl⟩

theorem receive_ending {fifo left : Bytes} {arrival : Arrival} {msgs : List Message} {len : Nat}
    (received : receive fifo arrival = .messages msgs len left) :
    arrival.ending = .wouldBlock := by
  simp only [receive] at received
  split at received
  · cases received
  · cases received
  · next ending => exact ending

end Arithmetic

/-! ### The bytes of a connection -/

/-- What has arrived on a descriptor since a connection was accepted on it last. -/
def arrivalsOf (serverfd fd : SocketFd) (events : List Event) : List Arrival :=
  events.foldl
    (fun arrivals event =>
      if event.socket = serverfd then
        if event.sys.accepted = .ok fd then [] else arrivals
      else if event.socket = fd then arrivals ++ [event.sys.arrival] else arrivals) []

variable {serverfd fd : SocketFd} {past : List Event} {event : Event}

theorem arrivalsOf_accepted (isServer : event.socket = serverfd)
    (accepted : event.sys.accepted = .ok fd) : arrivalsOf serverfd fd (past ++ [event]) = [] := by
  simp [arrivalsOf, List.foldl_append, isServer, accepted]

theorem arrivalsOf_accepted_other (isServer : event.socket = serverfd)
    (other : event.sys.accepted ≠ .ok fd) :
    arrivalsOf serverfd fd (past ++ [event]) = arrivalsOf serverfd fd past := by
  simp [arrivalsOf, List.foldl_append, isServer, other]

theorem arrivalsOf_arrived (notServer : event.socket ≠ serverfd) (own : event.socket = fd) :
    arrivalsOf serverfd fd (past ++ [event]) =
      arrivalsOf serverfd fd past ++ [event.sys.arrival] := by
  subst own
  simp [arrivalsOf, List.foldl_append, notServer]

theorem arrivalsOf_other (notServer : event.socket ≠ serverfd) (other : event.socket ≠ fd) :
    arrivalsOf serverfd fd (past ++ [event]) = arrivalsOf serverfd fd past := by
  simp [arrivalsOf, List.foldl_append, notServer, other]

/-- The client is where its own arrivals have brought it: they were received without an error,
the messages in them were allowed by the protocol and made it what it is known as, and its fifo
holds the bytes behind them. -/
structure Followed (fd : SocketFd) (arrivals : List Arrival) (client : Client)
    (delivery : Delivery) : Prop where
  delivered : run deliverStep .empty arrivals = some delivery
  errors : delivery.errors = []
  fifo : client.fifo = some delivery.fifo
  identity : run (Identity.step fd) .start delivery.delivered = some client.identity
  ending : ∀ arrival ∈ arrivals, arrival.ending = .wouldBlock

theorem followed_init (fd : SocketFd) : Followed fd [] (.init fd) .empty :=
  ⟨rfl, rfl, rfl, rfl, nofun⟩

section Arithmetic

variable {F : Type} [F64 F] {client : Client} {session final : Session}
  {arrivals : List Arrival} {arrival : Arrival}

/-- An arrival whose messages are all handled is followed. -/
theorem Followed.arrived {delivery : Delivery} {calls : Nat → Calls}
    (followed : Followed fd arrivals session.client delivery)
    (keyed : session.client.fd = fd)
    (done : handleMessages F arrival calls session = .done final) :
    ∃ next, Followed fd (arrivals ++ [arrival]) final.client next := by
  obtain ⟨fifo, msgs, len, left, looped, held, received, loopedEq, rfl⟩ :=
    handleMessages_done done
  obtain rfl : delivery.fifo = fifo := Option.some.inj (followed.fifo.symm.trans held)
  have step : deliverStep delivery arrival = some { delivery with
      fifo := left.drop len, delivered := delivery.delivered ++ msgs } := by
    rw [deliverStep, received]
  obtain ⟨identified, -⟩ := handleLoop_identity loopedEq
  refine ⟨_, run_append_eq_some.mpr ⟨delivery, followed.delivered,
    run_cons_eq_some.mpr ⟨_, step, rfl⟩⟩, followed.errors,
    handleMessages_fifo followed.fifo step (.inl done), ?_,
    List.forall_mem_append.mpr ⟨followed.ending, ?_⟩⟩
  · exact run_append_eq_some.mpr ⟨_, followed.identity, keyed ▸ identified⟩
  · exact List.forall_mem_singleton.mpr (receive_ending received)

/-! ### Every connection at once -/

theorem Clients.put_map (self : Clients) (fd : SocketFd) (client : Client) :
    (self.put fd client).map = Function.update self.map fd (some client) := rfl

variable {state next : ServerState} {events : List Event} {after : Client}

/-- A client that is connected after an event for a client or a timer was there before: the event
was not its own, or its messages have been handled. -/
theorem eventStep_stays (consistent : state.registries.Consistent serverfd)
    (orderly : Orderly serverfd state event) (notServer : event.socket ≠ serverfd)
    (step : eventStep F serverfd state event = some next)
    (found : next.clients.map fd = some after) :
    (fd ≠ event.socket ∧ state.clients.map fd = some after) ∨
      ∃ client session, fd = event.socket ∧ state.clients.map fd = some client ∧
        handleMessages F event.sys.arrival event.sys.calls (state.session client) =
          .done session ∧ session.client = after := by
  -- A timer is no client.
  have apart : ∀ {timer : Timer}, state.timers.map event.socket = some timer →
      ∀ fd client, state.clients.map fd = some client → fd ≠ event.socket := by
    rintro timer timed fd client found rfl
    have untimed : state.timers.map event.socket = none := consistent.apart _ client found
    rw [timed] at untimed
    cases untimed
  have effect := eventStep_effect consistent orderly .empty step
  generalize eventEpoll F serverfd state event .empty = epoll at effect
  cases effect with
  | refused isServer | accepted isServer => exact absurd isServer notServer
  | unknown _ noTimer noClient same =>
      rw [show next.clients = state.clients from congrArg Registries.clients same] at found
      refine .inl ⟨?_, found⟩
      rintro rfl
      rw [noClient] at found
      cases found
  | beat _ timer timed same =>
      rw [show next.clients = state.clients from congrArg Registries.clients same] at found
      exact .inl ⟨apart timed fd after found, found⟩
  | served _ client known session done registries =>
      rw [show next.clients = _ from congrArg Registries.clients registries] at found
      by_cases own : fd = event.socket
      · subst own
        rw [Session.registries_client, Option.some.injEq] at found
        exact .inr ⟨client, session, rfl, known, done, found⟩
      · have before : (state.clients.put event.socket session.client).map fd = some after := found
        rw [Clients.put_map, Function.update_of_ne own] at before
        exact .inl ⟨own, before⟩
  | removed _ gone client known own registries =>
      rw [show next.clients = _ from congrArg Registries.clients registries] at found
      by_cases isGone : fd = gone
      · simp [Registries.remove, isGone] at found
      have before : state.clients.map fd = some after := by
        simpa [Registries.remove, isGone] using found
      refine .inl ⟨?_, before⟩
      rcases own with isSocket | ⟨timer, set, named⟩
      · exact isSocket ▸ isGone
      · have clientfd : timer.clientfd = gone := consistent.owned gone client timer known set
        exact apart ((consistent.timed event.socket timer).mpr
          ⟨named, client, clientfd ▸ known, set⟩) fd after before
  | failed _ client known error session raised registries =>
      rw [show next.clients = _ from congrArg Registries.clients registries] at found
      by_cases isGone : fd = event.socket
      · simp [Registries.remove, isGone] at found
      · refine .inl ⟨isGone, ?_⟩
        simpa [Registries.remove, Session.registries, Clients.put, isGone] using found

/-- A connection that is accepted is a new client, and the others are those that were there. -/
theorem eventStep_accepts (orderly : Orderly serverfd state event)
    (isServer : event.socket = serverfd) (step : eventStep F serverfd state event = some next)
    (found : next.clients.map fd = some after) :
    (event.sys.accepted = .ok fd ∧ after = .init fd) ∨
      (event.sys.accepted ≠ .ok fd ∧ state.clients.map fd = some after) := by
  rw [eventStep, if_pos isServer, acceptClient] at step
  cases accepted : event.sys.accepted with
  | error errorName =>
      rw [accepted] at step
      cases step
      exact .inr ⟨by rintro ⟨⟩, found⟩
  | ok newfd =>
      rw [accepted, orderly.epollAdd] at step
      cases step
      by_cases new : fd = newfd
      · subst new
        have isNew : (state.clients.put fd (.init fd)).map fd = some after := found
        rw [Clients.put_map, Function.update_self, Option.some.injEq] at isNew
        exact .inl ⟨rfl, isNew.symm⟩
      · have before : (state.clients.put newfd (.init newfd)).map fd = some after := found
        rw [Clients.put_map, Function.update_of_ne new] at before
        exact .inr ⟨by rintro ⟨⟩; exact new rfl, before⟩

/-- Every connected client is followed. -/
def AllFollowed (serverfd : SocketFd) (past : List Event) (state : ServerState) : Prop :=
  ∀ fd client, state.clients.map fd = some client →
    ∃ delivery, Followed fd (arrivalsOf serverfd fd past) client delivery

theorem eventStep_followed (consistent : state.registries.Consistent serverfd)
    (orderly : Orderly serverfd state event) (all : AllFollowed serverfd past state)
    (step : eventStep F serverfd state event = some next) :
    AllFollowed serverfd (past ++ [event]) next := by
  intro fd after found
  by_cases isServer : event.socket = serverfd
  · rcases eventStep_accepts orderly isServer step found with ⟨accepted, rfl⟩ | ⟨other, before⟩
    · rw [arrivalsOf_accepted isServer accepted]
      exact ⟨.empty, followed_init fd⟩
    · rw [arrivalsOf_accepted_other isServer other]
      exact all fd after before
  · rcases eventStep_stays consistent orderly isServer step found with
      ⟨other, before⟩ | ⟨client, session, own, before, done, rfl⟩
    · rw [arrivalsOf_other isServer (Ne.symm other)]
      exact all fd after before
    · obtain ⟨delivery, followed⟩ := all fd client before
      rw [arrivalsOf_arrived isServer own.symm]
      exact followed.arrived (consistent.keyed _ client before) done

/-- Whatever else happens in an orderly run, each connected client is known as what the messages
in its own bytes since it connected make it, and its fifo holds the bytes behind them; when these
bytes are a beginning of a stream of messages, those messages are the whole ones. -/
theorem server_refines_connections
    (orderly : EachStep (Orderly serverfd) (eventStep F serverfd) .init events)
    (ran : run (eventStep F serverfd) .init events = some state)
    (connected : state.clients.map fd = some client) :
    ∃ delivery, Followed fd (arrivalsOf serverfd fd events) client delivery ∧
      ∀ messages, (∀ message ∈ messages, message.Streamed) →
        received (arrivalsOf serverfd fd events) <+: wireAll messages →
        delivery.delivered = complete Message.wire messages
          (received (arrivalsOf serverfd fd events)).length := by
  have initial : ServerState.init.registries.Consistent serverfd ∧
      AllFollowed serverfd [] .init :=
    ⟨.empty serverfd, fun fd client found => nomatch found⟩
  have both : state.registries.Consistent serverfd ∧
      AllFollowed serverfd ([] ++ events) state := by
    refine run_relates_when (Orderly serverfd)
      (fun past state => state.registries.Consistent serverfd ∧ AllFollowed serverfd past state)
      ?_ [] initial orderly ran
    rintro past state event next ⟨consistent, all⟩ orderly step
    exact ⟨eventStep_consistent consistent orderly step,
      eventStep_followed consistent orderly all step⟩
  obtain ⟨delivery, followed⟩ := both.2 fd client connected
  exact ⟨delivery, followed, fun messages streamed segments =>
    (delivered_of_run streamed segments followed.delivered followed.errors).whole⟩

end Arithmetic

section Smooth

/-- The descriptor belongs to no client and no timer. -/
def ServerState.Spare (state : ServerState) (fd : SocketFd) : Prop :=
  (state.clients.map fd).isNone = true ∧ (state.timers.map fd).isNone = true

instance (state : ServerState) (fd : SocketFd) : Decidable (state.Spare fd) :=
  inferInstanceAs (Decidable (_ ∧ _))

/-- Calls that give no error are orderly when the new descriptors are spare. -/
theorem orderly_smooth {state : ServerState} {event : Event}
    (smooth : ∃ arrival fd, event.sys = { smoothSys arrival with accepted := .ok fd })
    (spare : state.Spare 9 ∧ (event.socket = 3 →
      event.sys.accepted ≠ .ok 3 ∧ ∀ fd ∈ event.sys.accepted.toOption, state.Spare fd)) :
    Orderly 3 state event := by
  obtain ⟨arrival, fd, sysEq⟩ := smooth
  have unused : ∀ fd, fd ≠ 3 → state.Spare fd → state.registries.Unused 3 fd :=
    fun fd differs spare =>
      ⟨differs, Option.isNone_iff_eq_none.mp spare.1, Option.isNone_iff_eq_none.mp spare.2⟩
  refine ⟨by rw [sysEq]; rfl, fun i => by rw [sysEq]; rfl, by rw [sysEq]; rfl,
    by rw [sysEq]; rfl, ?_, ?_⟩
  · intro isServer other opened
    obtain ⟨differs, others⟩ := spare.2 isServer
    refine unused other ?_ (others other (by rw [opened]; rfl))
    rintro rfl
    exact differs opened
  · intro client found untimed i timerfd created
    rw [sysEq] at created
    obtain rfl : 9 = timerfd := Except.ok.inj created
    exact unused 9 (by decide) spare.1

theorem smooth_speeding : ∀ event ∈ speedingEvents, ∃ arrival fd,
    event.sys = { smoothSys arrival with accepted := .ok fd } := by
  intro event member
  simp only [speedingEvents, List.mem_cons, List.not_mem_nil, or_false] at member
  rcases member with rfl | rfl | rfl | rfl | rfl | rfl <;> exact ⟨_, _, rfl⟩

theorem orderly_speeding : EachStep (Orderly 3) (eventStep ℚ 3) .init speedingEvents := by
  have spare : EachStep (fun (state : ServerState) (event : Event) =>
      state.Spare 9 ∧ (event.socket = 3 →
        event.sys.accepted ≠ .ok 3 ∧ ∀ fd ∈ event.sys.accepted.toOption, state.Spare fd))
      (eventStep ℚ 3) .init speedingEvents := by decide +kernel
  exact (spare.and_forall smooth_speeding).of_invariant (fun _ => True)
    (fun _ _ _ both => orderly_smooth both.2 both.1) (fun _ _ _ _ _ _ => trivial) trivial

theorem written_speeding : ∀ event ∈ speedingEvents, event.sys.Written := by
  intro event member
  obtain ⟨arrival, fd, sysEq⟩ := smooth_speeding event member
  rw [sysEq]
  exact ⟨rfl, rfl, fun _ _ => rfl⟩

end Smooth

/-- The second camera, after the dispatcher has identified itself. -/
theorem server_refines_connections_speeding :
    ∃ state client delivery, run (eventStep ℚ 3) .init speedingEvents = some state ∧
      state.clients.map 6 = some client ∧
      Followed 6 (arrivalsOf 3 6 speedingEvents) client delivery := by
  have ran : (run (eventStep ℚ 3) .init speedingEvents).map
      (fun state => (state.clients.map 6).isSome) = some true := by decide +kernel
  obtain ⟨state, ranEq, connected⟩ := Option.map_eq_some_iff.mp ran
  obtain ⟨client, found⟩ := Option.isSome_iff_exists.mp connected
  obtain ⟨delivery, followed, -⟩ := server_refines_connections orderly_speeding ranEq found
  exact ⟨state, client, delivery, ranEq, found, followed⟩

end NetworkExercises.SpeedDaemon
