/-
Module: NetworkExercises.SpeedDaemon.Proofs.ServerRefinement
Purpose: Every run of the server is a run of the operations on the shared state, whatever is
  written to the sockets in between.
Main exports: SameBooks, eventStep_operates, serverOperations_run
-/
import NetworkExercises.SpeedDaemon.Operations
import NetworkExercises.SpeedDaemon.Proofs.Output

namespace NetworkExercises.SpeedDaemon

open Lib

/-! ### A pass does not look at the sockets -/

section Passes

variable {roads : Roads} {sends : Nat → Sending} {pass other : Pass}

/-- Sending a ticket ends alike from any sockets. -/
theorem sendTicket_alike (same : pass.tickets = other.tickets) (fd : SocketFd) (ticket : Ticket)
    (written : WriteResult) :
    (∃ error after otherAfter,
      sendTicket fd (.ticket ticket) written { pass with buf := BoundedArray.clear } =
          .raised error after ∧
        sendTicket fd (.ticket ticket) written { other with buf := BoundedArray.clear } =
          .raised error otherAfter ∧ after.tickets = otherAfter.tickets) ∨
    ∃ after otherAfter,
      sendTicket fd (.ticket ticket) written { pass with buf := BoundedArray.clear } =
          .done after ∧
        sendTicket fd (.ticket ticket) written { other with buf := BoundedArray.clear } =
          .done otherAfter ∧ after.tickets = otherAfter.tickets := by
  have isTicket : ¬ (Message.ticket ticket).type ≠ .ticket := by simp [Message.type]
  simp only [sendTicket, if_neg isTicket]
  cases hostToNetwork (.ticket ticket) BoundedArray.clear with
  | error error => exact .inl ⟨_, _, _, rfl, rfl, same⟩
  | ok buf =>
      cases written with
      | all => exact .inr ⟨_, _, rfl, rfl, same⟩
      | failed count errorName => exact .inl ⟨_, _, _, rfl, rfl, same⟩

theorem dispatchLoop_alike (same : pass.tickets = other.tickets) (left taken : Nat) :
    (dispatchLoop roads sends left taken pass).map Pass.tickets =
      (dispatchLoop roads sends left taken other).map Pass.tickets := by
  induction left generalizing taken pass other with
  | zero => rw [dispatchLoop, dispatchLoop, Outcome.map_done, Outcome.map_done, same]
  | succ left ih =>
      rw [dispatchLoop, dispatchLoop, ← same]
      cases pass.tickets.queue.find? roads.deliverable with
      | none => rw [Outcome.map_done, Outcome.map_done, same]
      | some ticket =>
          rcases sendTicket_alike same ((sends taken).next (roads.dispatchers ticket.road)) ticket
            (sends taken).written with ⟨error, after, otherAfter, first, second, tickets⟩ |
              ⟨after, otherAfter, first, second, tickets⟩
          · simp only [same] at first ⊢
            rw [first, second, Outcome.raised_andThen, Outcome.raised_andThen, Outcome.map_raised,
              Outcome.map_raised, tickets]
          · simp only [same] at first ⊢
            rw [first, second, Outcome.done_andThen, Outcome.done_andThen]
            exact ih (by simp only [tickets]) (taken + 1)

/-- What becomes of the tickets in a pass depends on the roads and the sends only. -/
theorem dispatchTicketsQueue_alike (same : pass.tickets = other.tickets) :
    (dispatchTicketsQueue roads sends pass).map Pass.tickets =
      (dispatchTicketsQueue roads sends other).map Pass.tickets := by
  unfold dispatchTicketsQueue
  rw [same]
  split
  · rw [Outcome.map_done, Outcome.map_done, same]
  · exact dispatchLoop_alike same _ 0

end Passes

/-! ### The books of two worlds -/

/-- The same cars, roads and tickets; only the sockets may differ. -/
structure SameBooks (world other : World) : Prop where
  cars : world.cars = other.cars
  roads : world.roads = other.roads
  tickets : world.tickets = other.tickets

theorem SameBooks.refl (world : World) : SameBooks world world := ⟨rfl, rfl, rfl⟩

/-- An unidentified client always becomes a dispatcher. -/
theorem setAsDispatcher_free {client : Client} (free : client.type = .unidentified)
    (roads : List UInt16) :
    client.setAsDispatcher (.dispatcher roads) =
      .ok ({ client with data := .dispatcher ⟨client.fd, roads⟩ }, ⟨client.fd, roads⟩) := by
  rw [Client.setAsDispatcher, if_neg (not_not.mpr free), if_neg (by simp [Message.type])]
  rfl

section Arithmetic

variable {F : Type} [F64 F] {world other : World} {session final : Session}

variable (F) in
/-- A pass in a session is the operation. -/
theorem dispatch_operates (same : SameBooks session.world other) {sends : Nat → Sending}
    (reaches : (session.dispatch sends).Reaches final) :
    ∃ after, worldStep F other (.dispatchTicketsQueue sends) = some after ∧
      SameBooks final.world after := by
  obtain ⟨pass, passed, rfl⟩ := Outcome.map_reaches reaches
  have alike : (dispatchTicketsQueue session.world.roads sends
      ⟨session.world.tickets, session.buf, session.world.net⟩).map Pass.tickets =
        (dispatchTicketsQueue session.world.roads sends
          ⟨other.tickets, BoundedArray.clear, other.net⟩).map Pass.tickets :=
    dispatchTicketsQueue_alike same.tickets
  simp only [worldStep, ← same.roads]
  rcases passed with done | ⟨error, raised⟩
  · rw [done] at alike
    cases ended : dispatchTicketsQueue session.world.roads sends
        ⟨other.tickets, BoundedArray.clear, other.net⟩ with
    | done after =>
        rw [ended, Outcome.map_done, Outcome.map_done, Outcome.done.injEq] at alike
        exact ⟨_, rfl, same.cars, same.roads, alike⟩
    | raised error after =>
        rw [ended] at alike
        cases alike
    | trap =>
        rw [ended] at alike
        cases alike
  · rw [raised] at alike
    cases ended : dispatchTicketsQueue session.world.roads sends
        ⟨other.tickets, BoundedArray.clear, other.net⟩ with
    | done after =>
        rw [ended] at alike
        cases alike
    | raised error' after =>
        rw [ended, Outcome.map_raised, Outcome.map_raised, Outcome.raised.injEq] at alike
        exact ⟨_, rfl, same.cars, same.roads, alike.2⟩
    | trap =>
        rw [ended] at alike
        cases alike

/-- An observation in a session is the operation. -/
theorem observe_operates (same : SameBooks session.world other) {seen : Plate} {camera : Camera}
    {cars : Cars} {tickets : TicketsQueue} {ntickets : Nat}
    (observed : SpeedDaemon.observe F session.world.cars session.world.tickets seen camera =
      .ok (cars, tickets, ntickets)) :
    ∃ after, worldStep F other (.addObservation seen camera) = some after ∧
      SameBooks (session.observed cars tickets).world after := by
  rw [same.cars, same.tickets] at observed
  exact ⟨{ other with cars := cars, tickets := tickets }, by simp only [worldStep, observed],
    rfl, same.roads, rfl⟩

/-- Handling a message is a run of its operations. -/
theorem handleMessage_operates {calls : Calls} {msg : Message}
    (same : SameBooks session.world other)
    (reaches : (handleMessage F calls msg session).Reaches final) :
    ∃ after, run (worldStep F) other (messageOperations F calls msg session) = some after ∧
      SameBooks final.world after := by
  cases msg with
  | heartbeat | errorM msg | ticket issued =>
      rw [handleMessage, Outcome.raised_reaches] at reaches
      exact ⟨other, rfl, reaches ▸ same⟩
  | camera position =>
      exact ⟨other, rfl, (handleIAmCamera_frame reaches).1 ▸ same⟩
  | wantHeartbeat interval =>
      obtain ⟨requested, timer, timers, rfl⟩ := handleWantHeartbeat_reaches reaches
      exact ⟨other, rfl, same⟩
  | dispatcher roads =>
      rw [handleMessage, handleIAmDispatcher] at reaches
      rw [messageOperations]
      split at reaches
      · next identified =>
        rw [if_neg identified]
        rw [Outcome.raised_reaches] at reaches
        exact ⟨other, rfl, reaches ▸ same⟩
      next unidentified =>
      rw [if_pos (not_not.mp unidentified)]
      rw [setAsDispatcher_free (not_not.mp unidentified)] at reaches
      have registered : SameBooks
          { session.world with
            roads := session.world.roads.addDispatcher ⟨session.client.fd, roads⟩ }
          { other with roads := other.roads.addDispatcher ⟨session.client.fd, roads⟩ } :=
        ⟨same.cars, by simp only [same.roads], same.tickets⟩
      obtain ⟨after, passed, books⟩ := dispatch_operates F registered reaches
      refine ⟨after, run_cons_eq_some.mpr ⟨_, rfl, ?_⟩, books⟩
      exact run_cons_eq_some.mpr ⟨after, passed, rfl⟩
  | plate seen =>
      simp only [handleMessage, handlePlate] at reaches
      simp only [messageOperations]
      cases data : session.client.data with
      | unidentified | dispatcher disp =>
          rw [data, Outcome.raised_reaches] at reaches
          exact ⟨other, rfl, reaches ▸ same⟩
      | camera camera =>
          rw [data] at reaches
          simp only at reaches ⊢
          cases observed : SpeedDaemon.observe F session.world.cars session.world.tickets seen
              camera with
          | error fault =>
              rw [observed] at reaches
              cases fault with
              | trap => exact absurd reaches Outcome.not_trap_reaches
              | error error =>
                  rw [Outcome.raised_reaches] at reaches
                  refine ⟨other, run_cons_eq_some.mpr ⟨other, ?_, rfl⟩, reaches ▸ same⟩
                  simp only [worldStep, ← same.cars, ← same.tickets, observed]
          | ok result =>
              obtain ⟨cars, tickets, ntickets⟩ := result
              obtain ⟨middle, recorded, books⟩ := observe_operates same observed
              rw [observed] at reaches
              simp only at reaches ⊢
              split at reaches
              · next some =>
                rw [if_pos some]
                obtain ⟨after, passed, books⟩ := dispatch_operates F books reaches
                refine ⟨after, run_cons_eq_some.mpr ⟨middle, recorded, ?_⟩, books⟩
                exact run_cons_eq_some.mpr ⟨after, passed, rfl⟩
              · next none =>
                rw [if_neg none]
                rw [Outcome.done_reaches] at reaches
                exact ⟨middle, run_cons_eq_some.mpr ⟨middle, recorded, rfl⟩, reaches ▸ books⟩

/-- Handling the messages of an event is a run of their operations. -/
theorem handleLoop_operates {calls : Nat → Calls} {i : Nat} {msgs : List Message}
    (same : SameBooks session.world other)
    (reaches : (handleLoop F calls i msgs session).Reaches final) :
    ∃ after, run (worldStep F) other (loopOperations F calls i msgs session) = some after ∧
      SameBooks final.world after := by
  induction msgs generalizing i session other with
  | nil =>
      rw [handleLoop, Outcome.done_reaches] at reaches
      exact ⟨other, rfl, reaches ▸ same⟩
  | cons msg msgs ih =>
      rw [handleLoop] at reaches
      rw [loopOperations]
      rcases Outcome.andThen_reaches reaches with ⟨error, failed⟩ | ⟨middle, handled, rest⟩
      · obtain ⟨after, ran, books⟩ := handleMessage_operates same (.inr ⟨error, failed⟩)
        rw [failed]
        exact ⟨after, by rwa [List.append_nil], books⟩
      · obtain ⟨between, ran, books⟩ := handleMessage_operates same (.inl handled)
        obtain ⟨after, others, books⟩ := ih books rest
        rw [handled]
        exact ⟨after, run_append_eq_some.mpr ⟨between, ran, others⟩, books⟩

theorem handleMessages_operates {arrival : Arrival} {calls : Nat → Calls}
    (same : SameBooks session.world other)
    (reaches : (handleMessages F arrival calls session).Reaches final) :
    ∃ after, run (worldStep F) other (arrivalOperations F arrival calls session) = some after ∧
      SameBooks final.world after := by
  unfold handleMessages at reaches
  unfold arrivalOperations
  cases held : session.client.fifo with
  | none =>
      rw [held] at reaches
      exact absurd reaches Outcome.not_trap_reaches
  | some fifo =>
      rw [held] at reaches
      simp only at reaches ⊢
      cases received : receive fifo arrival with
      | trap =>
          rw [received] at reaches
          exact absurd reaches Outcome.not_trap_reaches
      | failed error left =>
          rw [received, Outcome.raised_reaches] at reaches
          exact ⟨other, rfl, reaches ▸ same⟩
      | messages msgs len left =>
          rw [received] at reaches
          obtain ⟨looped, reached, rfl⟩ := Outcome.map_reaches reaches
          have refilled : SameBooks (session.withFifo left).world other := same
          obtain ⟨after, ran, books⟩ := handleLoop_operates refilled reached
          exact ⟨after, ran, books⟩

/-! ### Events -/

variable {serverfd : SocketFd} {state next : ServerState} {event : Event}

variable (F) in
/-- Removing a client is a run of its operations. -/
theorem removeFd_operates {sys : Sys} {fd : SocketFd} {client : Client}
    {errorMsg : Option Bytes} {buf : U8BoundedArray} (same : SameBooks state.world other)
    (removed : removeFd sys fd client errorMsg buf state = some next) :
    ∃ after, run (worldStep F) other client.removal = some after ∧
      SameBooks next.world after := by
  obtain ⟨deleted, -, rfl⟩ := Option.map_eq_some_iff.mp removed
  unfold Client.removal
  cases client.data with
  | camera camera | unidentified => exact ⟨other, rfl, same.cars, same.roads, same.tickets⟩
  | dispatcher disp =>
      refine ⟨{ other with roads := other.roads.removeDispatcher disp }, rfl, same.cars, ?_,
        same.tickets⟩
      simp only [same.roads]

theorem acceptClient_operates (same : SameBooks state.world other)
    (step : acceptClient event.sys state = some next) :
    ∃ after, run (worldStep F) other (acceptOperations event.sys state) = some after ∧
      SameBooks next.world after := by
  unfold acceptClient at step
  unfold acceptOperations
  cases accepted : event.sys.accepted with
  | error errorName =>
      rw [accepted] at step
      cases step
      exact ⟨other, rfl, same⟩
  | ok clientfd =>
      rw [accepted] at step
      cases added : event.sys.epollAdd with
      | none =>
          rw [added] at step
          cases step
          exact ⟨other, rfl, same.cars, same.roads, same.tickets⟩
      | some errorName =>
          rw [added] at step
          simp only at step ⊢
          split at step
          · cases step
          · next client found =>
            rw [found]
            exact removeFd_operates F (by exact ⟨same.cars, same.roads, same.tickets⟩) step

theorem handleTimer_operates {timer : Timer} (same : SameBooks state.world other)
    (step : handleTimer event timer state = some next) :
    ∃ after, run (worldStep F) other (timerOperations event timer state) = some after ∧
      SameBooks next.world after := by
  unfold handleTimer at step
  unfold timerOperations
  cases owner : state.clients.map timer.clientfd with
  | none =>
      rw [owner] at step
      cases step
      exact ⟨other, rfl, same⟩
  | some client =>
      rw [owner] at step
      cases read : event.sys.timerRead with
      | some errorName =>
          simp only [read] at step ⊢
          exact removeFd_operates F (by exact ⟨same.cars, same.roads, same.tickets⟩) step
      | none =>
          simp only [read] at step ⊢
          split at step
          · cases step
          · next sent =>
            cases step
            rw [sent]
            exact ⟨other, rfl, same.cars, same.roads, same.tickets⟩
          · next sent =>
            rw [sent]
            exact removeFd_operates F (by exact ⟨same.cars, same.roads, same.tickets⟩) step

theorem handleClient_operates {client : Client} (same : SameBooks state.world other)
    (step : handleClient F event client state = some next) :
    ∃ after, run (worldStep F) other (clientOperations F event client state) = some after ∧
      SameBooks next.world after := by
  have session : SameBooks (state.session client).world other := same
  unfold clientOperations
  cases handleClient_cases step with
  | closed closing removed =>
      rw [if_pos closing]
      exact removeFd_operates F (by exact ⟨same.cars, same.roads, same.tickets⟩) removed
  | served stays final done =>
      obtain ⟨after, ran, books⟩ := handleMessages_operates session (.inl done)
      rw [if_neg stays, done]
      exact ⟨after, by rwa [List.append_nil], books⟩
  | failed stays error final raised errorMsg buf silent removed =>
      obtain ⟨between, ran, books⟩ := handleMessages_operates session (.inr ⟨error, raised⟩)
      have kept : SameBooks
          ({ state with fd := event.socket }.afterSession event.socket final).world between := books
      obtain ⟨after, ranToo, books⟩ := removeFd_operates F kept removed
      rw [if_neg stays, raised]
      exact ⟨after, run_append_eq_some.mpr ⟨between, ran, ranToo⟩, books⟩

/-- An event is a run of its operations. -/
theorem eventStep_operates (same : SameBooks state.world other)
    (step : eventStep F serverfd state event = some next) :
    ∃ after, run (worldStep F) other (eventOperations F serverfd state event) = some after ∧
      SameBooks next.world after := by
  unfold eventStep at step
  unfold eventOperations
  split at step
  · next isServer =>
    rw [if_pos isServer]
    exact acceptClient_operates same step
  next notServer =>
  rw [if_neg notServer]
  cases timed : state.timers.map event.socket with
  | some timer =>
      rw [timed] at step
      exact handleTimer_operates same step
  | none =>
      cases found : state.clients.map event.socket with
      | none =>
          rw [timed, found] at step
          cases step
          exact ⟨other, rfl, same⟩
      | some client =>
          rw [timed, found] at step
          exact handleClient_operates same step

/-! ### Whole runs -/

/-- Whatever the events and their order, the cars, the roads and the tickets of the server are
those of a run of the operations that the events stand for. -/
theorem serverOperations_run {events : List Event}
    (ran : run (eventStep F serverfd) .init events = some state) :
    ∃ world, run (worldStep F) .empty (serverOperations F serverfd events) = some world ∧
      SameBooks state.world world :=
  run_simulates (eventOperations F serverfd) (fun state world => SameBooks state.world world)
    (fun _ _ _ _ same step => eventStep_operates same step) (.refl World.empty) ran

end Arithmetic

/-- A new connection on a descriptor. -/
def opening (fd : SocketFd) : Event :=
  ⟨3, false, { smoothSys nothingArrived with accepted := .ok fd }⟩

/-- Bytes from a client, in one read. -/
def bytesOn (fd : SocketFd) (bytes : Bytes) (nonempty : bytes ≠ []) : Event :=
  ⟨fd, false, smoothSys ⟨[bytes], .wouldBlock, atOnce_nonempty nonempty⟩⟩

/-- Two cameras see a plate, and then a dispatcher for their road identifies itself. -/
def speedingEvents : List Event :=
  [opening 5, opening 6, opening 7,
    bytesOn 5 [0x80, 0, 1, 0, 0, 0, 60, 0x20, 1, 65, 0, 0, 0, 0] (by decide),
    bytesOn 6 [0x80, 0, 1, 0, 80, 0, 60, 0x20, 1, 65, 0, 0, 14, 16] (by decide),
    bytesOn 7 [0x81, 1, 0, 1] (by decide)]

end NetworkExercises.SpeedDaemon
