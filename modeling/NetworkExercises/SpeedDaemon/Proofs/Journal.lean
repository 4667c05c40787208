/-
Module: NetworkExercises.SpeedDaemon.Proofs.Journal
Purpose: What each connected client has been written: the tickets and the heartbeats that were
  noted for it since it connected, as whole frames in their order, and not a byte more.
Main exports: Note, eventNotes, journal, Journaled, server_writes_journal
-/
import NetworkExercises.SpeedDaemon.Proofs.Connections
import NetworkExercises.SpeedDaemon.Proofs.Dispatching

namespace NetworkExercises.SpeedDaemon

open Lib

/-! ### The journal of a run -/

/-- What happens on a descriptor: it is opened, or an entry is made for it. -/
inductive Note (α : Type) where
  | opened (fd : SocketFd)
  | wrote (fd : SocketFd) (entry : α)

/-- The entries for a descriptor since it was opened last. -/
def journal {α : Type} (fd : SocketFd) (notes : List (Note α)) : List α :=
  notes.foldl
    (fun entries note =>
      match note with
      | .opened other => if other = fd then [] else entries
      | .wrote other entry => if other = fd then entries ++ [entry] else entries) []

/-- The tickets that are noted, with their receivers. -/
def Note.ticket : Note Message → Option (SocketFd × Ticket)
  | .wrote fd (.ticket ticket) => some (fd, ticket)
  | _ => none

/-- A timer that can be read writes a heartbeat to its client. -/
def timerNotes (event : Event) (timer : Timer) (state : ServerState) :
    List (Note Message) :=
  match state.clients.map timer.clientfd, event.sys.timerRead, event.sys.heartbeat with
  | some client, none, .all => [.wrote client.fd .heartbeat]
  | _, _, _ => []

/-- The notes of tickets that were handed over. -/
def ticketNotes (handed : List (SocketFd × Ticket)) : List (Note Message) :=
  handed.map fun sent => .wrote sent.1 (.ticket sent.2)

section Arithmetic

variable (F : Type) [F64 F]

/-- The messages of a client write the tickets that are noted as sent meanwhile. -/
def clientNotes (event : Event) (client : Client) (state : ServerState) :
    List (Note Message) :=
  if event.rdhup then []
  else
    match handleMessages F event.sys.arrival event.sys.calls (state.session client) with
    | .done session | .raised _ session =>
        ticketNotes (session.world.tickets.sent.drop state.world.tickets.sent.length)
    | .trap => []

/-- The notes of one event.  The answer to a violation is not noted: its client is removed. -/
def eventNotes (serverfd : SocketFd) (state : ServerState) (event : Event) :
    List (Note Message) :=
  if event.socket = serverfd then
    match event.sys.accepted with
    | .ok fd => [.opened fd]
    | .error _ => []
  else
    match state.timers.map event.socket with
    | some timer => timerNotes event timer state
    | none =>
        match state.clients.map event.socket with
        | none => []
        | some client => clientNotes F event client state

/-- The notes of a run of the server. -/
def serverNotes (serverfd : SocketFd) (events : List Event) : List (Note Message) :=
  emissions (eventStep F serverfd) (eventNotes F serverfd) .init events

end Arithmetic

/-! ### Reading the journal -/

section Reading

variable {α : Type} {fd other : SocketFd} {notes : List (Note α)}

theorem journal_opened : journal fd (notes ++ [.opened fd]) = [] := by
  simp [journal, List.foldl_append]

theorem journal_opened_other (differs : other ≠ fd) :
    journal fd (notes ++ [.opened other]) = journal fd notes := by
  simp [journal, List.foldl_append, differs]

theorem journal_wrote (entry : α) :
    journal fd (notes ++ [.wrote fd entry]) = journal fd notes ++ [entry] := by
  simp [journal, List.foldl_append]

theorem journal_wrote_other (entry : α) (differs : other ≠ fd) :
    journal fd (notes ++ [.wrote other entry]) = journal fd notes := by
  simp [journal, List.foldl_append, differs]

end Reading

/-- The frames of the tickets for a descriptor. -/
def ticketFrames (fd : SocketFd) (handed : List (SocketFd × Ticket)) : Bytes :=
  (handed.filter fun sent => sent.1 = fd).flatMap fun sent => (Message.ticket sent.2).wire

theorem journal_tickets (fd : SocketFd) (notes : List (Note Message))
    (handed : List (SocketFd × Ticket)) :
    (journal fd (notes ++ ticketNotes handed)).flatMap Message.wire =
      (journal fd notes).flatMap Message.wire ++ ticketFrames fd handed := by
  induction handed generalizing notes with
  | nil => simp [ticketNotes, ticketFrames]
  | cons sent handed ih =>
      have split : notes ++ ticketNotes (sent :: handed) =
          (notes ++ [.wrote sent.1 (.ticket sent.2)]) ++ ticketNotes handed := by
        simp [ticketNotes]
      rw [split, ih]
      by_cases same : sent.1 = fd
      · subst same
        rw [journal_wrote, List.flatMap_append, ticketFrames, ticketFrames,
          List.filter_cons_of_pos (by simp), List.flatMap_cons, List.append_assoc]
        simp
      · rw [journal_wrote_other _ same, ticketFrames, ticketFrames,
          List.filter_cons_of_neg (by simpa using same)]

theorem ticketNotes_tickets (handed : List (SocketFd × Ticket)) :
    (ticketNotes handed).filterMap Note.ticket = handed := by
  induction handed with
  | nil => rfl
  | cons sent handed ih =>
      exact congrArg (sent :: ·) ih

/-! ### What the handling of messages writes -/

/-- The sockets and the notes of sent tickets have only grown by what was handed over. -/
structure Writes (before after : World) (handed : List (SocketFd × Ticket)) : Prop where
  sent : after.tickets.sent = before.tickets.sent ++ handed
  net : ∀ fd, after.net fd = before.net fd ++ ticketFrames fd handed

theorem ticketFrames_append (fd : SocketFd) (front back : List (SocketFd × Ticket)) :
    ticketFrames fd (front ++ back) = ticketFrames fd front ++ ticketFrames fd back := by
  simp [ticketFrames]

theorem Writes.refl (world : World) : Writes world world [] :=
  ⟨(List.append_nil _).symm, fun _ => (List.append_nil _).symm⟩

theorem Writes.trans {first middle last : World} {front back : List (SocketFd × Ticket)}
    (one : Writes first middle front) (two : Writes middle last back) :
    Writes first last (front ++ back) where
  sent := by rw [two.sent, one.sent, List.append_assoc]
  net fd := by rw [two.net, one.net, ticketFrames_append, List.append_assoc]

/-- When no write fails, a pass writes the tickets that it notes as sent, on every exit. -/
theorem dispatchTicketsQueue_writes {world : World} {sends : Nat → Sending} {pass : Pass}
    {buf : U8BoundedArray} (written : ∀ number, (sends number).written = .all)
    (reaches : (dispatchTicketsQueue world.roads sends
      ⟨world.tickets, buf, world.net⟩).Reaches pass) :
    ∃ handed, Writes world (world.afterPass pass) handed := by
  have nothing : Writes world (world.afterPass ⟨world.tickets, buf, world.net⟩) [] :=
    Writes.refl world
  unfold dispatchTicketsQueue at reaches
  split at reaches
  · rw [Outcome.done_reaches] at reaches
    exact ⟨[], reaches ▸ nothing⟩
  refine dispatchLoop_rule (fun pass => ∃ handed, Writes world (world.afterPass pass) handed)
    ?_ ?_ ⟨[], nothing⟩ reaches
  · rintro number pass final fd ticket error ⟨handed, writes⟩ failed
    -- Only the encoding can fail, before anything is written.
    have kept := sendTicket_tickets (.inr ⟨error, failed⟩)
    have unwritten : final.net = pass.net := by
      unfold sendTicket at failed
      rw [written, if_neg (by simp [Message.type])] at failed
      split at failed
      · cases failed
        rfl
      · cases failed
    refine ⟨handed, ?_, ?_⟩
    · rw [World.afterPass, kept]
      exact writes.sent
    · rw [World.afterPass, unwritten]
      exact writes.net
  · rintro number pass middle fd ticket ⟨handed, writes⟩ found sent
    obtain ⟨tickets, net⟩ := sendTicket_net sent
    refine ⟨handed ++ [(fd, ticket)], ?_, fun other => ?_⟩
    · have before : pass.tickets.sent = world.tickets.sent ++ handed := writes.sent
      simp only [World.afterPass, TicketsQueue.removeFirst, TicketsQueue.noteSent, tickets,
        before, List.append_assoc]
    · have before : pass.net other = world.net other ++ ticketFrames other handed :=
        writes.net other
      simp only [World.afterPass, net, ticketFrames_append]
      by_cases same : other = fd
      · subst same
        rw [Function.update_self, before, List.append_assoc]
        simp [ticketFrames]
      · rw [Function.update_of_ne same, before]
        simp [ticketFrames, Ne.symm same]

section Arithmetic

variable {F : Type} [F64 F] {session final : Session}

/-- When no send fails, the handling of messages writes the tickets that it notes as sent, on
every exit. -/
theorem handleMessages_writes {arrival : Arrival} {calls : Nat → Calls}
    (written : ∀ i number, ((calls i).sends number).written = .all)
    (reaches : (handleMessages F arrival calls session).Reaches final) :
    ∃ handed, Writes session.world final.world handed := by
  refine handleMessages_rule (fun other => ∃ handed, Writes session.world other.world handed)
    ?_ ?_ ?_ ⟨[], Writes.refl _⟩ reaches
  · rintro middle final net tickets ⟨handed, writes⟩
    exact ⟨handed, by rw [tickets]; exact writes.sent, by rw [net]; exact writes.net⟩
  · rintro middle seen camera cars tickets ntickets - observed ⟨handed, writes⟩
    obtain ⟨_, issued, _, -, records, -⟩ := observe_ok observed
    refine ⟨handed, ?_, writes.net⟩
    simp only [Session.observed, records.queue, TicketsQueue.appendAll_eq]
    exact writes.sent
  · rintro i middle final ⟨handed, writes⟩ dispatched
    obtain ⟨pass, passed, rfl⟩ := Outcome.map_reaches dispatched
    obtain ⟨more, onward⟩ := dispatchTicketsQueue_writes (written i) passed
    exact ⟨handed ++ more, writes.trans onward⟩

/-! ### The journal is what was written -/

/-- Every connected client has been written the frames of its journal, and the notes have the
tickets that were sent. -/
structure Journaled (notes : List (Note Message)) (state : ServerState) : Prop where
  written : ∀ fd client, state.clients.map fd = some client →
    state.world.net fd = (journal fd notes).flatMap Message.wire
  sent : state.world.tickets.sent = notes.filterMap Note.ticket

variable {serverfd : SocketFd} {state next : ServerState} {event : Event}
  {notes : List (Note Message)}

/-- Nothing is noted when no connected client is written to. -/
theorem Journaled.silent (journaled : Journaled notes state)
    (clients : ∀ fd client, next.clients.map fd = some client →
      (∃ before, state.clients.map fd = some before) ∧
        next.world.net fd = state.world.net fd)
    (sent : next.world.tickets.sent = state.world.tickets.sent) :
    Journaled (notes ++ []) next where
  written fd client found := by
    obtain ⟨⟨before, foundBefore⟩, same⟩ := clients fd client found
    rw [same, List.append_nil]
    exact journaled.written fd before foundBefore
  sent := by rw [sent, List.append_nil, journaled.sent]

theorem sendErrorMsg_other {client : Client} {errorMsg : Option Bytes} {buf : U8BoundedArray}
    {written : WriteResult} {net : Net} {fd : SocketFd} (differs : fd ≠ client.fd) :
    client.sendErrorMsg errorMsg buf written net fd = net fd := by
  cases errorMsg with
  | none => rfl
  | some msg =>
      rw [Client.sendErrorMsg, Client.sendError]
      cases hostToNetwork (.errorM msg) buf with
      | error error => rfl
      | ok buf => cases written <;> exact Function.update_of_ne differs _ _

/-- A client that is removed is answered on its own descriptor, and gone. -/
theorem removeFd_silent {fd : SocketFd} {client : Client} {errorMsg : Option Bytes}
    {buf : U8BoundedArray} {sys : Sys} (timerDel : sys.timerDel = true)
    (clientDel : sys.clientDel = true) (found : state.clients.map fd = some client)
    (keyed : client.fd = fd) (removed : removeFd sys fd client errorMsg buf state = some next) :
    ∀ other after, next.clients.map other = some after →
      (∃ before, state.clients.map other = some before) ∧
        next.world.net other = state.world.net other := by
  obtain ⟨both, -, net⟩ := removeFd_parts removed
  rw [timerDel, clientDel] at both
  obtain ⟨clients, -⟩ := Prod.mk.inj (Clients.del_found found both)
  intro other after foundAfter
  rw [clients] at foundAfter
  by_cases same : other = fd
  · simp [same] at foundAfter
  · simp only [Function.update_of_ne same] at foundAfter
    refine ⟨⟨after, foundAfter⟩, ?_⟩
    rw [net]
    exact sendErrorMsg_other (keyed ▸ same)

theorem acceptClient_journaled (journaled : Journaled notes state)
    (orderly : Orderly serverfd state event) (isServer : event.socket = serverfd)
    (step : acceptClient event.sys state = some next) :
    Journaled (notes ++ eventNotes F serverfd state event) next := by
  rw [eventNotes, if_pos isServer]
  unfold acceptClient at step
  cases accepted : event.sys.accepted with
  | error errorName =>
      rw [accepted] at step
      cases step
      exact journaled.silent (fun fd client found => ⟨⟨client, found⟩, rfl⟩) rfl
  | ok clientfd =>
      rw [accepted, orderly.epollAdd] at step
      cases step
      refine ⟨fun fd client found => ?_, ?_⟩
      · by_cases same : fd = clientfd
        · subst same
          rw [journal_opened]
          exact Function.update_self ..
        · simp only [Clients.put, Function.update_of_ne same] at found
          rw [journal_opened_other (Ne.symm same), ← journaled.written fd client found]
          exact Function.update_of_ne same _ _
      · rw [List.filterMap_append]
        exact journaled.sent.trans (List.append_nil _).symm

theorem handleTimer_journaled (consistent : state.registries.Consistent serverfd)
    (journaled : Journaled notes state) (orderly : Orderly serverfd state event)
    (heartbeat : event.sys.heartbeat = .all) {timer : Timer}
    (found : state.timers.map event.socket = some timer)
    (step : handleTimer event timer state = some next) :
    Journaled (notes ++ timerNotes event timer state) next := by
  obtain ⟨named, client, owner, set⟩ := (consistent.timed event.socket timer).mp found
  replace owner : state.clients.map timer.clientfd = some client := owner
  have keyed := consistent.keyed _ client owner
  have ownerFd : state.clients.map client.fd = some client := by
    rw [keyed]
    exact owner
  unfold handleTimer at step
  unfold timerNotes
  rw [owner] at step ⊢
  cases read : event.sys.timerRead with
  | some errorName =>
      simp only [read] at step
      have silent :=
        removeFd_silent orderly.timerDel orderly.clientDel (by exact ownerFd) rfl step
      exact journaled.silent silent (congrArg TicketsQueue.sent (removeFd_world step).2.1)
  | none =>
      obtain ⟨buf, encoded, items⟩ :=
        hostToNetwork_clear (by rfl : Message.heartbeat.IsServer) trivial
      simp only [read, heartbeat, Client.sendHeartbeat, encoded] at step ⊢
      cases step
      refine ⟨fun fd before foundBefore => ?_, ?_⟩
      · by_cases same : fd = client.fd
        · subst same
          rw [journal_wrote, List.flatMap_append, ← journaled.written _ before foundBefore]
          simp [items]
        · rw [journal_wrote_other _ (Ne.symm same), ← journaled.written fd before foundBefore]
          exact Function.update_of_ne same _ _
      · rw [List.filterMap_append]
        exact journaled.sent.trans (List.append_nil _).symm

/-- The tickets that are handed over are noted. -/
theorem Journaled.writes (journaled : Journaled notes state)
    {handed : List (SocketFd × Ticket)} (writes : Writes state.world next.world handed)
    (clients : ∀ fd client, next.clients.map fd = some client →
      ∃ before, state.clients.map fd = some before) :
    Journaled (notes ++ ticketNotes handed) next where
  written fd client found := by
    obtain ⟨before, foundBefore⟩ := clients fd client found
    rw [journal_tickets, ← journaled.written fd before foundBefore, writes.net]
  sent := by
    rw [writes.sent, journaled.sent, List.filterMap_append, ticketNotes_tickets]

theorem handleClient_journaled (consistent : state.registries.Consistent serverfd)
    (journaled : Journaled notes state) (orderly : Orderly serverfd state event)
    (written : ∀ i number, ((event.sys.calls i).sends number).written = .all) {client : Client}
    (found : state.clients.map event.socket = some client)
    (step : handleClient F event client state = some next) :
    Journaled (notes ++ clientNotes F event client state) next := by
  have ended : ∀ {session : Session} {handed : List (SocketFd × Ticket)},
      Writes state.world session.world handed →
        session.world.tickets.sent.drop state.world.tickets.sent.length = handed :=
    fun writes => by rw [writes.sent, List.drop_left]
  have known : ∀ (session : Session) fd after,
      ({ state with fd := event.socket }.afterSession event.socket session).clients.map fd =
        some after → ∃ before, state.clients.map fd = some before := by
    intro session fd after foundAfter
    by_cases same : fd = event.socket
    · exact ⟨client, same ▸ found⟩
    · exact ⟨after, by simpa [ServerState.afterSession, Clients.put, same] using foundAfter⟩
  unfold clientNotes
  cases handleClient_cases step with
  | closed closing removed =>
      rw [if_pos closing]
      have silent := removeFd_silent orderly.timerDel orderly.clientDel (by exact found)
        (consistent.keyed _ _ found) removed
      exact journaled.silent silent (congrArg TicketsQueue.sent (removeFd_world removed).2.1)
  | served stays session done =>
      obtain ⟨handed, writes⟩ := handleMessages_writes written (.inl done)
      rw [if_neg stays, done]
      simp only [ended writes]
      exact journaled.writes writes (known session)
  | failed stays error session raised errorMsg buf _ removed =>
      obtain ⟨handed, writes⟩ := handleMessages_writes written (.inr ⟨error, raised⟩)
      rw [if_neg stays, raised]
      simp only [ended writes]
      have served : Journaled (notes ++ ticketNotes handed)
          ({ state with fd := event.socket }.afterSession event.socket session) :=
        journaled.writes writes (known session)
      have keyed : session.client.fd = event.socket :=
        (handleMessages_consistent consistent orderly found (.inr ⟨error, raised⟩)).1.keyed _ _
          session.registries_client
      rw [← List.append_nil (notes ++ ticketNotes handed)]
      have silent := removeFd_silent orderly.timerDel orderly.clientDel
        (by exact Function.update_self ..) keyed removed
      exact served.silent silent (congrArg TicketsQueue.sent (removeFd_world removed).2.1)

/-- An event whose writes succeed keeps the journal. -/
theorem eventStep_journaled (consistent : state.registries.Consistent serverfd)
    (journaled : Journaled notes state) (orderly : Orderly serverfd state event)
    (written : event.sys.Written) (step : eventStep F serverfd state event = some next) :
    Journaled (notes ++ eventNotes F serverfd state event) next := by
  by_cases isServer : event.socket = serverfd
  · rw [eventStep, if_pos isServer] at step
    exact acceptClient_journaled journaled orderly isServer step
  rw [eventStep, if_neg isServer] at step
  rw [eventNotes, if_neg isServer]
  cases timed : state.timers.map event.socket with
  | some timer =>
      rw [timed] at step
      exact handleTimer_journaled consistent journaled orderly written.heartbeat timed step
  | none =>
      cases found : state.clients.map event.socket with
      | none =>
          rw [timed, found] at step
          cases step
          exact journaled.silent (fun fd client known => ⟨⟨client, known⟩, rfl⟩) rfl
      | some client =>
          rw [timed, found] at step
          exact handleClient_journaled consistent journaled orderly written.sends found step

/-- In every orderly run whose writes succeed, whatever the clients send, each connected client
has been written exactly the tickets and heartbeats noted for it since it connected, as whole
frames in that order, and the tickets noted are those that were sent. -/
theorem server_writes_journal {events : List Event}
    (orderly : EachStep (Orderly serverfd) (eventStep F serverfd) .init events)
    (written : ∀ event ∈ events, event.sys.Written)
    (ran : run (eventStep F serverfd) .init events = some state) :
    (∀ fd client, state.clients.map fd = some client →
      state.world.net fd =
        (journal fd (serverNotes F serverfd events)).flatMap Message.wire) ∧
      state.world.tickets.sent = (serverNotes F serverfd events).filterMap Note.ticket := by
  have initial : ServerState.init.registries.Consistent serverfd ∧
      Journaled [] ServerState.init := ⟨.empty serverfd, nofun, rfl⟩
  have both := run_emits_when (eventNotes F serverfd) _
    (fun notes state => state.registries.Consistent serverfd ∧ Journaled notes state) ?_
    initial (orderly.and_forall written) ran
  · exact ⟨both.2.written, both.2.sent⟩
  · rintro notes state event next ⟨consistent, journaled⟩ ⟨orderly, written⟩ step
    exact ⟨eventStep_consistent consistent orderly step,
      eventStep_journaled consistent journaled orderly written step⟩

end Arithmetic

/-- The dispatcher has been written the ticket that was noted for it. -/
theorem server_writes_journal_speeding :
    ∃ state, run (eventStep ℚ 3) .init speedingEvents = some state ∧
      state.world.net 7 = (journal 7 (serverNotes ℚ 3 speedingEvents)).flatMap Message.wire ∧
      journal 7 (serverNotes ℚ 3 speedingEvents) =
        [.ticket ⟨[65], 1, 0, 0, 80, 3600, 8000⟩] := by
  have ran : (run (eventStep ℚ 3) .init speedingEvents).map
      (fun state => (state.clients.map 7).isSome) = some true := by decide +kernel
  obtain ⟨state, ranEq, connected⟩ := Option.map_eq_some_iff.mp ran
  obtain ⟨client, found⟩ := Option.isSome_iff_exists.mp connected
  obtain ⟨written, -⟩ := server_writes_journal orderly_speeding written_speeding ranEq
  exact ⟨state, ranEq, written 7 client found, by decide +kernel⟩

end NetworkExercises.SpeedDaemon
