/-
Module: NetworkExercises.SpeedDaemon.Proofs.Failures
Purpose: What a failure that concerns one peer does to the others: a client that cannot be
  added, and a ticket that cannot be written.
Main exports: FailsToAdd, Untouched, Harmless, add_failure_untouched, SendFails,
  BatchServed, send_failure_removes
-/
import NetworkExercises.SpeedDaemon.Proofs.Ownership

namespace NetworkExercises.SpeedDaemon

open Lib

/-! ### A client that cannot be added -/

/-- The event accepts a connection, and adding its client fails. -/
def FailsToAdd (serverfd : SocketFd) (event : Event) : Prop :=
  event.socket = serverfd ∧ (∃ fd, event.sys.accepted = .ok fd) ∧
    ∃ errorName, event.sys.epollAdd = some errorName

section Adding

variable (F : Type) [F64 F] (serverfd : SocketFd)

/-- The event leaves the clients, the dispatchers of the roads, the timers, and the
sockets but the new one as they were. -/
def Untouched (state : ServerState) (event : Event) : Prop :=
  ∃ next, eventStep F serverfd state event = some next ∧ next.clients = state.clients ∧
    next.world.roads.dispatchers = state.world.roads.dispatchers ∧
    next.timers = state.timers ∧
    ∀ fd, event.sys.accepted ≠ .ok fd → next.world.net fd = state.world.net fd

/-- Nothing is left of the last event: its pointer leads to a client that the error cannot
be written to and that is a dispatcher of no road, and its descriptor has no client. -/
def Harmless (state : ServerState) (sys : Sys) : Prop :=
  ∃ client, sys.stale.bind state.clients.map = some client ∧
    ((∃ errorName, sys.errorWrite = .failed 0 errorName) ∨ sys.accepted = .ok client.fd) ∧
    (∀ disp, client.data = .dispatcher disp → ∀ road ∈ disp.roads,
      disp.fd ∉ state.world.roads.dispatchers road) ∧
    state.clients.map state.fd = none

variable {F serverfd} {state : ServerState} {event : Event}

/-- The bytes of a write that reach the socket. -/
def WriteResult.reached (written : WriteResult) (bytes : Bytes) : Bytes :=
  match written with
  | .all => bytes
  | .failed count _ => bytes.take count

theorem WriteResult.reached_eq_nil {written : WriteResult} {bytes : Bytes}
    (nonempty : bytes ≠ []) :
    written.reached bytes = [] ↔ ∃ errorName, written = .failed 0 errorName := by
  cases written with
  | all => simp [reached, nonempty]
  | failed count errorName => simp [reached, nonempty]

/-- The error for a client that cannot be added is a frame to the client of the pointer. -/
theorem sendErrorMsg_added (client : Client) :
    ∃ frame, frame ≠ [] ∧ ∀ written net,
      client.sendErrorMsg (some (text "Failed to add client")) BoundedArray.clear written net =
        Function.update net client.fd (net client.fd ++ written.reached frame) := by
  obtain ⟨buf, encoded, items⟩ :=
    hostToNetwork_clear (by rfl : (Message.errorM (text "Failed to add client")).IsServer)
      (by decide +kernel)
  refine ⟨buf.items, by simp [items, Message.wire], fun written net => ?_⟩
  rw [Client.sendErrorMsg, Client.sendError, encoded]
  cases written with
  | all => rfl
  | failed count errorName => rfl

/-- The fifo is freed, whether the calls on the epoll instance succeed or not. -/
theorem Client.unregister_fifo (client : Client) (timers : Timers) (timerDel clientDel : Bool) :
    (client.unregister timers timerDel clientDel).1.fifo = none := by
  simp only [unregister]
  repeat' split
  all_goals rfl

/-- Of a client that is removed, at most an entry without a fifo is left. -/
theorem Clients.del_releases {clients : Clients} {fd : SocketFd} {timers : Timers}
    {timerDel clientDel : Bool} {after : Clients × Timers}
    (removed : clients.del fd timers timerDel clientDel = some after) (left : Client)
    (found : after.1.map fd = some left) : left.fifo = none := by
  cases before : clients.map fd with
  | none =>
      rw [Clients.del, before, Option.some.injEq] at removed
      rw [← removed, before] at found
      cases found
  | some client =>
      rw [Clients.del_eq timers timerDel clientDel before (Clients.del_held before removed),
        Option.some.injEq] at removed
      subst removed
      simp only [Function.update_self] at found
      split at found
      · cases found
      · cases found
        exact client.unregister_fifo ..

/-- Nothing changes exactly when there is no client. -/
theorem Clients.del_unchanged_iff (clients : Clients) (fd : SocketFd) (timers : Timers)
    (sys : Sys) :
    clients.del fd timers sys.timerDel sys.clientDel = some (clients, timers) ↔
      clients.map fd = none := by
  constructor
  · intro removed
    cases found : clients.map fd with
    | none => rfl
    | some client =>
        exact absurd (Clients.del_releases removed client found) (Clients.del_held found removed)
  · intro absent
    rw [Clients.del, absent]

/-- A client's roads keep their dispatchers exactly when it is a dispatcher of none. -/
theorem Roads.release_unchanged_iff (roads : Roads) (data : ClientData) :
    (roads.release data).dispatchers = roads.dispatchers ↔
      ∀ disp, data = .dispatcher disp → ∀ road ∈ disp.roads,
        disp.fd ∉ roads.dispatchers road := by
  cases data with
  | camera | unidentified => simp [release]
  | dispatcher disp =>
      simp only [release, ClientData.dispatcher.injEq, forall_eq']
      constructor
      · intro same road member registered
        rw [← same, removeDispatcher_dispatchers] at registered
        exact registered.2 ⟨rfl, member⟩
      · intro unregistered
        ext road fd
        rw [removeDispatcher_dispatchers]
        constructor
        · exact And.left
        · refine fun registered => ⟨registered, ?_⟩
          rintro ⟨rfl, member⟩
          exact unregistered road member registered

/-- The sockets of the others are as they were exactly when the error is not written, or
goes to the new descriptor. -/
theorem net_unchanged_iff {net : Net} {frame : Bytes} (nonempty : frame ≠ [])
    (written : WriteResult) (newfd clientfd : SocketFd) :
    (∀ fd, newfd ≠ fd →
      Function.update (Function.update net newfd []) clientfd
        (Function.update net newfd [] clientfd ++ written.reached frame) fd = net fd) ↔
      (∃ errorName, written = .failed 0 errorName) ∨ newfd = clientfd := by
  rw [← WriteResult.reached_eq_nil nonempty]
  by_cases same : newfd = clientfd
  · subst same
    simp only [or_true, iff_true]
    intro fd differs
    rw [Function.update_of_ne differs.symm, Function.update_of_ne differs.symm]
  · constructor
    · intro kept
      have atClient := kept clientfd same
      rw [Function.update_self, Function.update_of_ne (Ne.symm same)] at atClient
      exact .inl (List.append_right_eq_self.mp atClient)
    · rintro (nothing | isNew) fd differs
      · rw [nothing, List.append_nil, Function.update_eq_self,
          Function.update_of_ne differs.symm]
      · exact absurd isNew same

/-- The event is harmless to the others exactly when nothing is left of the last one. -/
theorem untouched_iff (fails : FailsToAdd serverfd event) :
    Untouched F serverfd state event ↔ Harmless state event.sys := by
  obtain ⟨isServer, ⟨newfd, accepted⟩, errorName, fails⟩ := fails
  unfold Untouched Harmless
  cases pointer : event.sys.stale.bind state.clients.map with
  | none =>
      have trapped : eventStep F serverfd state event = none := by
        simp [eventStep, isServer, acceptClient, accepted, fails, pointer]
      simp [trapped]
  | some client =>
      have step : eventStep F serverfd state event = removeFd event.sys state.fd client
          (some (text "Failed to add client")) BoundedArray.clear
          { state with world := { state.world with
            net := Function.update state.world.net newfd [] } } := by
        simp [eventStep, isServer, acceptClient, accepted, fails, pointer]
      cases removed : removeFd event.sys state.fd client (some (text "Failed to add client"))
          BoundedArray.clear { state with world := { state.world with
            net := Function.update state.world.net newfd [] } } with
      | none =>
          -- The client of the kept descriptor has been removed in vain: the server traps.
          obtain ⟨last, present, -⟩ := removeFd_eq_none_iff.mp removed
          rw [step, removed]
          simp [show state.clients.map state.fd = some last from present]
      | some next =>
      rw [removed] at step
      obtain ⟨deleted, roads, net⟩ := removeFd_parts removed
      obtain ⟨frame, nonempty, sends⟩ := sendErrorMsg_added client
      have clientsIff := Clients.del_unchanged_iff state.clients state.fd state.timers event.sys
      have roadsIff := Roads.release_unchanged_iff state.world.roads client.data
      have netIff := @net_unchanged_iff state.world.net frame nonempty event.sys.errorWrite
        newfd client.fd
      replace deleted : state.clients.del state.fd state.timers event.sys.timerDel
        event.sys.clientDel = some (next.clients, next.timers) := deleted
      replace roads : next.world.roads = state.world.roads.release client.data := roads
      rw [deleted, Option.some.injEq, Prod.mk.injEq] at clientsIff
      rw [← roads] at roadsIff
      rw [sends] at net
      rw [← net] at netIff
      simp only [step, accepted, Option.some.injEq, exists_eq_left', Except.ok.injEq, ne_eq,
        ← clientsIff, ← roadsIff]
      rw [netIff]
      tauto

/-- In every run: each failure to add a client leaves everything else untouched exactly
when nothing is left of the last event at each of them. -/
theorem add_failure_untouched (start : ServerState) (events : List Event) :
    EachStep (fun state event => FailsToAdd serverfd event → Untouched F serverfd state event)
        (eventStep F serverfd) start events ↔
      EachStep (fun state event => FailsToAdd serverfd event → Harmless state event.sys)
        (eventStep F serverfd) start events :=
  eachStep_congr fun _ _ => imp_congr_right untouched_iff

/-- A client connects and asks for heartbeats; then another connects. -/
def servedEvents : List Event := [⟨3, false, smoothSys nothingArrived⟩, heartbeatWanted]

/-- The second client cannot be added; the pointer still leads to the first. -/
def secondRefused : Event :=
  ⟨3, false, { smoothSys nothingArrived with
    accepted := .ok 6, epollAdd := some "SystemResources", stale := some 5 }⟩

/-- The client that was served last is removed when the next one cannot be added. -/
theorem add_failure_touches :
    ¬ ∀ events, EachStep (fun state event =>
        FailsToAdd 3 event → Untouched ℚ 3 state event) (eventStep ℚ 3) .init events := by
  intro always
  have served : (run (eventStep ℚ 3) .init servedEvents).map
      (fun state => (state.clients.map 5).isSome) = some true := by decide +kernel
  have refused : (run (eventStep ℚ 3) .init (servedEvents ++ [secondRefused])).map
      (fun state => (state.clients.map 5).isSome) = some false := by decide +kernel
  obtain ⟨middle, ran, present⟩ := Option.map_eq_some_iff.mp served
  obtain ⟨final, allRan, absent⟩ := Option.map_eq_some_iff.mp refused
  obtain ⟨again, ranAgain, lastRan⟩ := run_append_eq_some.mp allRan
  obtain rfl : middle = again := Option.some.inj (ran.symm.trans ranAgain)
  obtain ⟨next, step, ended⟩ := run_cons_eq_some.mp lastRan
  obtain rfl : next = final := Option.some.inj ended
  obtain ⟨untouched, stepEq, clients, -⟩ :=
    (always (servedEvents ++ [secondRefused])).at ran ⟨rfl, ⟨6, rfl⟩, _, rfl⟩
  obtain rfl : next = untouched := Option.some.inj (step.symm.trans stepEq)
  rw [clients, present] at absent
  cases absent

end Adding

/-! ### A ticket that cannot be written -/

/-- The client is in the map, and its fifo has not been freed: it has not been removed,
not even in vain. -/
def ServerState.Connected (state : ServerState) (fd : SocketFd) : Prop :=
  ∃ client, state.clients.map fd = some client ∧ client.fifo ≠ none

theorem removeFd_disconnects {sys : Sys} {fd : SocketFd} {client : Client}
    {errorMsg : Option Bytes} {buf : U8BoundedArray} {state next : ServerState}
    (removed : removeFd sys fd client errorMsg buf state = some next) : ¬ next.Connected fd := by
  rintro ⟨left, found, held⟩
  exact held (Clients.del_releases (removeFd_parts removed).1 left found)

section Sending

variable (F : Type) [F64 F] (serverfd : SocketFd)

/-- Among the messages of a camera's event is a plate that tickets are issued for, and of
the tickets that can be delivered then one is not written: `front` are the messages before
it, `rest` those behind it, and `middle` is the session when its turn comes. -/
structure SendFails (state : ServerState) (event : Event) (client : Client)
    (front : List Message) (seen : Plate) (rest : List Message) (middle : Session) :
    Prop where
  notServer : event.socket ≠ serverfd
  noTimer : state.timers.map event.socket = none
  found : state.clients.map event.socket = some client
  stays : event.rdhup = false
  received : ∃ fifo len left, client.fifo = some fifo ∧
    receive fifo event.sys.arrival = .messages (front ++ .plate seen :: rest) len left ∧
    handleLoop F event.sys.calls 0 front ((state.session client).withFifo left) =
      .done middle
  issued : ∃ camera cars tickets ntickets, middle.client.data = .camera camera ∧
    observe F middle.world.cars middle.world.tickets seen camera =
      .ok (cars, tickets, ntickets) ∧ ntickets > 0 ∧
    ∃ number < tickets.queue.countP middle.world.roads.deliverable,
      ((event.sys.calls front.length).sends number).written ≠ .all

/-- All messages of the event are handled, and its client stays connected. -/
def BatchServed (state : ServerState) (event : Event) : Prop :=
  ∃ client session next, state.clients.map event.socket = some client ∧
    handleMessages F event.sys.arrival event.sys.calls (state.session client) =
      .done session ∧
    eventStep F serverfd state event = some next ∧ next.Connected event.socket

variable {F serverfd} {state : ServerState} {event : Event} {client : Client}
  {front rest : List Message} {seen : Plate} {middle : Session}

/-- A message that raises an error ends the loop. -/
theorem handleLoop_stops {calls : Nat → Calls} {i : Nat} {msg : Message}
    {session final : Session} {error : ServerError}
    (handled : handleLoop F calls i front session = .done middle)
    (raised : handleMessage F (calls (i + front.length)) msg middle = .raised error final) :
    handleLoop F calls i (front ++ msg :: rest) session = .raised error final := by
  induction front generalizing i session with
  | nil =>
      rw [handleLoop, Outcome.done.injEq] at handled
      subst handled
      rw [List.nil_append, handleLoop, show calls i = calls (i + ([] : List Message).length)
        from rfl, raised, Outcome.raised_andThen]
  | cons first front ih =>
      rw [handleLoop, Outcome.andThen_eq_done] at handled
      obtain ⟨next, firstDone, others⟩ := handled
      rw [List.length_cons, ← Nat.add_assoc, Nat.add_right_comm] at raised
      rw [List.cons_append, handleLoop, firstDone, Outcome.done_andThen]
      exact ih others raised

/-- A pass in which a write fails raises an error, and so does the plate. -/
theorem handlePlate_raised {calls : Calls} {camera : Camera} {cars : Cars}
    {tickets : TicketsQueue} {ntickets : Nat} (data : middle.client.data = .camera camera)
    (observed : observe F middle.world.cars middle.world.tickets seen camera =
      .ok (cars, tickets, ntickets)) (issued : ntickets > 0)
    (fails : ∃ number < tickets.queue.countP middle.world.roads.deliverable,
      (calls.sends number).written ≠ .all) :
    ∃ error final, handlePlate F calls seen middle = .raised error final := by
  obtain ⟨number, below, failed⟩ := fails
  simp only [handlePlate, data, observed, if_pos issued, Session.dispatch]
  obtain ⟨pass, reached⟩ := dispatchTicketsQueue_total middle.world.roads calls.sends
    ⟨tickets, middle.buf, middle.world.net⟩
  rcases reached with done | ⟨error, raised⟩
  · exact absurd (dispatchTicketsQueue_written done number below) failed
  · exact ⟨error, _, by rw [raised, Outcome.map_raised]⟩

/-- The error ends the handling of the batch. -/
theorem SendFails.raises (fails : SendFails F serverfd state event client front seen rest
    middle) :
    ∃ error session, handleMessages F event.sys.arrival event.sys.calls
      (state.session client) = .raised error session := by
  obtain ⟨fifo, len, left, held, received, handled⟩ := fails.received
  obtain ⟨camera, cars, tickets, ntickets, data, observed, issued, unwritten⟩ := fails.issued
  obtain ⟨error, final, raised⟩ := handlePlate_raised data observed issued unwritten
  refine ⟨error, final.discard len, ?_⟩
  have fifoEq : (state.session client).client.fifo = some fifo := held
  rw [handleMessages, fifoEq]
  simp only [received]
  rw [handleLoop_stops handled (by rwa [Nat.zero_add, handleMessage]), Outcome.map_raised]

/-- Messages are read into a fifo, and it is not freed. -/
theorem handleMessages_held {arrival : Arrival} {calls : Nat → Calls}
    {session final : Session} (reaches : (handleMessages F arrival calls session).Reaches final) :
    final.client.fifo ≠ none := by
  unfold handleMessages at reaches
  split at reaches
  · exact absurd reaches Outcome.not_trap_reaches
  split at reaches
  · exact absurd reaches Outcome.not_trap_reaches
  · rw [Outcome.raised_reaches] at reaches
    rw [reaches]
    exact Option.some_ne_none _
  · obtain ⟨looped, reached, rfl⟩ := Outcome.map_reaches reaches
    have held := handleLoop_fifo reached
    simp [Session.discard, held, Session.withFifo]

/-- The send that fails removes the camera, and the rest of its batch is not handled. -/
theorem send_failure_removes (fails : SendFails F serverfd state event client front seen rest
    middle) :
    ¬ BatchServed F serverfd state event ∧
      ∃ next, eventStep F serverfd state event = some next ∧ ¬ next.Connected event.socket ∧
        (event.sys.timerDel = true → event.sys.clientDel = true →
          next.clients.map event.socket = none) := by
  obtain ⟨error, session, raised⟩ := fails.raises
  have step : ∃ errorMsg buf, eventStep F serverfd state event =
      removeFd event.sys event.socket session.client errorMsg buf
        (ServerState.afterSession { state with fd := event.socket } event.socket session) := by
    simp only [eventStep, if_neg fails.notServer, fails.noTimer, fails.found, handleClient,
      fails.stays, Bool.false_eq_true, if_false]
    rw [show ServerState.session { state with fd := event.socket } client =
      state.session client from rfl, raised]
    simp only
    split
    · exact ⟨_, _, rfl⟩
    · exact ⟨_, _, rfl⟩
  obtain ⟨errorMsg, buf, step⟩ := step
  have present : (ServerState.afterSession { state with fd := event.socket } event.socket
      session).clients.map event.socket = some session.client := by
    simp [ServerState.afterSession, Clients.put]
  -- The session's messages were read into its fifo, so its removal does not trap.
  obtain ⟨next, removed⟩ : ∃ next, removeFd event.sys event.socket session.client errorMsg buf
      (ServerState.afterSession { state with fd := event.socket } event.socket session) =
        some next := by
    refine Option.ne_none_iff_exists'.mp fun traps => ?_
    obtain ⟨other, otherFound, freed⟩ := removeFd_eq_none_iff.mp traps
    rw [present, Option.some.injEq] at otherFound
    subst otherFound
    exact handleMessages_held (.inr ⟨error, raised⟩) freed
  refine ⟨?_, next, step.trans removed, removeFd_disconnects removed, fun timerDel clientDel => ?_⟩
  · rintro ⟨other, handled, next, found, done, -, -⟩
    rw [fails.found, Option.some.injEq] at found
    rw [← found, raised] at done
    cases done
  · have registries := removeFd_registries timerDel clientDel present removed
    have clients := congrArg Registries.clients registries
    rw [ServerState.registries_clients] at clients
    rw [clients]
    simp [Registries.remove]

/-- A camera at mile 0 has seen a car, a dispatcher of its road and a second camera have
connected. -/
def openingEvents : List Event :=
  let accepts (fd : SocketFd) : Event :=
    ⟨3, false, { smoothSys nothingArrived with accepted := .ok fd }⟩
  [accepts 5,
    ⟨5, false, smoothSys
      ⟨[[0x80, 0, 1, 0, 0, 0, 60, 0x20, 1, 65, 0, 0, 0, 0]], .wouldBlock, by decide⟩⟩,
    accepts 6,
    ⟨6, false, smoothSys ⟨[[0x81, 1, 0, 1]], .wouldBlock, by decide⟩⟩,
    accepts 7]

/-- The second camera, at mile 80, sees the car an hour later, and then another one. -/
def ticketedBytes : Bytes :=
  [0x80, 0, 1, 0, 80, 0, 60, 0x20, 1, 65, 0, 0, 14, 16, 0x20, 1, 66, 0, 0, 14, 26]

/-- The connection of the dispatcher is broken when the ticket is written. -/
def ticketedEvent : Event :=
  ⟨7, false, { smoothSys ⟨[ticketedBytes], .wouldBlock, by decide⟩ with
    calls := fun _ => ⟨fun _ => .least (.failed 0 "BrokenPipe"), .ok 9, none⟩ }⟩

/-- The state before the second camera's plates. -/
def openingState : ServerState := (run (eventStep ℚ 3) .init openingEvents).getD .init

/-- The session of the second camera once it is identified. -/
def secondCamera : Session :=
  { openingState.session (.init 7) with
    client := { Client.init 7 with
      fifo := some ticketedBytes, data := .camera ⟨7, 1, 80, 60⟩ } }

theorem ticketed_sendFails : SendFails ℚ 3 openingState ticketedEvent (.init 7)
    [.camera ⟨1, 80, 60⟩] ⟨[65], 3600⟩ [.plate ⟨[66], 3610⟩] secondCamera where
  notServer := by decide
  noTimer := by decide +kernel
  found := by decide +kernel
  stays := rfl
  received := ⟨[], 21, ticketedBytes, rfl, by decide +kernel, rfl⟩
  issued := by
    have computed : (observe ℚ secondCamera.world.cars secondCamera.world.tickets ⟨[65], 3600⟩
        ⟨7, 1, 80, 60⟩).toOption.map (fun out => (out.2.2,
          out.2.1.queue.countP secondCamera.world.roads.deliverable)) = some (1, 1) := by
      decide +kernel
    obtain ⟨⟨cars, tickets, ntickets⟩, observed, counted⟩ := Option.map_eq_some_iff.mp computed
    obtain ⟨one, deliverable⟩ := Prod.mk.inj counted
    refine ⟨⟨7, 1, 80, 60⟩, cars, tickets, ntickets, rfl, ?_, ?_, 0, ?_, ?_⟩
    · generalize observe ℚ _ _ _ _ = outcome at observed ⊢
      cases outcome with
      | error fault => cases observed
      | ok out => exact congrArg Except.ok (Option.some.inj observed)
    · simp only at one
      omega
    · simp only at deliverable
      omega
    · exact fun written => by cases written

theorem send_failure_removes_camera :
    run (eventStep ℚ 3) .init openingEvents = some openingState ∧
      ¬ BatchServed ℚ 3 openingState ticketedEvent ∧
      ∃ next, eventStep ℚ 3 openingState ticketedEvent = some next ∧ ¬ next.Connected 7 ∧
        (ticketedEvent.sys.timerDel = true → ticketedEvent.sys.clientDel = true →
          next.clients.map 7 = none) := by
  refine ⟨?_, send_failure_removes ticketed_sendFails⟩
  have reached : (run (eventStep ℚ 3) .init openingEvents).isSome = true := by decide +kernel
  obtain ⟨state, ran⟩ := Option.isSome_iff_exists.mp reached
  rw [openingState, ran, Option.getD_some]

/-- The camera is removed by the failing write to the dispatcher. -/
theorem not_batchServed :
    ¬ ∀ (state : ServerState) (event : Event) (client : Client) (front rest : List Message)
      (seen : Plate) (middle : Session),
      SendFails ℚ 3 state event client front seen rest middle →
        BatchServed ℚ 3 state event := by
  intro always
  obtain ⟨client, session, next, -, -, step, after, connected, -⟩ :=
    always _ _ _ _ _ _ _ ticketed_sendFails
  have gone : (eventStep ℚ 3 openingState ticketedEvent).map
      (fun next => (next.clients.map 7).isNone) = some true := by decide +kernel
  rw [step, Option.map_some, Option.some.injEq] at gone
  rw [show next.clients.map 7 = some after from connected] at gone
  cases gone

end Sending

end NetworkExercises.SpeedDaemon
