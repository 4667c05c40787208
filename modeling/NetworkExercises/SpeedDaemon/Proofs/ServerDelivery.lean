/-
Module: NetworkExercises.SpeedDaemon.Proofs.ServerDelivery
Purpose: Where the tickets of the server go: none waits for a road with a dispatcher, and each
  is sent by a pass to a dispatcher that is registered for its road before that pass.
Main exports: server_leaves_none_waiting, Registered, SendsNext, server_sends_to_registered
-/
import NetworkExercises.SpeedDaemon.Proofs.ServerRefinement

namespace NetworkExercises.SpeedDaemon

open Lib Checked

/-! ### No ticket waits -/

/-- No queued ticket is for a road that has a dispatcher. -/
def World.Settled (world : World) : Prop :=
  ∀ ticket ∈ world.tickets.queue, ¬ world.roads.deliverable ticket = true

theorem World.Settled.dispatchers {world : World} (settled : world.Settled) :
    ∀ ticket ∈ world.tickets.queue, world.roads.dispatchers ticket.road = ∅ := by
  intro ticket queued
  by_contra registered
  exact settled ticket queued
    (Roads.deliverable_iff.mpr (Finset.nonempty_iff_ne_empty.mpr registered))

/-- Where there are no more dispatchers and no more tickets, none waits that did not before. -/
theorem World.Settled.mono {world other : World} (settled : world.Settled)
    (tickets : other.tickets.queue ⊆ world.tickets.queue)
    (roads : ∀ fd road, fd ∈ other.roads.dispatchers road → fd ∈ world.roads.dispatchers road) :
    other.Settled := by
  intro ticket queued deliverable
  obtain ⟨fd, registered⟩ := Roads.deliverable_iff.mp deliverable
  exact settled ticket (tickets queued) (Roads.deliverable_iff.mpr ⟨fd, roads fd _ registered⟩)

section Arithmetic

variable {F : Type} [F64 F] {session final : Session}

/-- When every write succeeds, a pass leaves no ticket waiting. -/
theorem Session.dispatch_settled {sends : Nat → Sending}
    (written : ∀ number, (sends number).written = .all) (short : session.world.Short)
    (reaches : (session.dispatch sends).Reaches final) :
    final.world.Settled ∧ final.world.Short := by
  obtain ⟨pass, done⟩ : ∃ pass, dispatchTicketsQueue session.world.roads sends
      ⟨session.world.tickets, session.buf, session.world.net⟩ = .done pass :=
    dispatchTicketsQueue_done written short
  rw [Session.dispatch, done, Outcome.map_done, Outcome.done_reaches] at reaches
  rw [reaches]
  refine ⟨dispatchTicketsQueue_drains done, fun ticket queued => ?_⟩
  exact short ticket (dispatchTicketsQueue_subset (.inl done) queued)

/-- When every write succeeds, a message leaves no ticket waiting, however its handling ends:
whatever appends or registers makes a pass. -/
theorem handleMessage_settled {calls : Calls} {msg : Message}
    (written : ∀ number, (calls.sends number).written = .all) (wellFormed : msg.WellFormed)
    (settled : session.world.Settled) (short : session.world.Short)
    (reaches : (handleMessage F calls msg session).Reaches final) :
    final.world.Settled ∧ final.world.Short := by
  cases msg with
  | heartbeat | errorM msg | ticket issued =>
      rw [handleMessage, Outcome.raised_reaches] at reaches
      rw [reaches]
      exact ⟨settled, short⟩
  | camera position =>
      rw [(handleIAmCamera_frame reaches).1]
      exact ⟨settled, short⟩
  | wantHeartbeat interval =>
      obtain ⟨requested, timer, timers, rfl⟩ := handleWantHeartbeat_reaches reaches
      exact ⟨settled, short⟩
  | dispatcher roads =>
      rw [handleMessage, handleIAmDispatcher] at reaches
      split at reaches
      · rw [Outcome.raised_reaches] at reaches
        rw [reaches]
        exact ⟨settled, short⟩
      split at reaches
      · rw [Outcome.raised_reaches] at reaches
        rw [reaches]
        exact ⟨settled, short⟩
      · exact Session.dispatch_settled written (by exact short) reaches
  | plate seen =>
      simp only [handleMessage, handlePlate] at reaches
      split at reaches
      · split at reaches
        · exact absurd reaches Outcome.not_trap_reaches
        · rw [Outcome.raised_reaches] at reaches
          rw [reaches]
          exact ⟨settled, short⟩
        · next cars tickets ntickets observed =>
          have stillShort : (session.observed cars tickets).world.Short := by
            intro ticket queued
            rcases observe_queue observed ticket queued with old | new
            · exact short ticket old
            · exact new ▸ wellFormed.2
          split at reaches
          · exact Session.dispatch_settled written stillShort reaches
          · next none =>
            -- Without tickets the queue is what it was.
            obtain ⟨_, issued, _, count, records, -⟩ := observe_ok observed
            obtain rfl : issued = [] := List.eq_nil_of_length_eq_zero (by omega)
            have same : tickets = session.world.tickets := records.queue
            rw [Outcome.done_reaches] at reaches
            rw [reaches]
            refine ⟨?_, stillShort⟩
            rw [same]
            exact settled
      · rw [Outcome.raised_reaches] at reaches
        rw [reaches]
        exact ⟨settled, short⟩

theorem handleMessages_settled {arrival : Arrival} {calls : Nat → Calls}
    (written : ∀ i number, ((calls i).sends number).written = .all)
    (settled : session.world.Settled) (short : session.world.Short)
    (reaches : (handleMessages F arrival calls session).Reaches final) :
    final.world.Settled ∧ final.world.Short := by
  refine handleMessages_keeps (fun session => session.world.Settled ∧ session.world.Short)
    (fun _ _ both => both) ?_ ⟨settled, short⟩ reaches
  rintro i msg session final wellFormed ⟨settled, short⟩ handled
  exact handleMessage_settled (written i) wellFormed settled short handled

variable {serverfd : SocketFd} {state next : ServerState} {event : Event} {events : List Event}

/-- A removal takes dispatchers away and leaves the tickets alone. -/
theorem removeFd_settled {sys : Sys} {fd : SocketFd} {client : Client} {errorMsg : Option Bytes}
    {buf : U8BoundedArray} (settled : state.world.Settled)
    (removed : removeFd sys fd client errorMsg buf state = some next) : next.world.Settled := by
  obtain ⟨deleted, -, rfl⟩ := Option.map_eq_some_iff.mp removed
  refine settled.mono (List.Subset.refl _) ?_
  intro other road registered
  cases data : client.data with
  | camera camera | unidentified =>
      rw [data] at registered
      exact registered
  | dispatcher disp =>
      rw [data] at registered
      exact ((removeDispatcher_dispatchers _ _ _ _).mp registered).1

theorem acceptClient_settled {sys : Sys} (settled : state.world.Settled)
    (step : acceptClient sys state = some next) : next.world.Settled := by
  unfold acceptClient at step
  split at step
  · cases step
    exact settled
  simp only at step
  split at step
  · cases step
    exact settled
  split at step
  · cases step
  · exact removeFd_settled (by exact settled) step

theorem handleTimer_settled {timer : Timer} (settled : state.world.Settled)
    (step : handleTimer event timer state = some next) : next.world.Settled := by
  unfold handleTimer at step
  split at step
  · cases step
    exact settled
  simp only at step
  split at step
  · exact removeFd_settled (by exact settled) step
  split at step
  · cases step
  · cases step
    exact settled
  · exact removeFd_settled (by exact settled) step

/-- All tickets of an event are sent without an error. -/
def Sys.Sends (sys : Sys) : Prop := ∀ i number, ((sys.calls i).sends number).written = .all

theorem eventStep_settled (sends : event.sys.Sends) (settled : state.world.Settled)
    (short : state.world.Short) (step : eventStep F serverfd state event = some next) :
    next.world.Settled := by
  unfold eventStep at step
  split at step
  · exact acceptClient_settled settled step
  split at step
  · exact handleTimer_settled settled step
  split at step
  · cases step
    exact settled
  next client found =>
  cases handleClient_cases step with
  | closed _ removed => exact removeFd_settled (by exact settled) removed
  | served stays session done =>
      have after : session.world.Settled :=
        (handleMessages_settled (F := F) sends (by exact settled) (by exact short)
          (.inl done)).1
      exact after
  | failed stays error session raised errorMsg buf silent removed =>
      have after : session.world.Settled :=
        (handleMessages_settled (F := F) sends (by exact settled) (by exact short)
          (.inr ⟨error, raised⟩)).1
      exact removeFd_settled (by exact after) removed

/-- Whenever the server waits for the next event, after any run in which no send of a ticket
failed, no queued ticket is for a road that has a dispatcher. -/
theorem server_leaves_none_waiting (sends : ∀ event ∈ events, event.sys.Sends)
    (ran : run (eventStep F serverfd) .init events = some state) :
    ∀ ticket ∈ state.world.tickets.queue, state.world.roads.dispatchers ticket.road = ∅ := by
  have initial : ServerState.init.world.Settled ∧ ServerState.init.world.Short := ⟨nofun, nofun⟩
  have each : EachStep (fun _ event => True ∧ event.sys.Sends) (eventStep F serverfd) .init
      events :=
    (eachStep_of_forall (fun _ _ => trivial) events).and_forall sends
  have both : state.world.Settled ∧ state.world.Short := by
    refine run_preserves_when _ (fun state => state.world.Settled ∧ state.world.Short)
      ?_ initial each ran
    rintro state event next ⟨settled, short⟩ ⟨-, sends⟩ step
    exact ⟨eventStep_settled sends settled short step, eventStep_short short step⟩
  exact both.1.dispatchers

/-- Before the dispatcher identifies itself, the ticket waits for it. -/
theorem server_leaves_none_waiting_undispatched :
    ∃ server, run (eventStep ℚ 3) .init speedingEvents.dropLast = some server ∧
      server.world.tickets.queue = [⟨[65], 1, 0, 0, 80, 3600, 8000⟩] ∧
      server.world.roads.dispatchers 1 = ∅ := by
  have ran : (run (eventStep ℚ 3) .init speedingEvents.dropLast).map
      (fun server => server.world.tickets.queue) =
        some [⟨[65], 1, 0, 0, 80, 3600, 8000⟩] := by decide +kernel
  obtain ⟨server, ranEq, queue⟩ := Option.map_eq_some_iff.mp ran
  have sends : ∀ event ∈ speedingEvents.dropLast, event.sys.Sends := by
    intro event member
    simp only [speedingEvents, List.dropLast, List.mem_cons, List.not_mem_nil, or_false] at member
    rcases member with rfl | rfl | rfl | rfl | rfl <;> exact fun _ _ => rfl
  refine ⟨server, ranEq, queue, ?_⟩
  exact server_leaves_none_waiting sends ranEq ⟨[65], 1, 0, 0, 80, 3600, 8000⟩
    (by rw [queue]; exact List.mem_singleton_self _)

/-! ### Tickets go to registered dispatchers -/

/-- A dispatcher with the descriptor was added for the road, and was not removed since. -/
def Registered (past : List Operation) (fd : SocketFd) (road : UInt16) : Prop :=
  ∃ front disp back, past = front ++ .addDispatcher disp :: back ∧
    (disp.fd = fd ∧ road ∈ disp.roads) ∧
      ∀ gone, .removeDispatcher gone ∈ back → ¬ (gone.fd = fd ∧ road ∈ gone.roads)

variable {past : List Operation} {fd : SocketFd} {road : UInt16} {world after : World}
  {operation : Operation}

theorem Registered.added {disp : Dispatcher} (own : disp.fd = fd ∧ road ∈ disp.roads) :
    Registered (past ++ [.addDispatcher disp]) fd road :=
  ⟨past, disp, [], rfl, own, nofun⟩

/-- Only a removal of the dispatcher itself ends its registration. -/
theorem Registered.append (registered : Registered past fd road)
    (keeps : ∀ gone, operation = .removeDispatcher gone → ¬ (gone.fd = fd ∧ road ∈ gone.roads)) :
    Registered (past ++ [operation]) fd road := by
  obtain ⟨front, disp, back, rfl, own, since⟩ := registered
  refine ⟨front, disp, back ++ [operation], by simp, own, fun gone member => ?_⟩
  rcases List.mem_append.mp member with before | last
  · exact since gone before
  · exact keeps gone (List.mem_singleton.mp last).symm

/-- What is registered was registered before, unless it was just added; and it was not just
removed. -/
theorem Registered.of_append (registered : Registered (past ++ [operation]) fd road) :
    (∀ gone, operation = .removeDispatcher gone → ¬ (gone.fd = fd ∧ road ∈ gone.roads)) ∧
      (Registered past fd road ∨
        ∃ disp, operation = .addDispatcher disp ∧ disp.fd = fd ∧ road ∈ disp.roads) := by
  obtain ⟨front, disp, back, split, own, since⟩ := registered
  rcases List.eq_nil_or_concat back with rfl | ⟨middle, last, rfl⟩
  · obtain ⟨rfl, same⟩ := List.append_inj' split rfl
    obtain rfl : operation = .addDispatcher disp := (List.cons.inj same).1
    exact ⟨nofun, .inr ⟨disp, rfl, own⟩⟩
  · rw [List.concat_eq_append, ← List.cons_append, ← List.append_assoc] at split
    obtain ⟨rfl, same⟩ := List.append_inj' split rfl
    obtain rfl : operation = last := (List.cons.inj same).1
    refine ⟨fun gone removed => since gone (by simp [removed]), .inl ?_⟩
    exact ⟨front, disp, middle, rfl, own, fun gone member => since gone (by simp [member])⟩

/-- The dispatchers of the roads are those that are registered. -/
def RoadsRegistered (past : List Operation) (world : World) : Prop :=
  ∀ fd road, fd ∈ world.roads.dispatchers road ↔ Registered past fd road

theorem worldStep_registered (registered : RoadsRegistered past world)
    (step : worldStep F world operation = some after) :
    RoadsRegistered (past ++ [operation]) after := by
  -- Where the roads stay and nothing is added or removed, so do the registrations.
  have stays : after.roads = world.roads →
      (∀ disp, operation ≠ .addDispatcher disp) → (∀ disp, operation ≠ .removeDispatcher disp) →
        RoadsRegistered (past ++ [operation]) after := by
    intro same addsNone removesNone fd road
    rw [same, registered fd road]
    constructor
    · exact fun before => before.append fun gone removed => absurd removed (removesNone gone)
    · intro now
      rcases now.of_append.2 with before | ⟨disp, added, -⟩
      · exact before
      · exact absurd added (addsNone disp)
  cases operation with
  | addObservation seen cam =>
      simp only [worldStep] at step
      split at step <;> cases step <;> exact stays rfl (by rintro _ ⟨⟩) (by rintro _ ⟨⟩)
  | dispatchTicketsQueue sends =>
      simp only [worldStep] at step
      split at step <;> cases step <;> exact stays rfl (by rintro _ ⟨⟩) (by rintro _ ⟨⟩)
  | addDispatcher disp =>
      cases step
      intro fd road
      rw [addDispatcher_dispatchers, registered fd road]
      constructor
      · rintro (before | ⟨rfl, listed⟩)
        · exact before.append (by rintro _ ⟨⟩)
        · exact .added ⟨rfl, listed⟩
      · intro now
        rcases now.of_append.2 with before | ⟨other, same, rfl, listed⟩
        · exact .inl before
        · cases same
          exact .inr ⟨rfl, listed⟩
  | removeDispatcher disp =>
      cases step
      intro fd road
      rw [removeDispatcher_dispatchers, registered fd road]
      constructor
      · rintro ⟨before, stays⟩
        apply before.append
        rintro gone same ⟨rfl, listed⟩
        cases same
        exact stays ⟨rfl, listed⟩
      · intro now
        obtain ⟨stays, before⟩ := now.of_append
        refine ⟨before.resolve_right (by rintro ⟨_, ⟨⟩, _⟩), ?_⟩
        rintro ⟨rfl, listed⟩
        exact stays disp rfl ⟨rfl, listed⟩

theorem roadsRegistered_empty : RoadsRegistered [] World.empty := by
  intro fd road
  refine iff_of_false (by simp [World.empty, Roads.empty, Roads.dispatchers]) ?_
  rintro ⟨front, disp, back, split, -⟩
  exact absurd split (by simp)

/-- A pass adds tickets behind those that were sent, and only for dispatchers of their roads. -/
theorem dispatchLoop_sent {roads : Roads} {sends : Nat → Sending} {left taken : Nat}
    {pass final : Pass} (reaches : (dispatchLoop roads sends left taken pass).Reaches final) :
    ∃ handed, final.tickets.sent = pass.tickets.sent ++ handed ∧
      ∀ entry ∈ handed, entry.1 ∈ roads.dispatchers entry.2.road := by
  induction left generalizing taken pass with
  | zero =>
      rw [dispatchLoop, Outcome.done_reaches] at reaches
      exact ⟨[], by rw [reaches, List.append_nil], by simp⟩
  | succ left ih =>
      rw [dispatchLoop] at reaches
      split at reaches
      · rw [Outcome.done_reaches] at reaches
        exact ⟨[], by rw [reaches, List.append_nil], by simp⟩
      · next ticket found =>
        rcases Outcome.andThen_reaches reaches with ⟨error, failed⟩ | ⟨middle, sent, rest⟩
        · exact ⟨[], by rw [sendTicket_tickets (.inr ⟨error, failed⟩), List.append_nil], by simp⟩
        · obtain ⟨handed, sentEq, registered⟩ := ih rest
          have own := (sends taken).member _ (Roads.deliverable_iff.mp (List.find?_some found))
          refine ⟨((sends taken).next (roads.dispatchers ticket.road), ticket) :: handed, ?_,
            List.forall_mem_cons.mpr ⟨own, registered⟩⟩
          rw [sentEq]
          simp only [TicketsQueue.removeFirst, TicketsQueue.noteSent,
            sendTicket_tickets (.inl sent), List.append_assoc, List.singleton_append]

theorem dispatchTicketsQueue_sent {roads : Roads} {sends : Nat → Sending} {pass final : Pass}
    (reaches : (dispatchTicketsQueue roads sends pass).Reaches final) :
    ∃ handed, final.tickets.sent = pass.tickets.sent ++ handed ∧
      ∀ entry ∈ handed, entry.1 ∈ roads.dispatchers entry.2.road := by
  unfold dispatchTicketsQueue at reaches
  split at reaches
  · rw [Outcome.done_reaches] at reaches
    exact ⟨[], by rw [reaches, List.append_nil], by simp⟩
  · exact dispatchLoop_sent reaches

variable (F) in
/-- The pass behind the operations `front` sends `entry`: when it begins, at most the tickets
`earlier` have been sent, and when it ends, `entry` has been sent behind them. -/
def SendsNext (front : List Operation) (sends : Nat → Sending)
    (earlier : List (SocketFd × Ticket)) (entry : SocketFd × Ticket) : Prop :=
  ∃ before after, run (worldStep F) .empty front = some before ∧
    worldStep F before (.dispatchTicketsQueue sends) = some after ∧
    before.tickets.sent <+: earlier ∧ earlier ++ [entry] <+: after.tickets.sent

variable (F) in
/-- Each ticket was sent by a pass before which the descriptor it was sent to was registered
for its road. -/
def SentToRegistered (past : List Operation) (world : World) : Prop :=
  ∀ earlier entry later, world.tickets.sent = earlier ++ entry :: later →
    ∃ front sends back, past = front ++ .dispatchTicketsQueue sends :: back ∧
      SendsNext F front sends earlier entry ∧ Registered front entry.1 entry.2.road

theorem sentToRegistered_empty : SentToRegistered F [] World.empty := by
  intro earlier entry later split
  have lengths := congrArg List.length split
  simp [World.empty, TicketsQueue.empty] at lengths

theorem SentToRegistered.append (sent : SentToRegistered F past world)
    (same : after.tickets.sent = world.tickets.sent) :
    SentToRegistered F (past ++ [operation]) after := by
  intro earlier entry later split
  rw [same] at split
  obtain ⟨front, sends, back, rfl, next, registered⟩ := sent earlier entry later split
  exact ⟨front, sends, back ++ [operation], by simp, next, registered⟩

theorem SentToRegistered.pass {sends : Nat → Sending} {handed : List (SocketFd × Ticket)}
    (sent : SentToRegistered F past world) (registered : RoadsRegistered past world)
    (ran : run (worldStep F) .empty past = some world)
    (step : worldStep F world (.dispatchTicketsQueue sends) = some after)
    (sentEq : after.tickets.sent = world.tickets.sent ++ handed)
    (own : ∀ entry ∈ handed, entry.1 ∈ world.roads.dispatchers entry.2.road) :
    SentToRegistered F (past ++ [.dispatchTicketsQueue sends]) after := by
  intro earlier entry later split
  -- The entry was handed over by this pass, or it had been sent before.
  have handedNow : world.tickets.sent <+: earlier → entry ∈ handed →
      ∃ front sends' back, past ++ [.dispatchTicketsQueue sends] =
          front ++ .dispatchTicketsQueue sends' :: back ∧
        SendsNext F front sends' earlier entry ∧ Registered front entry.1 entry.2.road := by
    intro begins member
    refine ⟨past, sends, [], rfl, ⟨world, after, ran, step, begins, ?_⟩,
      (registered _ _).mp (own entry member)⟩
    exact ⟨later, by rw [split, ← List.append_cons]⟩
  rcases List.append_eq_append_iff.mp (sentEq.symm.trans split) with
    ⟨new, rfl, handedEq⟩ | ⟨old, sentBefore, rest⟩
  · exact handedNow (List.prefix_append _ _) (by rw [handedEq]; simp)
  · cases old with
    | nil =>
        rw [List.append_nil] at sentBefore
        exact handedNow (by rw [sentBefore]) (by rw [← List.nil_append handed, ← rest]; simp)
    | cons first old =>
        obtain ⟨rfl, -⟩ := List.cons.inj rest
        obtain ⟨front, others, back, rfl, next, atThatTime⟩ := sent earlier entry old sentBefore
        exact ⟨front, others, back ++ [.dispatchTicketsQueue sends], by simp, next, atThatTime⟩

theorem worldStep_sentToRegistered (sent : SentToRegistered F past world)
    (registered : RoadsRegistered past world)
    (ran : run (worldStep F) .empty past = some world)
    (step : worldStep F world operation = some after) :
    SentToRegistered F (past ++ [operation]) after := by
  cases operation with
  | addObservation seen cam =>
      simp only [worldStep] at step
      split at step
      · next cars queue ntickets done =>
        cases step
        obtain ⟨_, issued, _, -, records, -⟩ := observe_ok done
        apply sent.append
        simp only [records.queue, TicketsQueue.appendAll_eq]
      · cases step
        exact sent.append rfl
      · cases step
  | addDispatcher disp | removeDispatcher disp =>
      cases step
      exact sent.append rfl
  | dispatchTicketsQueue sends =>
      have passes := step
      simp only [worldStep] at passes
      split at passes
      · next pass done =>
        cases passes
        obtain ⟨handed, sentEq, own⟩ := dispatchTicketsQueue_sent (.inl done)
        exact sent.pass registered ran step sentEq own
      · next error pass raised =>
        cases passes
        obtain ⟨handed, sentEq, own⟩ := dispatchTicketsQueue_sent (.inr ⟨error, raised⟩)
        exact sent.pass registered ran step sentEq own
      · cases passes

/-- In every run of the server the dispatchers of a road are those that have registered for it
and were not removed since, and each ticket that was sent went to one that was registered for
its road before the pass that sent it. -/
theorem server_sends_to_registered
    (ran : run (eventStep F serverfd) .init events = some state) :
    (∀ fd road, fd ∈ state.world.roads.dispatchers road ↔
      Registered (serverOperations F serverfd events) fd road) ∧
    ∀ earlier entry later, state.world.tickets.sent = earlier ++ entry :: later →
      ∃ front sends back,
        serverOperations F serverfd events = front ++ .dispatchTicketsQueue sends :: back ∧
          SendsNext F front sends earlier entry ∧ Registered front entry.1 entry.2.road := by
  obtain ⟨world, operated, same⟩ := serverOperations_run ran
  have all : run (worldStep F) .empty ([] ++ serverOperations F serverfd events) = some world ∧
      RoadsRegistered ([] ++ serverOperations F serverfd events) world ∧
      SentToRegistered F ([] ++ serverOperations F serverfd events) world := by
    refine run_relates (fun past world => run (worldStep F) .empty past = some world ∧
      RoadsRegistered past world ∧ SentToRegistered F past world) ?_
      ⟨rfl, roadsRegistered_empty, sentToRegistered_empty⟩ operated
    rintro past world operation after ⟨ran, registered, sent⟩ step
    refine ⟨run_append_eq_some.mpr ⟨world, ran, run_cons_eq_some.mpr ⟨after, step, rfl⟩⟩, ?_, ?_⟩
    · exact worldStep_registered registered step
    · exact worldStep_sentToRegistered sent registered ran step
  rw [same.roads, same.tickets]
  exact all.2

end Arithmetic

theorem server_sends_to_registered_speeding :
    ∃ front sends back, serverOperations ℚ 3 speedingEvents =
        front ++ .dispatchTicketsQueue sends :: back ∧
      SendsNext ℚ front sends [] (7, ⟨[65], 1, 0, 0, 80, 3600, 8000⟩) ∧ Registered front 7 1 := by
  have ran : (run (eventStep ℚ 3) .init speedingEvents).map
      (fun server => server.world.tickets.sent) =
        some [(7, ⟨[65], 1, 0, 0, 80, 3600, 8000⟩)] := by decide +kernel
  obtain ⟨server, ranEq, sent⟩ := Option.map_eq_some_iff.mp ran
  exact (server_sends_to_registered ranEq).2 [] (7, ⟨[65], 1, 0, 0, 80, 3600, 8000⟩) [] sent

end NetworkExercises.SpeedDaemon
