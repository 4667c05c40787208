/-
Module: NetworkExercises.SpeedDaemon.Proofs.Delivery
Purpose: No ticket is lost or sent twice, and after a pass no ticket waits for a
  road that has a dispatcher.
Main exports: World, tickets_conserved, Station, no_ticket_waits
-/
import NetworkExercises.SpeedDaemon.World
import NetworkExercises.SpeedDaemon.Proofs.Tickets

namespace NetworkExercises.SpeedDaemon

open Lib Checked

/-! ### Removing a first match -/

section FirstMatch

variable {α : Type} {p : α → Bool} {items : List α} {item : α}

/-- A list is its first match and the rest, in another order. -/
theorem perm_cons_eraseP (found : items.find? p = some item) :
    items.Perm (item :: items.eraseP p) := by
  obtain ⟨isMatch, front, back, rfl, before⟩ := List.find?_eq_some_iff_append.mp found
  have noneBefore : ∀ other ∈ front, ¬ p other = true := by simpa using before
  rw [List.eraseP_append_right _ noneBefore, List.eraseP_cons_of_pos isMatch]
  exact List.perm_middle

theorem countP_eraseP (found : items.find? p = some item) :
    (items.eraseP p).countP p + 1 = items.countP p := by
  rw [(perm_cons_eraseP found).countP_eq, List.countP_cons_of_pos (List.find?_some found)]

end FirstMatch

/-! ### One pass -/

/-- Every ticket ever appended has been sent or is still queued, and no other
ticket is. -/
def TicketsQueue.Conserved (self : TicketsQueue) : Prop :=
  (self.appended : Multiset Ticket) = (self.sent.map Prod.snd : Multiset Ticket) + self.queue

theorem TicketsQueue.Conserved.appendAll {self : TicketsQueue} (conserved : self.Conserved)
    (tickets : List Ticket) : (self.appendAll tickets).Conserved := by
  unfold Conserved at conserved ⊢
  simp only [TicketsQueue.appendAll_eq, ← Multiset.coe_add, conserved, add_assoc]

/-- A ticket that is noted as sent is removed from the queue. -/
theorem TicketsQueue.Conserved.sent_removed {self : TicketsQueue} {roads : Roads}
    {ticket : Ticket} (conserved : self.Conserved)
    (found : self.queue.find? roads.deliverable = some ticket) (fd : SocketFd) :
    ((self.noteSent fd ticket).removeFirst roads).Conserved := by
  have split : (self.queue : Multiset Ticket) =
      {ticket} + (self.queue.eraseP roads.deliverable : Multiset Ticket) := by
    rw [Multiset.coe_eq_coe.mpr (perm_cons_eraseP found)]
    rfl
  unfold Conserved at conserved ⊢
  simp only [noteSent, removeFirst, List.map_append, List.map_cons, List.map_nil,
    ← Multiset.coe_add, Multiset.coe_singleton, conserved, split, add_assoc]

variable {roads : Roads} {sends : Nat → Sending} {pass final : Pass}

/-- Sending a ticket does not touch the queue. -/
theorem sendTicket_tickets {fd : SocketFd} {ticket : Message} {written : WriteResult}
    (reaches : (sendTicket fd ticket written pass).Reaches final) :
    final.tickets = pass.tickets := by
  unfold sendTicket at reaches
  split at reaches
  · rw [Outcome.raised_reaches] at reaches
    rw [reaches]
  split at reaches
  · rw [Outcome.raised_reaches] at reaches
    rw [reaches]
  · obtain ⟨net, -, rfl⟩ := Outcome.map_reaches reaches
    rfl

/-- What holds before a pass, and is kept by a failing send and by a send with the
removal after it, holds on every exit of the pass. -/
theorem dispatchLoop_rule (P : Pass → Prop)
    (failing : ∀ number pass final fd ticket error, P pass →
      sendTicket fd (.ticket ticket) (sends number).written
        { pass with buf := BoundedArray.clear } = .raised error final → P final)
    (sending : ∀ number pass middle fd ticket, P pass →
      pass.tickets.queue.find? roads.deliverable = some ticket →
      sendTicket fd (.ticket ticket) (sends number).written
        { pass with buf := BoundedArray.clear } = .done middle →
      P { middle with tickets := (middle.tickets.noteSent fd ticket).removeFirst roads })
    {left taken : Nat} (before : P pass)
    (reaches : (dispatchLoop roads sends left taken pass).Reaches final) : P final := by
  induction left generalizing taken pass with
  | zero =>
      rw [dispatchLoop, Outcome.done_reaches] at reaches
      rwa [reaches]
  | succ left ih =>
      rw [dispatchLoop] at reaches
      split at reaches
      · rw [Outcome.done_reaches] at reaches
        rwa [reaches]
      · next ticket found =>
        rcases Outcome.andThen_reaches reaches with ⟨error, failed⟩ | ⟨middle, sent, rest⟩
        · exact failing taken pass final _ ticket error before failed
        · exact ih (sending taken pass middle _ ticket before found sent) rest

/-- A pass never traps. -/
theorem dispatchLoop_total (roads : Roads) (sends : Nat → Sending) (left taken : Nat)
    (pass : Pass) : ∃ final, (dispatchLoop roads sends left taken pass).Reaches final := by
  induction left generalizing taken pass with
  | zero => exact ⟨pass, .inl rfl⟩
  | succ left ih =>
      rw [dispatchLoop]
      cases pass.tickets.queue.find? roads.deliverable with
      | none => exact ⟨pass, .inl rfl⟩
      | some ticket =>
          simp only
          generalize (sends taken).next (roads.dispatchers ticket.road) = disp
          generalize { pass with buf := BoundedArray.clear } = cleared
          cases sent : sendTicket disp (.ticket ticket) (sends taken).written cleared with
          | done middle => exact ih _ _
          | raised error middle => exact ⟨middle, .inr ⟨error, rfl⟩⟩
          | trap =>
              unfold sendTicket writeAll at sent
              repeat' split at sent
              all_goals cases sent

theorem dispatchTicketsQueue_total (roads : Roads) (sends : Nat → Sending) (pass : Pass) :
    ∃ final, (dispatchTicketsQueue roads sends pass).Reaches final := by
  unfold dispatchTicketsQueue
  split
  · exact ⟨pass, .inl rfl⟩
  · exact dispatchLoop_total roads sends _ 0 pass

/-- On every exit of a pass the tickets are conserved. -/
theorem dispatchTicketsQueue_conserves (conserved : pass.tickets.Conserved)
    (reaches : (dispatchTicketsQueue roads sends pass).Reaches final) :
    final.tickets.Conserved := by
  unfold dispatchTicketsQueue at reaches
  split at reaches
  · rw [Outcome.done_reaches] at reaches
    rwa [reaches]
  refine dispatchLoop_rule (fun pass => pass.tickets.Conserved) ?_ ?_ conserved reaches
  · -- A failing send removes nothing.
    intro number pass final fd ticket error conserved failed
    rw [sendTicket_tickets (.inr ⟨error, failed⟩)]
    exact conserved
  · intro number pass middle fd ticket conserved found sent
    simp only [sendTicket_tickets (.inl sent)]
    exact conserved.sent_removed found fd

/-- A pass appends nothing. -/
theorem dispatchTicketsQueue_appended
    (reaches : (dispatchTicketsQueue roads sends pass).Reaches final) :
    final.tickets.appended = pass.tickets.appended := by
  unfold dispatchTicketsQueue at reaches
  split at reaches
  · rw [Outcome.done_reaches] at reaches
    rw [reaches]
  refine dispatchLoop_rule (fun other => other.tickets.appended = pass.tickets.appended)
    ?_ ?_ rfl reaches
  · intro number pass final fd ticket error same failed
    rw [sendTicket_tickets (.inr ⟨error, failed⟩)]
    exact same
  · intro number pass middle fd ticket same found sent
    simp only [TicketsQueue.removeFirst, TicketsQueue.noteSent,
      sendTicket_tickets (.inl sent)]
    exact same

/-- A pass with enough turns that ends without an error leaves no deliverable
ticket behind. -/
theorem dispatchLoop_drains {left taken : Nat}
    (enough : pass.tickets.queue.countP roads.deliverable ≤ left)
    (done : dispatchLoop roads sends left taken pass = .done final) :
    ∀ ticket ∈ final.tickets.queue, ¬ roads.deliverable ticket = true := by
  induction left generalizing taken pass with
  | zero =>
      cases done
      exact List.countP_eq_zero.mp (Nat.le_zero.mp enough)
  | succ left ih =>
      rw [dispatchLoop] at done
      split at done
      · next nothing =>
        cases done
        simpa using nothing
      · next ticket found =>
        obtain ⟨middle, sent, rest⟩ := Outcome.andThen_eq_done.mp done
        have kept := sendTicket_tickets (.inl sent)
        have fewer := countP_eraseP found
        refine ih ?_ rest
        simp only [kept, TicketsQueue.removeFirst, TicketsQueue.noteSent]
        omega

theorem dispatchTicketsQueue_drains
    (done : dispatchTicketsQueue roads sends pass = .done final) :
    ∀ ticket ∈ final.tickets.queue, ¬ roads.deliverable ticket = true := by
  unfold dispatchTicketsQueue at done
  split at done
  · next empty =>
    cases done
    simp [List.length_eq_zero_iff.mp empty]
  · exact dispatchLoop_drains List.countP_le_length done

/-- A ticket with a plate of at most 255 bytes is sent as its frame. -/
theorem sendTicket_all {ticket : Ticket} (short : ticket.plate.length ≤ 255)
    (fd : SocketFd) (pass : Pass) :
    ∃ buf, sendTicket fd (.ticket ticket) .all { pass with buf := BoundedArray.clear } =
      .done { pass with
        buf := buf
        net := Function.update pass.net fd
          (pass.net fd ++ (Message.ticket ticket).wire) } := by
  obtain ⟨buf, encoded, items⟩ :=
    hostToNetwork_clear (by rfl : (Message.ticket ticket).IsServer) short
  refine ⟨buf, ?_⟩
  simp [sendTicket, Message.type, encoded, writeAll, items]

/-- A ticket is only sent when its write succeeds. -/
theorem sendTicket_written {fd : SocketFd} {ticket : Message} {written : WriteResult}
    (done : sendTicket fd ticket written pass = .done final) : written = .all := by
  unfold sendTicket at done
  split at done
  · cases done
  split at done
  · cases done
  cases written with
  | all => rfl
  | failed count errorName => cases done

/-- A pass with enough turns that ends without an error has written every ticket that can
be delivered. -/
theorem dispatchLoop_written {left taken : Nat}
    (enough : pass.tickets.queue.countP roads.deliverable ≤ left)
    (done : dispatchLoop roads sends left taken pass = .done final) :
    ∀ number < pass.tickets.queue.countP roads.deliverable,
      (sends (taken + number)).written = .all := by
  induction left generalizing taken pass with
  | zero =>
      rw [Nat.le_zero.mp enough]
      exact fun number below => absurd below (Nat.not_lt_zero number)
  | succ left ih =>
      rw [dispatchLoop] at done
      split at done
      · next nothing =>
        have none : pass.tickets.queue.countP roads.deliverable = 0 :=
          List.countP_eq_zero.mpr (by simpa using nothing)
        rw [none]
        exact fun number below => absurd below (Nat.not_lt_zero number)
      · next ticket found =>
        obtain ⟨middle, sent, rest⟩ := Outcome.andThen_eq_done.mp done
        have kept := sendTicket_tickets (.inl sent)
        have fewer := countP_eraseP found
        have later := ih (by
          simp only [kept, TicketsQueue.removeFirst, TicketsQueue.noteSent]
          omega) rest
        intro number below
        cases number with
        | zero => exact sendTicket_written sent
        | succ number =>
            rw [Nat.add_comm number, ← Nat.add_assoc]
            apply later
            simp only [kept, TicketsQueue.removeFirst, TicketsQueue.noteSent]
            omega

theorem dispatchTicketsQueue_written
    (done : dispatchTicketsQueue roads sends pass = .done final) :
    ∀ number < pass.tickets.queue.countP roads.deliverable,
      (sends number).written = .all := by
  unfold dispatchTicketsQueue at done
  split at done
  · next empty =>
    simp [List.length_eq_zero_iff.mp empty]
  · simpa using dispatchLoop_written List.countP_le_length done

/-- When every write succeeds, a pass over tickets with such plates ends without
an error. -/
theorem dispatchLoop_done (written : ∀ number, (sends number).written = .all)
    {left taken : Nat} (short : ∀ ticket ∈ pass.tickets.queue, ticket.plate.length ≤ 255) :
    ∃ final, dispatchLoop roads sends left taken pass = .done final := by
  induction left generalizing taken pass with
  | zero => exact ⟨pass, rfl⟩
  | succ left ih =>
      rw [dispatchLoop]
      split
      · exact ⟨pass, rfl⟩
      · next ticket found =>
        obtain ⟨buf, sent⟩ := sendTicket_all (short ticket (List.mem_of_find?_eq_some found))
          ((sends taken).next (roads.dispatchers ticket.road)) pass
        simp only [written, sent, Outcome.done_andThen]
        exact ih fun ticket queued => short ticket (List.mem_of_mem_eraseP queued)

theorem dispatchTicketsQueue_done (written : ∀ number, (sends number).written = .all)
    (short : ∀ ticket ∈ pass.tickets.queue, ticket.plate.length ≤ 255) :
    ∃ final, dispatchTicketsQueue roads sends pass = .done final := by
  unfold dispatchTicketsQueue
  split
  · exact ⟨pass, rfl⟩
  · exact dispatchLoop_done written short

/-! ### Whole runs -/

section Arithmetic

variable {F : Type} [F64 F]

/-- An observation that is recorded only appends the tickets it returns the number
of. -/
theorem observe_ok {cars cars' : Cars} {queue queue' : TicketsQueue} {seen : Plate}
    {cam : Camera} {ntickets : Nat}
    (done : observe F cars queue seen cam = .ok (cars', queue', ntickets)) :
    ∃ car issued car', ntickets = issued.length ∧
      Records F car queue seen cam car' queue' issued ∧
      (cars.map seen.plate = some car ∨
        cars.map seen.plate = none ∧ car = Car.init seen.plate) ∧
      cars'.map = Function.update cars.map seen.plate car' := by
  obtain ⟨⟨middle, car⟩, found, done⟩ := bind_eq_ok.mp done
  obtain ⟨⟨car', queue'', count⟩, called, done⟩ := bind_eq_ok.mp done
  cases done
  obtain ⟨seen', issued, messageEq, countEq, records⟩ := addObservation_ok called
  cases messageEq
  have plateEq : car'.plate = seen.plate := records.plate.trans records.own.symm
  refine ⟨car, issued, car', countEq, records, ?_⟩
  unfold Cars.getOrPut at found
  split at found
  · cases found
  split at found
  · next stored =>
    cases found
    exact ⟨.inl stored, by rw [Cars.put_map, plateEq]⟩
  · next missing =>
    cases found
    refine ⟨.inr ⟨missing, rfl⟩, ?_⟩
    simp [plateEq, Car.init]

/-- An observation of a plate that is not empty returns no error. -/
theorem observe_unfailing {cars : Cars} {queue : TicketsQueue} {seen : Plate}
    {cam : Camera} (nonempty : seen.plate.length ≠ 0) :
    Unfailing (observe F cars queue seen cam) := by
  have onCar : ∀ (cars : Cars) (car : Car), car.plate = seen.plate →
      Unfailing (car.addObservation F queue (.plate seen) cam >>= fun result =>
        .ok (cars.put result.1, result.2.1, result.2.2)) :=
    fun cars car plate => (addObservation_unfailing plate.symm (plate ▸ nonempty)).bind
      fun _ _ => unfailing_ok _
  rw [observe, Cars.getOrPut, if_neg nonempty]
  cases stored : cars.map seen.plate with
  | some car => exact onCar cars car (cars.keyed _ car stored)
  | none => exact onCar _ (Car.init seen.plate) rfl

/-- The car of a plate, which is new when the plate was not seen before. -/
def Cars.carOf (self : Cars) (plate : Bytes) : Car := (self.map plate).getD (Car.init plate)

/-- An observation of a plate that is not empty only traps when some speed does not fit
its ticket. -/
theorem observe_trap {cars : Cars} {queue : TicketsQueue} {seen : Plate} {cam : Camera}
    (nonempty : seen.plate.length ≠ 0) (trapped : observe F cars queue seen cam = trap) :
    CastFails F ((cars.carOf seen.plate).observationsAfter seen cam) := by
  have onCar : ∀ (cars : Cars) (car : Car), car.plate = seen.plate →
      (car.addObservation F queue (.plate seen) cam >>= fun result =>
        .ok (cars.put result.1, result.2.1, result.2.2)) = trap →
      CastFails F (car.observationsAfter seen cam) := by
    intro cars car plate trapped
    cases called : car.addObservation F queue (.plate seen) cam with
    | ok result =>
        rw [called] at trapped
        cases trapped
    | error fault =>
        cases fault with
        | error error =>
            rw [called] at trapped
            cases trapped
        | trap => exact addObservation_trap plate.symm (plate ▸ nonempty) called
  rw [observe, Cars.getOrPut, if_neg nonempty] at trapped
  unfold Cars.carOf
  cases stored : cars.map seen.plate with
  | some car =>
      rw [stored] at trapped
      exact onCar cars car (cars.keyed _ car stored) trapped
  | none =>
      rw [stored] at trapped
      exact onCar _ (Car.init seen.plate) rfl trapped

/-- The tickets of an observation have the plate that was seen. -/
theorem observe_queue {cars cars' : Cars} {queue queue' : TicketsQueue} {seen : Plate}
    {cam : Camera} {ntickets : Nat}
    (done : observe F cars queue seen cam = .ok (cars', queue', ntickets)) :
    ∀ ticket ∈ queue'.queue, ticket ∈ queue.queue ∨ ticket.plate = seen.plate := by
  obtain ⟨car, issued, car', -, records, -⟩ := observe_ok done
  intro ticket queued
  rw [records.queue, TicketsQueue.appendAll_eq] at queued
  rcases List.mem_append.mp queued with old | new
  · exact .inl old
  · obtain ⟨obs1, _, obs2, _, speed, _, _, _, rfl⟩ := records.justified ticket new
    exact .inr records.own.symm

theorem worldStep_conserves {world next : World} {operation : Operation}
    (conserved : world.tickets.Conserved)
    (step : worldStep F world operation = some next) : next.tickets.Conserved := by
  cases operation with
  | addObservation seen cam =>
      simp only [worldStep] at step
      split at step
      · next cars queue ntickets done =>
        cases step
        obtain ⟨_, issued, _, -, records, -⟩ := observe_ok done
        simp only [records.queue]
        exact conserved.appendAll issued
      · cases step
        exact conserved
      · cases step
  | addDispatcher disp | removeDispatcher disp =>
      cases step
      exact conserved
  | dispatchTicketsQueue sends =>
      simp only [worldStep] at step
      split at step
      · next pass done =>
        cases step
        exact dispatchTicketsQueue_conserves (by exact conserved) (.inl done)
      · next error pass raised =>
        cases step
        exact dispatchTicketsQueue_conserves (by exact conserved) (.inr ⟨error, raised⟩)
      · cases step

/-- In every run the tickets appended are the tickets sent and the tickets still
queued, and a call of `addObservation` returns the number of tickets that it
appends. -/
theorem tickets_conserved :
    (∀ (operations : List Operation) (world : World),
      run (worldStep F) World.empty operations = some world → world.tickets.Conserved) ∧
    ∀ (car car' : Car) (queue queue' : TicketsQueue) (message : Message) (cam : Camera)
        (count : Nat),
      car.addObservation F queue message cam = .ok (car', queue', count) →
        ∃ issued, queue' = queue.appendAll issued ∧ count = issued.length := by
  refine ⟨fun operations world ran => ?_, ?_⟩
  · refine run_preserves (fun world => world.tickets.Conserved) ?_ rfl ran
    exact fun world operation next conserved step => worldStep_conserves conserved step
  · intro car car' queue queue' message cam count done
    obtain ⟨_, issued, -, countEq, records⟩ := addObservation_ok done
    exact ⟨issued, records.queue, countEq⟩

end Arithmetic

/-- Sends to the least dispatcher of a set, with a given end of the write. -/
def Sending.least (written : WriteResult) : Sending where
  next dispatchers :=
    if nonempty : dispatchers.Nonempty then dispatchers.min' nonempty else 0
  member dispatchers nonempty := by
    rw [dif_pos nonempty]
    exact dispatchers.min'_mem nonempty
  written := written

/-- A ticket whose first send fails and whose second send succeeds. -/
def resent : List Operation :=
  [.addObservation ⟨[65], 0⟩ ⟨3, 1, 0, 60⟩, .addObservation ⟨[65], 3600⟩ ⟨4, 1, 80, 60⟩,
    .addDispatcher ⟨7, [1]⟩,
    .dispatchTicketsQueue fun _ => .least (.failed 1 "BrokenPipe"),
    .dispatchTicketsQueue fun _ => .least .all]

theorem tickets_conserved_resent :
    (∃ world, run (worldStep ℚ) World.empty resent = some world ∧
      world.tickets.Conserved) ∧
    ∃ car' queue' count,
      (Car.init [65]).addObservation ℚ .empty (.plate ⟨[65], 0⟩) ⟨3, 1, 0, 60⟩ =
          .ok (car', queue', count) ∧
        ∃ issued, queue' = TicketsQueue.empty.appendAll issued ∧ count = issued.length := by
  obtain ⟨conserved, returns⟩ := tickets_conserved (F := ℚ)
  have runs : (run (worldStep ℚ) World.empty resent).isSome := by decide +kernel
  obtain ⟨world, ran⟩ := Option.isSome_iff_exists.mp runs
  have called : (Car.init [65]).addObservation ℚ .empty (.plate ⟨[65], 0⟩) ⟨3, 1, 0, 60⟩ =
      .ok (⟨[65], ∅, Function.update (fun _ => none) 1
        [observationOf ⟨[65], 0⟩ ⟨3, 1, 0, 60⟩]⟩, .empty, 0) := rfl
  exact ⟨⟨world, ran, conserved resent world ran⟩, _, _, _, called,
    returns _ _ _ _ _ _ _ called⟩

/-! ### The dispatchers of a road -/

theorem addTo_dispatchers (fd other : SocketFd) (roads : Roads) (number road : UInt16) :
    other ∈ (roads.addTo fd number).dispatchers road ↔
      other ∈ roads.dispatchers road ∨ other = fd ∧ road = number := by
  by_cases same : road = number
  · subst same
    unfold Roads.addTo
    split
    · next found => simp [Roads.dispatchers, Roads.put, found, or_comm]
    · next missing => simp [Roads.dispatchers, Roads.put, missing]
  · unfold Roads.addTo
    split <;> simp [Roads.dispatchers, Roads.put, same]

theorem addDispatcher_dispatchers (disp : Dispatcher) (fd : SocketFd) (roads : Roads)
    (road : UInt16) :
    fd ∈ (roads.addDispatcher disp).dispatchers road ↔
      fd ∈ roads.dispatchers road ∨ fd = disp.fd ∧ road ∈ disp.roads := by
  unfold Roads.addDispatcher
  induction disp.roads generalizing roads with
  | nil => simp
  | cons number numbers ih =>
      rw [List.foldl_cons, ih, addTo_dispatchers, List.mem_cons]
      tauto

theorem removeFrom_dispatchers (fd other : SocketFd) (roads : Roads) (number road : UInt16) :
    other ∈ (roads.removeFrom fd number).dispatchers road ↔
      other ∈ roads.dispatchers road ∧ ¬ (other = fd ∧ road = number) := by
  by_cases same : road = number
  · subst same
    unfold Roads.removeFrom
    split
    · next found => simp [Roads.dispatchers, Roads.put, found, and_comm]
    · next missing => simp [Roads.dispatchers, missing]
  · unfold Roads.removeFrom
    split
    · simp [Roads.dispatchers, Roads.put, same]
    · simp [same]

theorem removeDispatcher_dispatchers (disp : Dispatcher) (fd : SocketFd) (roads : Roads)
    (road : UInt16) :
    fd ∈ (roads.removeDispatcher disp).dispatchers road ↔
      fd ∈ roads.dispatchers road ∧ ¬ (fd = disp.fd ∧ road ∈ disp.roads) := by
  unfold Roads.removeDispatcher
  induction disp.roads generalizing roads with
  | nil => simp
  | cons number numbers ih =>
      rw [List.foldl_cons, ih, removeFrom_dispatchers, List.mem_cons]
      tauto

/-! ### Handlers that owe a pass -/

theorem Roads.deliverable_iff {roads : Roads} {ticket : Ticket} :
    roads.deliverable ticket = true ↔ (roads.dispatchers ticket.road).Nonempty := by
  unfold Roads.deliverable Roads.dispatchers
  split <;> simp [Finset.nonempty_iff_ne_empty]

/-- A ticket that waits for a road with a dispatcher waits for a pass that some
handler still owes. -/
def Station.Awaited {ι : Type} (station : Station ι) : Prop :=
  (∃ ticket ∈ station.tickets.queue, station.roads.deliverable ticket = true) →
    ∃ handler, station.owes handler

variable {ι : Type} [DecidableEq ι] {station next : Station ι}

theorem Station.Step.awaited (step : Station.Step station next)
    (awaited : station.Awaited) : next.Awaited := by
  cases step with
  | append handler tickets nonempty => exact fun _ => ⟨handler, by simp⟩
  | register handler disp => exact fun _ => ⟨handler, by simp⟩
  | pass handler sends pass done =>
      -- The pass that this handler owed has just been made.
      rintro ⟨ticket, queued, deliverable⟩
      exact absurd deliverable (dispatchTicketsQueue_drains done ticket queued)
  | unregister disp =>
      rintro ⟨ticket, queued, deliverable⟩
      obtain ⟨fd, registered⟩ := Roads.deliverable_iff.mp deliverable
      have before := ((removeDispatcher_dispatchers _ _ _ _).mp registered).1
      exact awaited ⟨ticket, queued, Roads.deliverable_iff.mpr ⟨fd, before⟩⟩

theorem Station.Reachable.awaited (reachable : station.Reachable) : station.Awaited := by
  induction reachable with
  | refl =>
      rintro ⟨ticket, queued, -⟩
      cases queued
  | tail _ step ih => exact step.awaited ih

/-- Whatever the interleaving, when no handler owes a pass no queued ticket is for
a road that has a dispatcher. -/
theorem no_ticket_waits (reachable : station.Reachable)
    (settled : ∀ handler, ¬ station.owes handler) :
    ∀ ticket ∈ station.tickets.queue, station.roads.dispatchers ticket.road = ∅ := by
  intro ticket queued
  by_contra registered
  have deliverable := Roads.deliverable_iff.mpr (Finset.nonempty_iff_ne_empty.mpr registered)
  obtain ⟨handler, owes⟩ := reachable.awaited ⟨ticket, queued, deliverable⟩
  exact settled handler owes

/-- A ticket is appended, a dispatcher registers for its road, and one pass is made
for both. -/
theorem no_ticket_waits_registered :
    ∃ station : Station Unit, station.Reachable ∧
      ∀ ticket ∈ station.tickets.queue, station.roads.dispatchers ticket.road = ∅ := by
  let start : Station Unit := Station.empty
  let ticket : Ticket := ⟨[65], 1, 0, 0, 80, 3600, 8000⟩
  let tickets := start.tickets.appendAll [ticket]
  let roads := start.roads.addDispatcher ⟨7, [1]⟩
  have appended := Station.Step.append start () [ticket] (List.cons_ne_nil _ _)
  have registered := Station.Step.register
    { start with tickets := tickets, owes := Function.update start.owes () True } () ⟨7, [1]⟩
  obtain ⟨pass, done⟩ : ∃ pass, dispatchTicketsQueue roads (fun _ => .least .all)
      ⟨tickets, BoundedArray.clear, start.net⟩ = .done pass :=
    dispatchTicketsQueue_done (fun _ => rfl) (by decide)
  have passed := Station.Step.pass
    { start with
      tickets := tickets
      roads := roads
      owes := Function.update (Function.update start.owes () True) () True } () _ pass done
  have reachable := ((Relation.ReflTransGen.single appended).tail registered).tail passed
  exact ⟨_, reachable, no_ticket_waits reachable (by simp)⟩

end NetworkExercises.SpeedDaemon
