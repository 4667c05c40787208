/-
Module: NetworkExercises.SpeedDaemon.Proofs.Dispatching
Purpose: A pass over the ticket queue sends the tickets whose road has a dispatcher, in their
  order, and leaves the others in theirs.
Main exports: HandedOver, dispatchLoop_exact, dispatchTicketsQueue_exact
-/
import NetworkExercises.SpeedDaemon.Proofs.Delivery

namespace NetworkExercises.SpeedDaemon

open Lib Checked

/-! ### The first match of a list -/

section FirstMatch

variable {α : Type} {p : α → Bool} {items : List α} {item : α}

/-- The matches of a list are its first match and those of the rest. -/
theorem filter_eq_cons_eraseP (found : items.find? p = some item) :
    items.filter p = item :: (items.eraseP p).filter p := by
  obtain ⟨isMatch, front, back, rfl, before⟩ := List.find?_eq_some_iff_append.mp found
  have noneBefore : ∀ other ∈ front, ¬ p other = true := by simpa using before
  rw [List.eraseP_append_right _ noneBefore, List.eraseP_cons_of_pos isMatch,
    List.filter_append, List.filter_append, List.filter_eq_nil_iff.mpr noneBefore,
    List.filter_cons_of_pos isMatch, List.nil_append, List.nil_append]

/-- Taking a match out leaves the others as they are. -/
theorem filter_not_eraseP (items : List α) :
    (items.eraseP p).filter (fun other => !p other) = items.filter fun other => !p other := by
  induction items with
  | nil => rfl
  | cons first items ih =>
      cases isMatch : p first with
      | true => rw [List.eraseP_cons_of_pos isMatch, List.filter_cons_of_neg (by simp [isMatch])]
      | false =>
          rw [List.eraseP_cons_of_neg (by simp [isMatch]),
            List.filter_cons_of_pos (by simp [isMatch]),
            List.filter_cons_of_pos (by simp [isMatch]), ih]

end FirstMatch

/-! ### A pass -/

/-- What a pass has handed over.  The tickets that stay are those whose road is unknown or has
no dispatcher; every other ticket has been sent once, to a dispatcher of its road; both are in
the order of the queue. -/
structure HandedOver (roads : Roads) (pass final : Pass) (handed : List (SocketFd × Ticket)) :
    Prop where
  stay : final.tickets.queue = pass.tickets.queue.filter fun ticket => !roads.deliverable ticket
  leave : handed.map Prod.snd = pass.tickets.queue.filter roads.deliverable
  member : ∀ sent ∈ handed, sent.1 ∈ roads.dispatchers sent.2.road
  noted : final.tickets.sent = pass.tickets.sent ++ handed
  written : ∀ fd, final.net fd = pass.net fd ++
    (handed.filter fun sent => sent.1 = fd).flatMap fun sent => (Message.ticket sent.2).wire

variable {roads : Roads} {sends : Nat → Sending} {pass middle final : Pass} {ticket : Ticket}
  {fd : SocketFd} {written : WriteResult}

/-- A ticket is only sent when its plate fits the frame. -/
theorem sendTicket_short
    (done : sendTicket fd (.ticket ticket) written pass = .done final) :
    ticket.plate.length ≤ 255 := by
  by_contra long
  have tooLong : ticket.plate.length > 255 := Nat.lt_of_not_le long
  have fails : ∃ error, hostToNetwork (.ticket ticket) pass.buf = .error error := by
    unfold hostToNetwork
    cases tryAppend pass.buf [(Message.ticket ticket).type.toByte] with
    | error error => exact ⟨error, rfl⟩
    | ok buf => exact ⟨.notEnoughBytes, if_pos tooLong⟩
  obtain ⟨error, failed⟩ := fails
  simp [sendTicket, Message.type, failed] at done

/-- A send that succeeds writes the frame of the ticket, and nothing else. -/
theorem sendTicket_net
    (done : sendTicket fd (.ticket ticket) written { pass with buf := BoundedArray.clear } =
      .done final) :
    final.tickets = pass.tickets ∧
      final.net = Function.update pass.net fd (pass.net fd ++ (Message.ticket ticket).wire) := by
  obtain rfl := sendTicket_written done
  obtain ⟨buf, sent⟩ := sendTicket_all (sendTicket_short done) fd pass
  rw [sent] at done
  cases done
  exact ⟨rfl, rfl⟩

theorem delivered_nothing (none_ : pass.tickets.queue.countP roads.deliverable = 0) :
    HandedOver roads pass pass [] := by
  have stuck := List.countP_eq_zero.mp none_
  refine ⟨?_, ?_, fun sent member => absurd member List.not_mem_nil,
    (List.append_nil _).symm, fun fd => (List.append_nil _).symm⟩
  · rw [List.filter_eq_self.mpr]
    intro ticket queued
    simpa using stuck ticket queued
  · rw [List.filter_eq_nil_iff.mpr stuck]
    rfl

/-- One turn sends the first ticket that can be delivered; what the later turns hand over
comes behind it. -/
theorem delivered_cons {handed : List (SocketFd × Ticket)}
    (found : pass.tickets.queue.find? roads.deliverable = some ticket)
    (member : fd ∈ roads.dispatchers ticket.road)
    (kept : middle.tickets = pass.tickets)
    (net : middle.net =
      Function.update pass.net fd (pass.net fd ++ (Message.ticket ticket).wire))
    (rest : HandedOver roads
      { middle with tickets := (middle.tickets.noteSent fd ticket).removeFirst roads } final
      handed) :
    HandedOver roads pass final ((fd, ticket) :: handed) := by
  obtain ⟨stay, leave, members, noted, written⟩ := rest
  simp only [TicketsQueue.removeFirst, TicketsQueue.noteSent, kept] at stay leave noted written
  refine ⟨?_, ?_, ?_, ?_, fun other => ?_⟩
  · rw [stay, filter_not_eraseP]
  · rw [List.map_cons, leave, filter_eq_cons_eraseP found]
  · exact List.forall_mem_cons.mpr ⟨member, members⟩
  · rw [noted, List.append_assoc, List.singleton_append]
  · rw [written, net]
    by_cases same : fd = other
    · subst same
      rw [Function.update_self, List.filter_cons_of_pos (by simp), List.flatMap_cons,
        List.append_assoc]
    · rw [Function.update_of_ne (Ne.symm same), List.filter_cons_of_neg (by simpa using same)]

/-- With a turn for every ticket that can be delivered, the loop delivers them all. -/
theorem dispatchLoop_exact {left taken : Nat}
    (enough : pass.tickets.queue.countP roads.deliverable ≤ left)
    (done : dispatchLoop roads sends left taken pass = .done final) :
    ∃ handed, HandedOver roads pass final handed := by
  induction left generalizing taken pass with
  | zero =>
      cases done
      exact ⟨[], delivered_nothing (Nat.le_zero.mp enough)⟩
  | succ left ih =>
      rw [dispatchLoop] at done
      split at done
      · next nothing =>
        cases done
        exact ⟨[], delivered_nothing (List.countP_eq_zero.mpr (by simpa using nothing))⟩
      · next ticket found =>
        obtain ⟨middle, sent, rest⟩ := Outcome.andThen_eq_done.mp done
        obtain ⟨kept, net⟩ := sendTicket_net sent
        have fewer := countP_eraseP found
        have enoughLeft : (pass.tickets.queue.eraseP roads.deliverable).countP
            roads.deliverable ≤ left := by
          omega
        obtain ⟨handed, delivered⟩ := ih (by rwa [kept]) rest
        have member := (sends taken).member _
          (Roads.deliverable_iff.mp (List.find?_some found))
        exact ⟨_, delivered_cons found member kept net delivered⟩

/-- A pass whose sends all succeed leaves exactly the tickets that cannot be delivered, and
hands every other one over once. -/
theorem dispatchTicketsQueue_exact (roads : Roads) (sends : Nat → Sending) (pass final : Pass)
    (done : dispatchTicketsQueue roads sends pass = .done final) :
    ∃ handed, HandedOver roads pass final handed := by
  unfold dispatchTicketsQueue at done
  split at done
  · next empty =>
    cases done
    refine ⟨[], delivered_nothing ?_⟩
    rw [List.length_eq_zero_iff.mp empty, List.countP_nil]
  · exact dispatchLoop_exact List.countP_le_length done

section Passes

/-- Road 7 has a dispatcher, and road 8 has had one. -/
def twoRoads : Roads :=
  ((Roads.empty.addDispatcher ⟨5, [7, 8]⟩).addDispatcher ⟨6, [7]⟩).removeDispatcher ⟨5, [8]⟩

def ticketOn (road : UInt16) (speed : UInt16) : Ticket := ⟨[65], road, 0, 0, 80, 3600, speed⟩

/-- Tickets for roads with a dispatcher, without one, and unknown. -/
def mixedQueue : Pass :=
  ⟨⟨[ticketOn 9 1, ticketOn 7 2, ticketOn 8 3, ticketOn 7 4], [], []⟩, BoundedArray.clear,
    fun _ => []⟩

theorem dispatchTicketsQueue_exact_mixed :
    ∃ final handed, dispatchTicketsQueue twoRoads (fun _ => Sending.least .all) mixedQueue =
        .done final ∧
      HandedOver twoRoads mixedQueue final handed ∧
      final.tickets.queue = [ticketOn 9 1, ticketOn 8 3] := by
  obtain ⟨final, done⟩ := @dispatchTicketsQueue_done twoRoads (fun _ => Sending.least .all)
    mixedQueue (fun _ => rfl) (by decide)
  obtain ⟨handed, delivered⟩ := dispatchTicketsQueue_exact twoRoads _ mixedQueue final done
  exact ⟨final, handed, done, delivered, delivered.stay.trans (by decide +kernel)⟩

end Passes

end NetworkExercises.SpeedDaemon
