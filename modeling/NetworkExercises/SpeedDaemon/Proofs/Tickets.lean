/-
Module: NetworkExercises.SpeedDaemon.Proofs.Tickets
Purpose: The days of a car's tickets over whole runs of `addObservation`: no two
  tickets share a day, and which recorded days stand for a ticket.
Main exports: carStep, tickets_share_no_day, recorded_days_backed_iff,
  ticket_counts_for_its_end_days
-/
import NetworkExercises.Lib.Run
import NetworkExercises.SpeedDaemon.Proofs.Scan

namespace NetworkExercises.SpeedDaemon

open Lib Checked

variable (F : Type) [F64 F]

/-- One call of `addObservation` on a car.  A refused call changes nothing; a
trap ends the run. -/
def carStep (state : Car × TicketsQueue) (call : Message × Camera) :
    Option (Car × TicketsQueue) :=
  match state.1.addObservation F state.2 call.1 call.2 with
  | .ok (car, queue, _) => some (car, queue)
  | .error (.error _) => some state
  | .error .trap => none

/-- The end days of a ticket. -/
def Ticket.days (ticket : Ticket) : Finset Nat :=
  {day ticket.timestamp1, day ticket.timestamp2}

/-- The call meets no violation whose first day is still free and whose second
day is already recorded. -/
def NeverStrandsDay (state : Car × TicketsQueue) (call : Message × Camera) : Prop :=
  NeverStrands state.1.tickets (state.1.violations F call.1 call.2)

/-! ### The car and the book of its days -/

/-- The car's recorded days are the marks of the book, and the tickets appended
since `queue` are the pairs it issued. -/
def Keeps (queue : TicketsQueue) (state : Car × TicketsQueue) (book : Book DateKey) :
    Prop :=
  book.marks = state.1.tickets ∧
    ∃ issued, state.2 = queue.appendAll issued ∧ book.issued = issued.map Ticket.keys

theorem TicketsQueue.appendAll_injective (queue : TicketsQueue) {left right : List Ticket}
    (same : queue.appendAll left = queue.appendAll right) : left = right := by
  simp only [appendAll_eq, TicketsQueue.mk.injEq] at same
  exact List.append_cancel_left same.1

variable {F} {queue : TicketsQueue} {state next : Car × TicketsQueue}
  {call : Message × Camera}

theorem keeps_init (plate : Bytes) (queue : TicketsQueue) :
    Keeps queue (Car.init plate, queue) Book.empty :=
  ⟨rfl, [], by simp, rfl⟩

/-- A call enters the days of the violations that it meets. -/
theorem carStep_keeps {book : Book DateKey} (keeps : Keeps queue state book)
    (step : carStep F state call = some next) :
    Keeps queue next (book.enterAll (state.1.violations F call.1 call.2)) := by
  obtain ⟨marks, issued, queueEq, issuedEq⟩ := keeps
  obtain ⟨message, cam⟩ := call
  unfold carStep at step
  split at step
  · next car after count called =>
    cases step
    obtain ⟨seen, new, messageEq, -, records⟩ := addObservation_ok called
    simp only at messageEq
    subst messageEq
    refine ⟨records.marks book marks, issued ++ new, ?_, ?_⟩
    · rw [records.queue, queueEq, ← TicketsQueue.appendAll_append]
    · rw [records.tickets book marks, issuedEq, List.map_append]
  · next error refused =>
    cases step
    rw [addObservation_error refused]
    exact ⟨marks, issued, queueEq, issuedEq⟩
  · cases step

/-- Every run keeps a book. -/
theorem run_keeps {plate : Bytes} {calls : List (Message × Camera)}
    (ran : run (carStep F) (Car.init plate, queue) calls = some state) :
    ∃ book, Keeps queue state book := by
  refine run_preserves (fun state => ∃ book, Keeps queue state book) ?_
    ⟨Book.empty, keeps_init plate queue⟩ ran
  rintro state call next ⟨book, keeps⟩ step
  exact ⟨_, carStep_keeps keeps step⟩

/-! ### No two tickets share a day -/

theorem mem_days_iff {ticket : Ticket} {number : Nat} :
    number ∈ ticket.days ↔ number = day ticket.timestamp1 ∨ number = day ticket.timestamp2 := by
  simp [Ticket.days]

/-- Tickets whose keys are apart have no day in common. -/
theorem disjoint_days_of_apart {one other : Ticket} (apart : Apart one.keys other.keys) :
    Disjoint one.days other.days := by
  obtain ⟨first, second, third, fourth⟩ := apart
  simp only [Ticket.keys, ne_eq, dateKey_eq_iff] at first second third fourth
  rw [Finset.disjoint_left]
  intro number mine
  rw [mem_days_iff] at mine ⊢
  rcases mine with rfl | rfl <;> tauto

/-- The tickets issued in a run have pairwise disjoint end days. -/
theorem Keeps.pairwise_disjoint {book : Book DateKey} {issued : List Ticket}
    (keeps : Keeps queue state book) (queueEq : state.2 = queue.appendAll issued) :
    issued.Pairwise fun one other => Disjoint one.days other.days := by
  obtain ⟨-, issued', queueEq', issuedEq⟩ := keeps
  cases queue.appendAll_injective (queueEq.symm.trans queueEq')
  have apart := book.exclusive
  rw [issuedEq, List.pairwise_map] at apart
  exact apart.imp disjoint_days_of_apart

/-- In every run of `addObservation` on one car, the tickets issued for the car
have no end day in common. -/
theorem tickets_share_no_day {plate : Bytes} {calls : List (Message × Camera)}
    (ran : run (carStep F) (Car.init plate, queue) calls = some state) :
    ∃ issued, state.2 = queue.appendAll issued ∧
      issued.Pairwise fun one other => Disjoint one.days other.days := by
  obtain ⟨book, keeps⟩ := run_keeps ran
  obtain ⟨-, issued, queueEq, -⟩ := id keeps
  exact ⟨issued, queueEq, keeps.pairwise_disjoint queueEq⟩

/-- Violations on two days. -/
def twoDays : List (Message × Camera) :=
  [(.plate ⟨[65], 0⟩, ⟨3, 1, 0, 60⟩), (.plate ⟨[65], 3600⟩, ⟨4, 1, 80, 60⟩),
    (.plate ⟨[65], 90000⟩, ⟨4, 1, 80, 60⟩), (.plate ⟨[65], 93600⟩, ⟨5, 1, 160, 60⟩)]

theorem tickets_share_no_day_two_days :
    ∃ state, run (carStep ℚ) (Car.init [65], .empty) twoDays = some state ∧
      ∃ issued, state.2 = TicketsQueue.empty.appendAll issued ∧
        issued.Pairwise fun one other => Disjoint one.days other.days := by
  have runs : (run (carStep ℚ) (Car.init [65], .empty) twoDays).isSome := by
    decide +kernel
  obtain ⟨state, ran⟩ := Option.isSome_iff_exists.mp runs
  exact ⟨state, ran, tickets_share_no_day ran⟩

/-! ### Which recorded days stand for a ticket -/

/-- Every recorded day of the car is an end day of a ticket appended since
`queue`. -/
def DaysBacked (queue : TicketsQueue) (state : Car × TicketsQueue) : Prop :=
  ∃ issued, state.2 = queue.appendAll issued ∧
    ∀ key ∈ state.1.tickets, ∃ ticket ∈ issued,
      key = dateKey ticket.timestamp1 ∨ key = dateKey ticket.timestamp2

theorem Keeps.backed_iff {book : Book DateKey} (keeps : Keeps queue state book) :
    book.Backed ↔ DaysBacked queue state := by
  obtain ⟨marks, issued, queueEq, issuedEq⟩ := keeps
  have backed : book.Backed ↔ ∀ key ∈ state.1.tickets, ∃ ticket ∈ issued,
      key = dateKey ticket.timestamp1 ∨ key = dateKey ticket.timestamp2 := by
    rw [Book.Backed, marks, issuedEq]
    simp [Ticket.keys]
  rw [backed]
  constructor
  · exact fun days => ⟨issued, queueEq, days⟩
  · rintro ⟨issued', queueEq', days⟩
    cases queue.appendAll_injective (queueEq.symm.trans queueEq')
    exact days

/-- A call leaves the days backed exactly when they were backed before and it
strands none. -/
theorem carStep_backed_iff {book : Book DateKey} (keeps : Keeps queue state book)
    (step : carStep F state call = some next) :
    DaysBacked queue next ↔ DaysBacked queue state ∧ NeverStrandsDay F state call := by
  rw [← (carStep_keeps keeps step).backed_iff, ← keeps.backed_iff, NeverStrandsDay,
    ← keeps.1, Book.backed_enterAll_iff]

/-- In every run, all recorded days belong to issued tickets exactly when no call
meets a violation whose first day is free and whose second day is recorded. -/
theorem recorded_days_backed_iff {plate : Bytes} {calls : List (Message × Camera)}
    (ran : run (carStep F) (Car.init plate, queue) calls = some state) :
    DaysBacked queue state ↔
      EachStep (NeverStrandsDay F) (carStep F) (Car.init plate, queue) calls := by
  have start := keeps_init plate queue
  have iff := run_iff (NeverStrandsDay F) (fun state => ∃ book, Keeps queue state book)
    (DaysBacked queue) ?_ ⟨_, start⟩ ran
  · rw [iff, and_iff_right (start.backed_iff.mp Book.backed_empty)]
  · rintro state call next ⟨book, keeps⟩ step
    exact ⟨⟨_, carStep_keeps keeps step⟩, carStep_backed_iff keeps step⟩

theorem recorded_days_backed_iff_two_days :
    ∃ state, run (carStep ℚ) (Car.init [65], .empty) twoDays = some state ∧
      (DaysBacked .empty state ↔
        EachStep (NeverStrandsDay ℚ) (carStep ℚ) (Car.init [65], .empty) twoDays) := by
  have runs : (run (carStep ℚ) (Car.init [65], .empty) twoDays).isSome := by
    decide +kernel
  obtain ⟨state, ran⟩ := Option.isSome_iff_exists.mp runs
  exact ⟨state, ran, recorded_days_backed_iff ran⟩

/-- A ticket for day 1, and then a violation over the midnight before it. -/
def strandedDay : List (Message × Camera) :=
  [(.plate ⟨[65], 90000⟩, ⟨3, 1, 0, 60⟩), (.plate ⟨[65], 93600⟩, ⟨4, 1, 80, 60⟩),
    (.plate ⟨[65], 82800⟩, ⟨5, 1, 200, 60⟩)]

/-- Day 0 is recorded for no ticket. -/
theorem not_every_recorded_day_backed :
    ¬ ∀ (plate : Bytes) (queue : TicketsQueue) (calls : List (Message × Camera))
        (state : Car × TicketsQueue),
      run (carStep ℚ) (Car.init plate, queue) calls = some state →
        DaysBacked queue state := by
  intro claimed
  have result : (run (carStep ℚ) (Car.init [65], .empty) strandedDay).map
        (fun state => (state.1.tickets, state.2)) =
      some ({dateKey 90000, dateKey 82800},
        TicketsQueue.empty.appendAll [⟨[65], 1, 0, 90000, 80, 93600, 8000⟩]) := by
    decide +kernel
  obtain ⟨state, ran, stateEq⟩ := Option.map_eq_some_iff.mp result
  obtain ⟨ticketsEq, queueEq⟩ := Prod.mk.inj stateEq
  obtain ⟨issued, issuedEq, backed⟩ := claimed _ _ _ state ran
  cases TicketsQueue.empty.appendAll_injective (queueEq.symm.trans issuedEq)
  obtain ⟨ticket, member, isEnd⟩ := backed (dateKey 82800) (by rw [ticketsEq]; simp)
  rw [List.mem_singleton.mp member, dateKey_eq_iff, dateKey_eq_iff] at isEnd
  revert isEnd
  decide

/-! ### A ticket counts for its end days only -/

/-- A ticket blocks its two end days, and records no other: a violation is
ticketed exactly when neither of its own end days is recorded. -/
theorem ticket_counts_for_its_end_days {plate : Bytes}
    {calls : List (Message × Camera)}
    (ran : run (carStep F) (Car.init plate, queue) calls = some state) :
    ∃ issued, state.2 = queue.appendAll issued ∧
      (issued.Pairwise fun one other => Disjoint one.days other.days) ∧
      (∀ ticket ∈ issued,
        ticket.keys.1 ∈ state.1.tickets ∧ ticket.keys.2 ∈ state.1.tickets) ∧
      ∀ road obs1 obs2 scan, Violates F obs1 obs2 = true →
        scanPair F plate road obs1 obs2 ⟨state.1.tickets, state.2, 0⟩ = .ok scan →
          (scan.count = 1 ↔ Free state.1.tickets (pairKeys obs1 obs2)) ∧
          (scan.count = 1 → scan.tickets =
            insert (dateKey obs2.timestamp)
              (insert (dateKey obs1.timestamp) state.1.tickets)) := by
  obtain ⟨book, keeps⟩ := run_keeps ran
  obtain ⟨marks, issued, queueEq, issuedEq⟩ := id keeps
  refine ⟨issued, queueEq, keeps.pairwise_disjoint queueEq, ?_, ?_⟩
  · intro ticket member
    rw [← marks]
    exact book.covered _ (issuedEq ▸ List.mem_map_of_mem member)
  · intro road obs1 obs2 scan fast done
    obtain ⟨-, scans⟩ := scanPair_cases done
    cases scans with
    | lawful slow => simp [fast] at slow
    | taken fast notFree => simp [notFree]
    | issued fast free speed speedEq =>
        exact ⟨⟨fun _ => free, fun _ => rfl⟩, fun _ => marked_of_free free⟩

theorem ticket_counts_for_its_end_days_two_days :
    ∃ state, run (carStep ℚ) (Car.init [65], .empty) twoDays = some state ∧
      ∃ issued, state.2 = TicketsQueue.empty.appendAll issued ∧
        (issued.Pairwise fun one other => Disjoint one.days other.days) ∧
        (∀ ticket ∈ issued,
          ticket.keys.1 ∈ state.1.tickets ∧ ticket.keys.2 ∈ state.1.tickets) ∧
        ∀ road obs1 obs2 scan, Violates ℚ obs1 obs2 = true →
          scanPair ℚ [65] road obs1 obs2 ⟨state.1.tickets, state.2, 0⟩ = .ok scan →
            (scan.count = 1 ↔ Free state.1.tickets (pairKeys obs1 obs2)) ∧
            (scan.count = 1 → scan.tickets =
              insert (dateKey obs2.timestamp)
                (insert (dateKey obs1.timestamp) state.1.tickets)) := by
  have runs : (run (carStep ℚ) (Car.init [65], .empty) twoDays).isSome := by
    decide +kernel
  obtain ⟨state, ran⟩ := Option.isSome_iff_exists.mp runs
  exact ⟨state, ran, ticket_counts_for_its_end_days ran⟩

/-- A violation from day 0 to day 2 on one road, and one on day 1 on another. -/
def spannedDay : List (Message × Camera) :=
  [(.plate ⟨[65], 0⟩, ⟨3, 1, 0, 60⟩), (.plate ⟨[65], 172800⟩, ⟨4, 1, 3000, 60⟩),
    (.plate ⟨[65], 86400⟩, ⟨5, 2, 0, 60⟩), (.plate ⟨[65], 90000⟩, ⟨6, 2, 80, 60⟩)]

/-- Both violations are ticketed. -/
theorem not_every_spanned_day_blocked :
    ¬ ∀ (plate : Bytes) (queue : TicketsQueue) (calls : List (Message × Camera))
        (state : Car × TicketsQueue) (issued : List Ticket),
      run (carStep ℚ) (Car.init plate, queue) calls = some state →
      state.2 = queue.appendAll issued →
        ∀ ticket ∈ issued, ∀ other ∈ issued, other ≠ ticket → ∀ number ∈ other.days,
          ¬ (day ticket.timestamp1 < number ∧ number < day ticket.timestamp2) := by
  intro claimed
  have result : (run (carStep ℚ) (Car.init [65], .empty) spannedDay).map Prod.snd =
      some (TicketsQueue.empty.appendAll [⟨[65], 1, 0, 0, 3000, 172800, 6250⟩,
        ⟨[65], 2, 0, 86400, 80, 90000, 8000⟩]) := by
    decide +kernel
  obtain ⟨state, ran, queueEq⟩ := Option.map_eq_some_iff.mp result
  exact claimed _ _ _ state _ ran queueEq ⟨[65], 1, 0, 0, 3000, 172800, 6250⟩ (by simp)
    ⟨[65], 2, 0, 86400, 80, 90000, 8000⟩ (by simp) (by decide) 1 (by decide) (by decide)

end NetworkExercises.SpeedDaemon
