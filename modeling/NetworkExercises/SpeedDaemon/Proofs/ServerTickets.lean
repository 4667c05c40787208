/-
Module: NetworkExercises.SpeedDaemon.Proofs.ServerTickets
Purpose: The tickets of whole runs of the server: none is lost, each is justified, no two of a
  plate share a day, and no violation goes unnoticed.
Main exports: server_tickets_justified, server_tickets_share_no_day, server_misses_no_violation
-/
import NetworkExercises.SpeedDaemon.Proofs.PlateRuns

namespace NetworkExercises.SpeedDaemon

open Lib Checked

section Arithmetic

variable {F : Type} [F64 F] {serverfd : SocketFd} {server : ServerState} {events : List Event}
  {plate : Bytes} {state next : Car × TicketsQueue} {call : Message × Camera}
  {calls : List (Message × Camera)}

/-! ### Tickets that wait and tickets that were sent -/

/-- The tickets that were sent, and those that still wait. -/
def TicketsQueue.all (self : TicketsQueue) : List Ticket := self.sent.map Prod.snd ++ self.queue

theorem TicketsQueue.Conserved.perm {self : TicketsQueue} (conserved : self.Conserved) :
    self.appended.Perm self.all :=
  Multiset.coe_eq_coe.mp conserved

theorem server_conserved (ran : run (eventStep F serverfd) .init events = some server) :
    server.world.tickets.Conserved := by
  obtain ⟨world, operated, same⟩ := serverOperations_run ran
  rw [same.tickets]
  exact run_preserves (fun world => world.tickets.Conserved)
    (fun _ _ _ conserved step => worldStep_conserves conserved step) rfl operated

/-- A ticket is for two observations that the messages of the run recorded for its plate on its
road. -/
theorem server_recorded {ticket : Ticket}
    (ran : run (eventStep ℚ serverfd) .init events = some server)
    (issued : ticket ∈ server.world.tickets.all) :
    ∃ obs1 ∈ recorded (serverOperations ℚ serverfd events) ticket.plate ticket.road,
      ∃ obs2 ∈ recorded (serverOperations ℚ serverfd events) ticket.plate ticket.road,
        JustifiedBy ticket obs1 obs2 := by
  obtain ⟨world, operated, same⟩ := serverOperations_run ran
  have accounted : Accounted ℚ ([] ++ serverOperations ℚ serverfd events) world :=
    run_relates (Accounted ℚ) (fun _ _ _ _ accounted step => worldStep_accounted accounted step)
      accounted_empty operated
  have appended : ticket ∈ world.tickets.appended :=
    same.tickets ▸ (server_conserved ran).perm.mem_iff.mpr issued
  exact (accounted.appended ticket appended).justifiedBy

/-- In every run of the server each ticket ever issued was sent or still waits, once, and it is
for two observations that the messages of the run recorded for its plate on its road. -/
theorem server_tickets_justified {events : List Event} {server : ServerState}
    (ran : run (eventStep ℚ serverfd) .init events = some server) :
    server.world.tickets.appended.Perm server.world.tickets.all ∧
      ∀ ticket ∈ server.world.tickets.all,
        ∃ obs1 ∈ recorded (serverOperations ℚ serverfd events) ticket.plate ticket.road,
          ∃ obs2 ∈ recorded (serverOperations ℚ serverfd events) ticket.plate ticket.road,
            JustifiedBy ticket obs1 obs2 :=
  ⟨(server_conserved ran).perm, fun _ issued => server_recorded ran issued⟩

theorem server_tickets_justified_speeding :
    ∃ server, run (eventStep ℚ 3) .init speedingEvents = some server ∧
      ∃ obs1 ∈ recorded (serverOperations ℚ 3 speedingEvents) [65] 1,
        ∃ obs2 ∈ recorded (serverOperations ℚ 3 speedingEvents) [65] 1,
          JustifiedBy ⟨[65], 1, 0, 0, 80, 3600, 8000⟩ obs1 obs2 := by
  have ran : (run (eventStep ℚ 3) .init speedingEvents).map
      (fun server => server.world.tickets.all) = some [⟨[65], 1, 0, 0, 80, 3600, 8000⟩] := by
    decide +kernel
  obtain ⟨server, ranEq, all⟩ := Option.map_eq_some_iff.mp ran
  exact ⟨server, ranEq, (server_tickets_justified ranEq).2 ⟨[65], 1, 0, 0, 80, 3600, 8000⟩
    (by rw [all]; exact List.mem_singleton_self _)⟩

/-! ### No two tickets of a plate share a day -/

/-- The tickets of the car are those put into the queue for its plate. -/
theorem OfPlate.issued {world : World} (own : OfPlate plate world state) {issued : List Ticket}
    (queueEq : state.2 = TicketsQueue.empty.appendAll issued) :
    issued = world.tickets.appended.filter fun ticket => ticket.plate = plate := by
  rw [← own.appended, queueEq, TicketsQueue.appendAll_eq]
  rfl

/-- The car is seen again on the next day. -/
def speedingTwice : List Event :=
  speedingEvents ++
    [bytesOn 5 [0x20, 1, 65, 0, 1, 95, 144] (by decide),
      bytesOn 6 [0x20, 1, 65, 0, 1, 109, 160] (by decide)]

/-- In every run of the server, whichever cameras, roads and connections they come from, no two
tickets of one plate have an end day in common. -/
theorem server_tickets_share_no_day
    (ran : run (eventStep F serverfd) .init events = some server) (plate : Bytes) :
    (server.world.tickets.all.filter fun ticket => ticket.plate = plate).Pairwise
      fun one other => Disjoint one.days other.days := by
  obtain ⟨state, called, own⟩ := server_ofPlate ran plate
  obtain ⟨book, keeps⟩ := run_keeps called
  obtain ⟨-, issued, queueEq, -⟩ := id keeps
  have apart := keeps.pairwise_disjoint queueEq
  rw [own.issued queueEq] at apart
  have symmetric : ∀ {one other : Ticket}, Disjoint one.days other.days →
      Disjoint other.days one.days := fun apart => apart.symm
  exact (((server_conserved ran).perm.filter _).pairwise_iff symmetric).mp apart

theorem server_tickets_share_no_day_twice :
    ∃ server, run (eventStep ℚ 3) .init speedingTwice = some server ∧
      server.world.tickets.all.length = 2 ∧
      (server.world.tickets.all.filter fun ticket => ticket.plate = [65]).Pairwise
        fun one other => Disjoint one.days other.days := by
  have ran : (run (eventStep ℚ 3) .init speedingTwice).map
      (fun server => server.world.tickets.all.length) = some 2 := by decide +kernel
  obtain ⟨server, ranEq, two⟩ := Option.map_eq_some_iff.mp ran
  exact ⟨server, ranEq, two, server_tickets_share_no_day ranEq [65]⟩

/-! ### No violation goes unnoticed -/

theorem mem_violations {front back : List Observation} {obs1 obs2 : Observation}
    (violates : Violates F obs1 obs2 = true) :
    pairKeys obs1 obs2 ∈ violations F (front ++ obs1 :: obs2 :: back) := by
  induction front with
  | nil =>
      rw [List.nil_append, violations, if_pos violates]
      exact List.mem_cons_self
  | cons obs front ih =>
      cases front with
      | nil =>
          rw [List.cons_append, List.nil_append, violations]
          rw [List.nil_append] at ih
          split
          · exact List.mem_cons_of_mem _ ih
          · exact ih
      | cons obs' front =>
          rw [List.cons_append, List.cons_append, violations]
          rw [List.cons_append] at ih
          split
          · exact List.mem_cons_of_mem _ ih
          · exact ih

variable (F) in
/-- The first day of every violation between neighbours is recorded. -/
def Car.Noticed (self : Car) : Prop :=
  ∀ road front obs1 obs2 back,
    self.observationsmap road = some (front ++ obs1 :: obs2 :: back) →
      Violates F obs1 obs2 = true → dateKey obs1.timestamp ∈ self.tickets

theorem noticed_init (plate : Bytes) : (Car.init plate).Noticed F :=
  fun _ _ _ _ _ stored => nomatch stored

/-- A call notices the violations of the road it adds to, and forgets none. -/
theorem carStep_noticed {queue : TicketsQueue} {book : Book DateKey}
    (keeps : Keeps queue state book) (noticed : state.1.Noticed F)
    (step : carStep F state call = some next) : next.1.Noticed F := by
  have marks := (carStep_keeps keeps step).1
  obtain ⟨message, cam⟩ := call
  intro road front obs1 obs2 back stored violates
  rw [← marks]
  unfold carStep at step
  split at step
  · next car after count called =>
    cases step
    obtain ⟨seen, _, messageEq, -, records⟩ := addObservation_ok called
    simp only at messageEq
    subst messageEq
    simp only [records.observations] at stored
    by_cases here : road = cam.road
    · subst here
      rw [Function.update_self, Option.some.injEq] at stored
      have met : pairKeys obs1 obs2 ∈ state.1.violations F (.plate seen) cam := by
        simp only [Car.violations]
        rw [if_pos ⟨records.own, records.nonempty⟩, stored]
        exact mem_violations violates
      exact book.first_mem_enterAll met
    · rw [Function.update_of_ne here] at stored
      apply book.subset_enterAll
      rw [keeps.1]
      exact noticed road front obs1 obs2 back stored violates
  · cases step
    apply book.subset_enterAll
    rw [keeps.1]
    exact noticed road front obs1 obs2 back stored violates
  · cases step

theorem run_noticed (ran : run (carStep F) (Car.init plate, .empty) calls = some state) :
    state.1.Noticed F := by
  have both : (∃ book, Keeps .empty state book) ∧ state.1.Noticed F := by
    refine run_preserves (fun state => (∃ book, Keeps .empty state book) ∧ state.1.Noticed F) ?_
      ⟨⟨_, keeps_init plate .empty⟩, noticed_init plate⟩ ran
    rintro state call next ⟨⟨book, keeps⟩, noticed⟩ step
    exact ⟨⟨_, carStep_keeps keeps step⟩, carStep_noticed keeps noticed step⟩
  exact both.2

instance (state : Car × TicketsQueue) (call : Message × Camera) :
    Decidable (NeverStrandsDay F state call) :=
  inferInstanceAs (Decidable (NeverStrands state.1.tickets (state.1.violations F call.1 call.2)))

/-- When no call strands a day, a recorded day is the day of a ticket. -/
theorem run_ticketed (ran : run (carStep F) (Car.init plate, .empty) calls = some state)
    (strandsNone : EachStep (NeverStrandsDay F) (carStep F) (Car.init plate, .empty) calls) :
    DaysBacked .empty state := by
  have start := keeps_init plate .empty
  have both : (∃ book, Keeps .empty state book) ∧ DaysBacked .empty state := by
    refine run_preserves_when (NeverStrandsDay F)
      (fun state => (∃ book, Keeps .empty state book) ∧ DaysBacked .empty state) ?_
      ⟨⟨_, start⟩, start.backed_iff.mp Book.backed_empty⟩ strandsNone ran
    rintro state call next ⟨⟨book, keeps⟩, backed⟩ unstranded step
    exact ⟨⟨_, carStep_keeps keeps step⟩,
      (carStep_backed_iff keeps step).mpr ⟨backed, unstranded⟩⟩
  exact both.2

/-- The car of a plate holds what the messages of the run recorded for it. -/
theorem server_keeps (ran : run (eventStep F serverfd) .init events = some server)
    (plate : Bytes) :
    (server.world.cars.carOf plate).Keeps plate
      (plateCalls plate (serverOperations F serverfd events)) := by
  obtain ⟨state, called, own⟩ := server_ofPlate ran plate
  rw [← own.car]
  exact run_relates (fun past state => state.1.Keeps plate past)
    (fun _ _ _ _ keeps step => carStep_keepsObservations keeps step) (init_keeps plate) called

/-- A violation between neighbours is noticed, and brings a ticket unless a day was stranded. -/
theorem server_notices (ran : run (eventStep F serverfd) .init events = some server)
    {road : UInt16} {front back : List Observation} {obs1 obs2 : Observation}
    (stored : (server.world.cars.carOf plate).observationsmap road =
      some (front ++ obs1 :: obs2 :: back)) (violates : Violates F obs1 obs2 = true) :
    dateKey obs1.timestamp ∈ (server.world.cars.carOf plate).tickets ∧
      (EachStep (NeverStrandsDay F) (carStep F) (Car.init plate, .empty)
          (plateCalls plate (serverOperations F serverfd events)) →
        ∃ ticket ∈ server.world.tickets.all, ticket.plate = plate ∧
          day obs1.timestamp ∈ ticket.days) := by
  obtain ⟨state, called, own⟩ := server_ofPlate ran plate
  rw [← own.car] at stored ⊢
  have noticed := run_noticed called road front obs1 obs2 back stored violates
  refine ⟨noticed, fun strandsNone => ?_⟩
  obtain ⟨issued, queueEq, backed⟩ := run_ticketed called strandsNone
  obtain ⟨ticket, member, onDay⟩ := backed _ noticed
  rw [own.issued queueEq, List.mem_filter, decide_eq_true_eq] at member
  rw [dateKey_eq_iff, dateKey_eq_iff, ← mem_days_iff] at onDay
  exact ⟨ticket, (server_conserved ran).perm.mem_iff.mp member.1, member.2, onDay⟩

/-- In every run of the server the observations of each plate and road are those that the
messages recorded, in the order of their timestamps; the first day of every violation between
neighbours is recorded for the plate, and unless some call has stranded a day there is a ticket
of the plate on that day. -/
theorem server_misses_no_violation
    (ran : run (eventStep F serverfd) .init events = some server) (plate : Bytes) :
    (server.world.cars.carOf plate).Keeps plate
        (plateCalls plate (serverOperations F serverfd events)) ∧
      ∀ road front obs1 obs2 back,
        (server.world.cars.carOf plate).observationsmap road =
            some (front ++ obs1 :: obs2 :: back) →
          Violates F obs1 obs2 = true →
            dateKey obs1.timestamp ∈ (server.world.cars.carOf plate).tickets ∧
              (EachStep (NeverStrandsDay F) (carStep F) (Car.init plate, .empty)
                  (plateCalls plate (serverOperations F serverfd events)) →
                ∃ ticket ∈ server.world.tickets.all, ticket.plate = plate ∧
                  day obs1.timestamp ∈ ticket.days) :=
  ⟨server_keeps ran plate, fun _ _ _ _ _ stored violates => server_notices ran stored violates⟩

end Arithmetic

theorem server_misses_no_violation_speeding :
    ∃ server, run (eventStep ℚ 3) .init speedingEvents = some server ∧
      ∃ ticket ∈ server.world.tickets.all, ticket.plate = [65] ∧ 0 ∈ ticket.days := by
  have ran : (run (eventStep ℚ 3) .init speedingEvents).map
      (fun server => (server.world.cars.carOf [65]).observationsmap 1) =
        some (some ([] ++ observationOf ⟨[65], 0⟩ ⟨5, 1, 0, 60⟩ ::
          observationOf ⟨[65], 3600⟩ ⟨6, 1, 80, 60⟩ :: [])) := by decide +kernel
  obtain ⟨server, ranEq, stored⟩ := Option.map_eq_some_iff.mp ran
  have violates : Violates ℚ (observationOf ⟨[65], 0⟩ ⟨5, 1, 0, 60⟩)
      (observationOf ⟨[65], 3600⟩ ⟨6, 1, 80, 60⟩) = true := by decide +kernel
  have strandsNone : EachStep (NeverStrandsDay ℚ) (carStep ℚ) (Car.init [65], .empty)
      (plateCalls [65] (serverOperations ℚ 3 speedingEvents)) := by decide +kernel
  obtain ⟨-, ticketed⟩ := (server_misses_no_violation ranEq [65]).2 1 _ _ _ _ stored violates
  exact ⟨server, ranEq, ticketed strandsNone⟩

end NetworkExercises.SpeedDaemon
