/-
Module: NetworkExercises.SpeedDaemon.Proofs.Justified
Purpose: Every ticket of a run is for two observations that the run recorded and
  that are too fast for the limit, with the arithmetic read as exact.
Main exports: recorded, JustifiedBy, every_ticket_justified
-/
import NetworkExercises.SpeedDaemon.Proofs.Delivery

namespace NetworkExercises.SpeedDaemon

open Lib Checked

/-! ### The exact arithmetic of one pair -/

/-- The distance between two miles. -/
def milesApart (mile1 mile2 : UInt16) : Nat :=
  ((mile2.toNat : Int) - mile1.toNat).natAbs

theorem distance_rat (mile1 mile2 : UInt16) :
    distance ℚ mile1 mile2 = (milesApart mile1 mile2 : ℚ) := by
  have miles : (if mile2 > mile1 then mile2.toNat - mile1.toNat
      else mile1.toNat - mile2.toNat) = milesApart mile1 mile2 := by
    unfold milesApart
    split
    · next farther =>
      have : mile1.toNat < mile2.toNat := farther
      omega
    · next nearer =>
      have : mile2.toNat ≤ mile1.toNat := Nat.not_lt.mp nearer
      omega
  rw [distance, miles]
  rfl

/-- Seconds between two observations in order. -/
def secondsApart (obs1 obs2 : Observation) : Nat :=
  obs2.timestamp.toNat - obs1.timestamp.toNat

theorem speedBetween_rat (obs1 obs2 : Observation) :
    speedBetween ℚ obs1 obs2 =
      3600 * (milesApart obs1.mile obs2.mile : ℚ) / secondsApart obs1 obs2 := by
  rw [speedBetween, distance_rat]
  change (milesApart obs1.mile obs2.mile : ℚ) / ((secondsApart obs1 obs2 : ℚ) / 3600) = _
  rw [div_div_eq_mul_div, mul_comm]

theorem speedBetween_hundredths (obs1 obs2 : Observation) :
    speedBetween ℚ obs1 obs2 * 100 + 0.5 =
      360000 * (milesApart obs1.mile obs2.mile : ℚ) / secondsApart obs1 obs2 + 1 / 2 := by
  rw [speedBetween_rat]
  ring

/-- A pair violates the limit exactly when it is more than three seconds apart and
more than half a mile per hour too fast. -/
theorem violates_rat_iff (obs1 obs2 : Observation) :
    Violates ℚ obs1 obs2 = true ↔
      3 < secondsApart obs1 obs2 ∧
        (2 * obs1.speedLimit.toNat + 1) * secondsApart obs1 obs2 <
          7200 * milesApart obs1.mile obs2.mile := by
  have close : F64.le (timeDiffHours ℚ (secondsApart obs1 obs2)) (F64.literal 0.001) =
      decide ((secondsApart obs1 obs2 : ℚ) / 3600 ≤ 0.001) := rfl
  have slow : F64.le (speedBetween ℚ obs1 obs2)
      (F64.add (F64.floatFromInt obs1.speedLimit.toNat) (F64.literal 0.5)) =
        decide (speedBetween ℚ obs1 obs2 ≤ (obs1.speedLimit.toNat : ℚ) + 0.5) := rfl
  have apart : 3 < secondsApart obs1 obs2 ↔
      ¬ (secondsApart obs1 obs2 : ℚ) / 3600 ≤ 0.001 := by
    rw [not_le, lt_div_iff₀ (by norm_num)]
    constructor
    · intro many
      have : (4 : ℚ) ≤ secondsApart obs1 obs2 := by exact_mod_cast many
      linarith
    · intro many
      by_contra few
      have : (secondsApart obs1 obs2 : ℚ) ≤ 3 := by exact_mod_cast not_lt.mp few
      linarith
  rw [Violates, ← secondsApart, close, slow, Bool.and_eq_true, Bool.not_eq_true',
    Bool.not_eq_true', decide_eq_false_iff_not, decide_eq_false_iff_not, ← apart]
  apply and_congr_right
  intro many
  have positive : (0 : ℚ) < secondsApart obs1 obs2 := by
    exact_mod_cast (by omega : 0 < secondsApart obs1 obs2)
  rw [not_le, speedBetween_rat, lt_div_iff₀ positive]
  constructor
  · intro fast
    have : ((2 * obs1.speedLimit.toNat + 1) * secondsApart obs1 obs2 : ℚ) <
        7200 * milesApart obs1.mile obs2.mile := by linarith
    exact_mod_cast this
  · intro fast
    have : ((2 * obs1.speedLimit.toNat + 1) * secondsApart obs1 obs2 : ℚ) <
        7200 * milesApart obs1.mile obs2.mile := by exact_mod_cast fast
    linarith

/-- The speed on a ticket is rounded to the nearest hundredth. -/
theorem ticketSpeed_rat {obs1 obs2 : Observation} {speed : UInt16}
    (speedEq : ticketSpeed ℚ obs1 obs2 = some speed) :
    (speed.toNat : Int) =
      ⌊360000 * (milesApart obs1.mile obs2.mile : ℚ) / secondsApart obs1 obs2 + 1 / 2⌋ := by
  have nonneg : 0 ≤ 360000 * (milesApart obs1.mile obs2.mile : ℚ) /
      secondsApart obs1 obs2 + 1 / 2 := by positivity
  have cast : ticketSpeed ℚ obs1 obs2 =
      F64.intFromFloat (speedBetween ℚ obs1 obs2 * 100 + 0.5) := rfl
  rw [cast, speedBetween_hundredths] at speedEq
  simp only [F64.intFromFloat, truncate, if_pos nonneg] at speedEq
  split at speedEq
  · next inRange =>
    cases speedEq
    rw [UInt16.toNat_ofNat']
    omega
  · cases speedEq

/-! ### Tickets and recorded observations -/

/-- The two observations that a ticket is for. -/
structure JustifiedBy (ticket : Ticket) (obs1 obs2 : Observation) : Prop where
  later : obs1.timestamp.toNat + 3 < obs2.timestamp.toNat
  mile1 : ticket.mile1 = obs1.mile
  timestamp1 : ticket.timestamp1 = obs1.timestamp
  mile2 : ticket.mile2 = obs2.mile
  timestamp2 : ticket.timestamp2 = obs2.timestamp
  fast : 7200 * milesApart obs1.mile obs2.mile >
    (2 * obs1.speedLimit.toNat + 1) * (obs2.timestamp.toNat - obs1.timestamp.toNat)
  speed : (ticket.speed.toNat : Int) =
    ⌊360000 * (milesApart obs1.mile obs2.mile : ℚ) /
      (obs2.timestamp.toNat - obs1.timestamp.toNat : Nat) + 1 / 2⌋

/-- The observations of a plate on a road that a list of operations records, in
their order. -/
def recorded (operations : List Operation) (plate : Bytes) (road : UInt16) :
    List Observation :=
  operations.filterMap fun
    | .addObservation seen cam =>
        if seen.plate = plate ∧ cam.road = road ∧ plate.length ≠ 0 then
          some (observationOf seen cam)
        else none
    | _ => none

theorem recorded_append (front back : List Operation) (plate : Bytes) (road : UInt16) :
    recorded (front ++ back) plate road =
      recorded front plate road ++ recorded back plate road :=
  List.filterMap_append

theorem Justified.justifiedBy {plate : Bytes} {road : UInt16}
    {observations : List Observation} {ticket : Ticket}
    (justified : Justified ℚ plate road observations ticket) :
    ∃ obs1 ∈ observations, ∃ obs2 ∈ observations, JustifiedBy ticket obs1 obs2 := by
  obtain ⟨obs1, first, obs2, second, speed, ordered, violates, speedEq, rfl⟩ := justified
  obtain ⟨apart, fast⟩ := (violates_rat_iff obs1 obs2).mp violates
  refine ⟨obs1, first, obs2, second, ?_, rfl, rfl, rfl, rfl, fast, ticketSpeed_rat speedEq⟩
  unfold secondsApart at apart
  omega

/-- What the cars hold was recorded, and every ticket appended is for two recorded
observations of its own plate on its own road. -/
structure Accounted (F : Type) [F64 F] (past : List Operation) (world : World) : Prop where
  held : ∀ plate car road obs, world.cars.map plate = some car →
    obs ∈ (car.observationsmap road).getD [] → obs ∈ recorded past plate road
  appended : ∀ ticket ∈ world.tickets.appended,
    Justified F ticket.plate ticket.road (recorded past ticket.plate ticket.road) ticket

variable {F : Type} [F64 F]

theorem mem_sortObservations {observations : List Observation} {obs : Observation} :
    obs ∈ sortObservations observations ↔ obs ∈ observations :=
  (List.perm_insertionSort _ _).mem_iff

/-- An operation that touches neither the cars nor the history of the queue. -/
theorem Accounted.mono {past : List Operation} {world next : World} {operation : Operation}
    (accounted : Accounted F past world) (cars : next.cars = world.cars)
    (appended : next.tickets.appended = world.tickets.appended) :
    Accounted F (past ++ [operation]) next where
  held plate car road obs stored member := by
    rw [recorded_append]
    rw [cars] at stored
    exact List.mem_append_left _ (accounted.held plate car road obs stored member)
  appended ticket member := by
    rw [appended] at member
    rw [recorded_append]
    exact (accounted.appended ticket member).mono (List.subset_append_left _ _)

/-- The observations of the camera's road after a call are recorded ones. -/
theorem Accounted.observationsAfter {past : List Operation} {world : World} {car : Car}
    {seen : Plate} (cam : Camera) (accounted : Accounted F past world)
    (nonempty : seen.plate.length ≠ 0)
    (stored : world.cars.map seen.plate = some car ∨
      world.cars.map seen.plate = none ∧ car = Car.init seen.plate) :
    car.observationsAfter seen cam ⊆
      recorded (past ++ [.addObservation seen cam]) seen.plate cam.road := by
  intro obs member
  rw [recorded_append]
  rw [Car.observationsAfter, mem_sortObservations, List.mem_append] at member
  rcases member with old | new
  · apply List.mem_append_left
    rcases stored with stored | ⟨-, rfl⟩
    · exact accounted.held _ car _ obs stored old
    · simp [Car.init] at old
  · apply List.mem_append_right
    simpa [recorded, nonempty] using new

theorem Accounted.addObservation {past : List Operation} {world : World} {cars : Cars}
    {queue : TicketsQueue} {seen : Plate} {cam : Camera} {ntickets : Nat}
    (accounted : Accounted F past world)
    (done : observe F world.cars world.tickets seen cam = .ok (cars, queue, ntickets)) :
    Accounted F (past ++ [.addObservation seen cam])
      { world with cars := cars, tickets := queue } := by
  obtain ⟨car, issued, car', -, records, stored, carsEq⟩ := observe_ok done
  have after := accounted.observationsAfter cam (records.own ▸ records.nonempty) stored
  constructor
  · intro plate other road obs otherStored member
    simp only [carsEq] at otherStored
    by_cases samePlate : plate = seen.plate
    · subst samePlate
      rw [Function.update_self, Option.some.injEq] at otherStored
      subst otherStored
      rw [records.observations] at member
      by_cases sameRoad : road = cam.road
      · subst sameRoad
        rw [Function.update_self] at member
        exact after member
      · rw [Function.update_of_ne sameRoad] at member
        rw [recorded_append]
        apply List.mem_append_left
        rcases stored with stored | ⟨-, rfl⟩
        · exact accounted.held _ car _ obs stored member
        · simp [Car.init] at member
    · rw [Function.update_of_ne samePlate] at otherStored
      rw [recorded_append]
      exact List.mem_append_left _ (accounted.held _ other _ obs otherStored member)
  · intro ticket member
    rw [records.queue, TicketsQueue.appendAll_eq] at member
    rcases List.mem_append.mp member with old | new
    · rw [recorded_append]
      exact (accounted.appended ticket old).mono (List.subset_append_left _ _)
    · have justified := records.justified ticket new
      have own : ticket.plate = seen.plate ∧ ticket.road = cam.road := by
        obtain ⟨obs1, _, obs2, _, speed, _, _, _, rfl⟩ := justified
        exact ⟨records.own.symm, rfl⟩
      rw [own.1, own.2]
      exact (records.own ▸ justified).mono after

theorem worldStep_accounted {past : List Operation} {world next : World}
    {operation : Operation} (accounted : Accounted F past world)
    (step : worldStep F world operation = some next) :
    Accounted F (past ++ [operation]) next := by
  cases operation with
  | addObservation seen cam =>
      simp only [worldStep] at step
      split at step
      · next cars queue ntickets done =>
        cases step
        exact accounted.addObservation done
      · cases step
        exact accounted.mono rfl rfl
      · cases step
  | addDispatcher disp | removeDispatcher disp =>
      cases step
      exact accounted.mono rfl rfl
  | dispatchTicketsQueue sends =>
      simp only [worldStep] at step
      split at step
      · next pass done =>
        cases step
        exact accounted.mono rfl (dispatchTicketsQueue_appended (.inl done))
      · next error pass raised =>
        cases step
        exact accounted.mono rfl (dispatchTicketsQueue_appended (.inr ⟨error, raised⟩))
      · cases step

theorem accounted_empty : Accounted F [] World.empty where
  held plate car road obs stored := by cases stored
  appended ticket member := by cases member

/-- In every run, every ticket that is queued or was sent is for two observations
that the run recorded for its plate on its road. -/
theorem every_ticket_justified {operations : List Operation} {world : World}
    (ran : run (worldStep ℚ) World.empty operations = some world) :
    ∀ ticket, ticket ∈ world.tickets.queue ∨ ticket ∈ world.tickets.sent.map Prod.snd →
      ∃ obs1 ∈ recorded operations ticket.plate ticket.road,
        ∃ obs2 ∈ recorded operations ticket.plate ticket.road,
          JustifiedBy ticket obs1 obs2 := by
  intro ticket present
  have accounted : Accounted ℚ ([] ++ operations) world :=
    run_relates (Accounted ℚ) (fun _ _ _ _ accounted step =>
      worldStep_accounted accounted step) accounted_empty ran
  have conserved : world.tickets.Conserved :=
    run_preserves (fun world => world.tickets.Conserved)
      (fun _ _ _ conserved step => worldStep_conserves conserved step) rfl ran
  have appended : ticket ∈ (world.tickets.appended : Multiset Ticket) := by
    rw [conserved, Multiset.mem_add]
    exact present.symm
  exact (accounted.appended ticket appended).justifiedBy

/-- The ticket of a run that was sent at the second attempt. -/
theorem every_ticket_justified_resent :
    ∃ world, run (worldStep ℚ) World.empty resent = some world ∧
      ∃ obs1 ∈ recorded resent [65] 1, ∃ obs2 ∈ recorded resent [65] 1,
        JustifiedBy ⟨[65], 1, 0, 0, 80, 3600, 8000⟩ obs1 obs2 := by
  have result : (run (worldStep ℚ) World.empty resent).map (fun world => world.tickets) =
      some ⟨[], [⟨[65], 1, 0, 0, 80, 3600, 8000⟩], [(7, ⟨[65], 1, 0, 0, 80, 3600, 8000⟩)]⟩ := by
    decide +kernel
  obtain ⟨world, ran, tickets⟩ := Option.map_eq_some_iff.mp result
  exact ⟨world, ran, every_ticket_justified ran ⟨[65], 1, 0, 0, 80, 3600, 8000⟩
    (.inr (by rw [tickets]; decide))⟩

end NetworkExercises.SpeedDaemon
