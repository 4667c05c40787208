/-
Module: NetworkExercises.SpeedDaemon.Proofs.PlateRuns
Purpose: Every run of the operations is, for each plate, a run of calls on the car of the plate,
  and what such runs say about the tickets of the server.
Main exports: plateCalls, OfPlate, run_ofPlate, server_refines_operations
-/
import NetworkExercises.SpeedDaemon.Proofs.Isolation
import NetworkExercises.SpeedDaemon.Proofs.Observations
import NetworkExercises.SpeedDaemon.Proofs.ServerRefinement

namespace NetworkExercises.SpeedDaemon

open Lib Checked

/-! ### The runs of one plate -/

/-- The call that an operation makes on the car of a plate. -/
def Operation.callOn (plate : Bytes) : Operation → List (Message × Camera)
  | .addObservation seen cam =>
      if seen.plate = plate ∧ plate.length ≠ 0 then [(.plate seen, cam)] else []
  | _ => []

/-- The calls that a list of operations makes on the car of a plate. -/
def plateCalls (plate : Bytes) (operations : List Operation) : List (Message × Camera) :=
  operations.flatMap (Operation.callOn plate)

/-- The car of the plate, and a queue that only the tickets of the plate were put into. -/
structure OfPlate (plate : Bytes) (world : World) (state : Car × TicketsQueue) : Prop where
  car : state.1 = world.cars.carOf plate
  appended : state.2.appended = world.tickets.appended.filter fun ticket => ticket.plate = plate

theorem ofPlate_empty (plate : Bytes) : OfPlate plate .empty (Car.init plate, .empty) := ⟨rfl, rfl⟩

section Arithmetic

variable {F : Type} [F64 F] {plate : Bytes} {world next : World} {state : Car × TicketsQueue}
  {operation : Operation}

/-- An observation is one call on the car of its plate, and leaves the other cars alone. -/
theorem observe_call {cars cars' : Cars} {queue queue' : TicketsQueue} {seen : Plate}
    {cam : Camera} {ntickets : Nat}
    (done : SpeedDaemon.observe F cars queue seen cam = .ok (cars', queue', ntickets)) :
    (cars.carOf seen.plate).addObservation F queue (.plate seen) cam =
        .ok (cars'.carOf seen.plate, queue', ntickets) ∧
      ∀ other, other ≠ seen.plate → cars'.carOf other = cars.carOf other := by
  obtain ⟨_, _, _, _, _, _, carsEq⟩ := observe_ok done
  have others : ∀ other, other ≠ seen.plate → cars'.carOf other = cars.carOf other := by
    intro other differs
    rw [Cars.carOf, carsEq, Function.update_of_ne differs]
    rfl
  refine ⟨?_, others⟩
  obtain ⟨⟨middle, car⟩, found, done⟩ := bind_eq_ok.mp done
  obtain ⟨⟨car', queue'', count⟩, called, done⟩ := bind_eq_ok.mp done
  cases done
  obtain ⟨_, _, seenEq, -, records⟩ := addObservation_ok called
  cases seenEq
  have plateEq : car'.plate = seen.plate := records.plate.trans records.own.symm
  have isCar : car = cars.carOf seen.plate := by
    unfold Cars.getOrPut at found
    unfold Cars.carOf
    split at found
    · cases found
    split at found
    · next stored =>
      cases found
      rw [stored, Option.getD_some]
    · next missing =>
      cases found
      rw [missing, Option.getD_none]
  have after : (middle.put car').carOf seen.plate = car' := by
    rw [Cars.carOf, Cars.put_map, plateEq, Function.update_self, Option.getD_some]
  rw [after, ← isCar]
  exact called

/-- A call appends its tickets to any queue alike. -/
theorem carStep_behind {message : Message} {cam : Camera} {car car' : Car}
    {queue queue' : TicketsQueue} {count : Nat}
    (called : car.addObservation F queue message cam = .ok (car', queue', count)) :
    ∃ issued, queue' = queue.appendAll issued ∧ (∀ ticket ∈ issued, ticket.plate = car.plate) ∧
      ∀ other, carStep F (car, other) (message, cam) = some (car', other.appendAll issued) := by
  obtain ⟨seen, _, messageEq, -, -⟩ := addObservation_ok called
  subst messageEq
  obtain ⟨issued, queueEq, plates, behind⟩ := addObservation_behind called
  exact ⟨issued, queueEq, plates, fun other => by rw [carStep, behind other]⟩

/-- An operation that touches neither the cars nor what was ever appended. -/
theorem OfPlate.mono (own : OfPlate plate world state) (cars : next.cars = world.cars)
    (appended : next.tickets.appended = world.tickets.appended) : OfPlate plate next state :=
  ⟨by rw [cars]; exact own.car, by rw [appended]; exact own.appended⟩

theorem OfPlate.addObservation (own : OfPlate plate world state) {seen : Plate} {cam : Camera}
    {cars : Cars} {queue : TicketsQueue} {ntickets : Nat}
    (done : SpeedDaemon.observe F world.cars world.tickets seen cam =
      .ok (cars, queue, ntickets)) :
    ∃ after, run (carStep F) state (Operation.callOn plate (.addObservation seen cam)) =
        some after ∧
      OfPlate plate { world with cars := cars, tickets := queue } after := by
  obtain ⟨called, others⟩ := observe_call done
  obtain ⟨issued, queueEq, plates, behind⟩ := carStep_behind called
  obtain ⟨_, _, seenEq, -, records⟩ := addObservation_ok called
  cases seenEq
  rw [← records.own] at plates
  by_cases same : plate = seen.plate
  · subst same
    have nonempty : seen.plate.length ≠ 0 := records.own ▸ records.nonempty
    have step := behind state.2
    rw [← own.car] at step
    refine ⟨(cars.carOf seen.plate, state.2.appendAll issued), ?_, rfl, ?_⟩
    · rw [Operation.callOn, if_pos ⟨rfl, nonempty⟩]
      exact run_cons_eq_some.mpr ⟨_, step, rfl⟩
    · rw [queueEq, TicketsQueue.appendAll_eq, TicketsQueue.appendAll_eq]
      simp only [List.filter_append, own.appended]
      rw [List.filter_eq_self.mpr fun ticket member => decide_eq_true (plates ticket member)]
  · refine ⟨state, ?_, ?_, ?_⟩
    · rw [Operation.callOn, if_neg fun both => same both.1.symm]
      rfl
    · rw [own.car]
      exact (others plate same).symm
    · have foreign : issued.filter (fun ticket => ticket.plate = plate) = [] := by
        rw [List.filter_eq_nil_iff]
        intro ticket member
        rw [plates ticket member]
        simp [Ne.symm same]
      rw [queueEq, TicketsQueue.appendAll_eq]
      simp only [List.filter_append, foreign, List.append_nil, own.appended]

/-- An operation is a run of the calls it makes on the car of a plate. -/
theorem worldStep_ofPlate (own : OfPlate plate world state)
    (step : worldStep F world operation = some next) :
    ∃ after, run (carStep F) state (operation.callOn plate) = some after ∧
      OfPlate plate next after := by
  cases operation with
  | addObservation seen cam =>
      simp only [worldStep] at step
      split at step
      · next cars queue ntickets done =>
        cases step
        exact own.addObservation done
      · next error refused =>
        -- Only an empty plate is refused.
        cases step
        have empty : seen.plate.length = 0 := by
          by_contra nonempty
          exact observe_unfailing nonempty error refused
        refine ⟨state, ?_, own⟩
        rw [Operation.callOn, if_neg fun both => both.2 (both.1 ▸ empty)]
        rfl
      · cases step
  | addDispatcher disp | removeDispatcher disp =>
      cases step
      exact ⟨state, rfl, own.mono rfl rfl⟩
  | dispatchTicketsQueue sends =>
      simp only [worldStep] at step
      split at step
      · next pass done =>
        cases step
        exact ⟨state, rfl, own.mono rfl (dispatchTicketsQueue_appended (.inl done))⟩
      · next error pass raised =>
        cases step
        exact ⟨state, rfl, own.mono rfl (dispatchTicketsQueue_appended (.inr ⟨error, raised⟩))⟩
      · cases step

/-- Every run of the operations is a run of the calls on the car of each plate. -/
theorem run_ofPlate {operations : List Operation}
    (ran : run (worldStep F) .empty operations = some world) (plate : Bytes) :
    ∃ state, run (carStep F) (Car.init plate, .empty) (plateCalls plate operations) =
        some state ∧ OfPlate plate world state := by
  have simulated := run_simulates (fun _ => Operation.callOn plate) (OfPlate plate)
    (fun _ _ _ _ own step => worldStep_ofPlate own step) (ofPlate_empty plate) ran
  rwa [emissions_eq_flatMap _ ran] at simulated

variable {serverfd : SocketFd} {server : ServerState} {events : List Event}

/-- In every run of the server the car of each plate has seen a run of its own calls. -/
theorem server_ofPlate (ran : run (eventStep F serverfd) .init events = some server)
    (plate : Bytes) :
    ∃ state, run (carStep F) (Car.init plate, .empty)
        (plateCalls plate (serverOperations F serverfd events)) = some state ∧
      OfPlate plate server.world state := by
  obtain ⟨world, operated, same⟩ := serverOperations_run ran
  obtain ⟨state, called, own⟩ := run_ofPlate operated plate
  exact ⟨state, called, own.mono same.cars (by rw [same.tickets])⟩

/-- Whatever the events and their order, the server holds the cars, the roads and the tickets of
a run of the operations that the events stand for, and the car and the tickets of each plate are
those of a run of the calls that these operations make on it. -/
theorem server_refines_operations
    (ran : run (eventStep F serverfd) .init events = some server) :
    (∃ world, run (worldStep F) .empty (serverOperations F serverfd events) = some world ∧
      SameBooks server.world world) ∧
    ∀ plate, ∃ state, run (carStep F) (Car.init plate, .empty)
        (plateCalls plate (serverOperations F serverfd events)) = some state ∧
      OfPlate plate server.world state :=
  ⟨serverOperations_run ran, server_ofPlate ran⟩

end Arithmetic

theorem server_refines_operations_speeding :
    ∃ server, run (eventStep ℚ 3) .init speedingEvents = some server ∧
      server.world.tickets.sent = [(7, ⟨[65], 1, 0, 0, 80, 3600, 8000⟩)] ∧
      (∃ world, run (worldStep ℚ) .empty (serverOperations ℚ 3 speedingEvents) = some world ∧
        SameBooks server.world world) ∧
      ∃ state, run (carStep ℚ) (Car.init [65], .empty)
          (plateCalls [65] (serverOperations ℚ 3 speedingEvents)) = some state ∧
        OfPlate [65] server.world state := by
  have ran : (run (eventStep ℚ 3) .init speedingEvents).map
      (fun server => server.world.tickets.sent) =
        some [(7, ⟨[65], 1, 0, 0, 80, 3600, 8000⟩)] := by decide +kernel
  obtain ⟨server, ranEq, sent⟩ := Option.map_eq_some_iff.mp ran
  obtain ⟨operated, ofPlate⟩ := server_refines_operations ranEq
  exact ⟨server, ranEq, sent, operated, ofPlate [65]⟩

end NetworkExercises.SpeedDaemon
