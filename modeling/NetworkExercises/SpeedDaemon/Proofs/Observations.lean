/-
Module: NetworkExercises.SpeedDaemon.Proofs.Observations
Purpose: The lists of observations that a car keeps between the calls of `addObservation`, and
  why the subtractions of the scan do not go below zero.
Main exports: observed, accepted, Car.Keeps, carStep_keepsObservations, observations_kept
-/
import NetworkExercises.SpeedDaemon.Proofs.Tickets
import NetworkExercises.SpeedDaemon.Proofs.Speeding

namespace NetworkExercises.SpeedDaemon

open Lib Checked

/-! ### Accepted observations -/

/-- The observation that a call on the car of this plate adds, if the call is not refused. -/
def observed (plate : Bytes) (call : Message × Camera) : Option Observation :=
  match call.1 with
  | .plate seen =>
      if seen.plate = plate ∧ plate.length ≠ 0 then some (observationOf seen call.2) else none
  | _ => none

/-- The observations of a road that the calls add, in the order of the calls. -/
def accepted (plate : Bytes) (road : UInt16) (calls : List (Message × Camera)) :
    List Observation :=
  (calls.filterMap (observed plate)).filter fun obs => obs.road = road

variable {F : Type} [F64 F] {plate : Bytes} {road : UInt16} {queue : TicketsQueue}
  {state next : Car × TicketsQueue} {call : Message × Camera} {past : List (Message × Camera)}
  {observations : List Observation} {obs1 obs2 : Observation}

theorem accepted_append (plate : Bytes) (road : UInt16) (front back : List (Message × Camera)) :
    accepted plate road (front ++ back) =
      accepted plate road front ++ accepted plate road back := by
  rw [accepted, List.filterMap_append, List.filter_append]
  rfl

theorem accepted_refused (road : UInt16) (refused : observed plate call = none) :
    accepted plate road [call] = [] := by
  rw [accepted, List.filterMap_cons_none refused]
  rfl

/-- A call returns an error exactly when it adds no observation. -/
theorem addObservation_refused_iff (car : Car) (queue : TicketsQueue)
    (call : Message × Camera) :
    (∃ error, car.addObservation F queue call.1 call.2 = fail error) ↔
      observed car.plate call = none := by
  obtain ⟨message, cam⟩ := call
  cases message with
  | plate seen =>
      by_cases own : seen.plate = car.plate ∧ car.plate.length ≠ 0
      · have added : observed car.plate (.plate seen, cam) = some (observationOf seen cam) :=
          if_pos own
        constructor
        · rintro ⟨error, refused⟩
          exact absurd refused (addObservation_unfailing own.1 own.2 error)
        · intro refused
          rw [added] at refused
          cases refused
      · refine ⟨fun _ => if_neg own, fun _ => ?_⟩
        simp only [Car.addObservation]
        split
        · exact ⟨_, rfl⟩
        split
        · exact ⟨_, rfl⟩
        next nonempty =>
        rw [if_pos fun same => own ⟨same, nonempty⟩]
        exact ⟨_, rfl⟩
  | _ => exact ⟨fun _ => rfl, fun _ => ⟨_, rfl⟩⟩

/-! ### The lists between the calls -/

/-- Each road's list is in the order of the timestamps, holds what the calls have added for
that road and nothing else, and is stored under the road of its entries. -/
structure Car.Keeps (car : Car) (plate : Bytes) (calls : List (Message × Camera)) : Prop where
  own : car.plate = plate
  sorted : ∀ road observations, car.observationsmap road = some observations →
    InOrder observations
  holds : ∀ road, (((car.observationsmap road).getD [] : List Observation) :
    Multiset Observation) = accepted plate road calls
  keyed : ∀ road observations, car.observationsmap road = some observations →
    ∀ obs ∈ observations, obs.road = road

theorem init_keeps (plate : Bytes) : (Car.init plate).Keeps plate [] where
  own := rfl
  sorted _ _ recorded := nomatch recorded
  holds _ := rfl
  keyed _ _ recorded := nomatch recorded

/-- The scanned list holds the old observations and the new one. -/
theorem observationsAfter_perm (car : Car) (seen : Plate) (cam : Camera) :
    (car.observationsAfter seen cam).Perm
      ((car.observationsmap cam.road).getD [] ++ [observationOf seen cam]) :=
  List.perm_insertionSort _ _

/-- A call that adds an observation keeps the lists in shape. -/
theorem Car.Keeps.records {car car' : Car} {queue' : TicketsQueue} {seen : Plate}
    {cam : Camera} {issued : List Ticket} (keeps : car.Keeps plate past)
    (records : Records F car queue seen cam car' queue' issued) :
    car'.Keeps plate (past ++ [(.plate seen, cam)]) := by
  have added : observed plate (.plate seen, cam) = some (observationOf seen cam) :=
    if_pos ⟨records.own.trans keeps.own, keeps.own ▸ records.nonempty⟩
  have onlyThere (road : UInt16) : accepted plate road [(.plate seen, cam)] =
      if cam.road = road then [observationOf seen cam] else [] := by
    rw [accepted, List.filterMap_cons_some added, List.filterMap_nil]
    by_cases here : cam.road = road <;> simp [here, observationOf]
  have allHeld (road : UInt16) : (((car'.observationsmap road).getD [] : List Observation) :
      Multiset Observation) = accepted plate road (past ++ [(.plate seen, cam)]) := by
    rw [accepted_append, onlyThere, ← Multiset.coe_add, ← keeps.holds road,
      records.observations]
    by_cases here : road = cam.road
    · subst here
      rw [Function.update_self, Option.getD_some, if_pos rfl, Multiset.coe_add]
      exact Multiset.coe_eq_coe.mpr (observationsAfter_perm car seen cam)
    · rw [Function.update_of_ne here, if_neg (Ne.symm here), Multiset.coe_nil, add_zero]
  refine ⟨records.plate.trans keeps.own, ?_, allHeld, ?_⟩
  · intro road observations recorded
    rw [records.observations] at recorded
    by_cases here : road = cam.road
    · subst here
      rw [Function.update_self, Option.some.injEq] at recorded
      exact recorded ▸ observationsAfter_sorted car seen cam
    · rw [Function.update_of_ne here] at recorded
      exact keeps.sorted road observations recorded
  · intro road observations recorded obs member
    have held : obs ∈ (((car'.observationsmap road).getD [] : List Observation) :
        Multiset Observation) := by
      rw [recorded]
      exact member
    rw [allHeld, Multiset.mem_coe] at held
    exact of_decide_eq_true (List.mem_filter.mp held).2

/-- Every call keeps the lists in shape, refused or not. -/
theorem carStep_keepsObservations (keeps : state.1.Keeps plate past)
    (step : carStep F state call = some next) : next.1.Keeps plate (past ++ [call]) := by
  obtain ⟨message, cam⟩ := call
  unfold carStep at step
  split at step
  · next car after count called =>
    cases step
    obtain ⟨seen, issued, messageEq, -, records⟩ := addObservation_ok called
    simp only at messageEq
    subst messageEq
    exact keeps.records records
  · next error refused =>
    cases step
    have nothing : observed plate (message, cam) = none := by
      rw [← keeps.own]
      exact (addObservation_refused_iff _ _ _).mp ⟨error, refused⟩
    refine ⟨keeps.own, keeps.sorted, fun road => ?_, keeps.keyed⟩
    rw [accepted_append, accepted_refused road nothing, List.append_nil]
    exact keeps.holds road
  · cases step

/-! ### The subtractions of the scan -/

/-- The two subtractions of miles in the loop, as the program checks them. -/
def subtractMiles (mile1 mile2 : UInt16) : Checked ServerError Nat :=
  if mile2 > mile1 then subtract mile2.toNat mile1.toNat
  else subtract mile1.toNat mile2.toNat

theorem subtractMiles_eq (mile1 mile2 : UInt16) :
    subtractMiles mile1 mile2 = .ok (milesApart mile1 mile2) := by
  unfold subtractMiles
  split
  · next farther =>
    have ordered : mile1.toNat ≤ mile2.toNat := le_of_lt farther
    rw [subtract_of_le ordered, milesApart]
    congr 1
    omega
  · next nearer =>
    have ordered : mile2.toNat ≤ mile1.toNat := Nat.not_lt.mp nearer
    rw [subtract_of_le ordered, milesApart]
    congr 1
    omega

/-- The subtractions for each pair of neighbours give a number. -/
def Subtracts (observations : List Observation) : Prop :=
  ∀ k obs1 obs2, observations[k]? = some obs1 → observations[k + 1]? = some obs2 →
    (subtract obs2.timestamp.toNat obs1.timestamp.toNat : Checked ServerError Nat) =
        .ok (secondsApart obs1 obs2) ∧
      subtractMiles obs1.mile obs2.mile = .ok (milesApart obs1.mile obs2.mile)

theorem InOrder.subtracts (sorted : InOrder observations) : Subtracts observations := by
  intro k obs1 obs2 near next
  have ordered := sorted.of_getElem? near next
  exact ⟨subtract_of_le ordered, subtractMiles_eq obs1.mile obs2.mile⟩

/-- A call that traps does so at the conversion of a speed. -/
theorem carStep_trap (trapped : carStep F state call = none) :
    ∃ seen, call.1 = .plate seen ∧
      CastFails F (state.1.observationsAfter seen call.2) := by
  obtain ⟨message, cam⟩ := call
  unfold carStep at trapped
  split at trapped
  · cases trapped
  · cases trapped
  next called =>
  have notRefused : observed state.1.plate (message, cam) ≠ none := by
    intro nothing
    obtain ⟨error, refused⟩ : ∃ error, state.1.addObservation F state.2 message cam =
        fail error := (addObservation_refused_iff state.1 state.2 (message, cam)).mpr nothing
    rw [called] at refused
    cases refused
  cases message with
  | plate seen =>
      have own : seen.plate = state.1.plate ∧ state.1.plate.length ≠ 0 :=
        not_not.mp fun foreign => notRefused (if_neg foreign)
      exact ⟨seen, rfl, addObservation_trap own.1 own.2 called⟩
  | _ => exact absurd rfl notRefused

/-- Between the calls of every run the lists of the car are in shape; the scan of the next
call subtracts without going below zero, and only the conversion of a speed can trap. -/
theorem observations_kept {calls : List (Message × Camera)}
    (ran : run (carStep F) (Car.init plate, queue) calls = some state) :
    state.1.Keeps plate calls ∧
      (∀ call, (∃ error, state.1.addObservation F state.2 call.1 call.2 = fail error) ↔
        observed plate call = none) ∧
      (∀ seen cam, Subtracts (state.1.observationsAfter seen cam)) ∧
      ∀ call, carStep F state call = none → ∃ seen, call.1 = .plate seen ∧
        CastFails F (state.1.observationsAfter seen call.2) := by
  have keeps : state.1.Keeps plate ([] ++ calls) :=
    run_relates (fun past state => state.1.Keeps plate past)
      (fun _ _ _ _ keeps step => carStep_keepsObservations keeps step) (init_keeps plate) ran
  refine ⟨keeps, fun call => ?_, fun seen cam => ?_, fun call => carStep_trap⟩
  · rw [← keeps.own]
    exact addObservation_refused_iff state.1 state.2 call
  · exact InOrder.subtracts (observationsAfter_sorted state.1 seen cam)

section Mixed

/-- Observations of two roads, not in the order of their timestamps. -/
def outOfOrder : List (Message × Camera) :=
  [(.plate ⟨[65], 7200⟩, ⟨3, 1, 90, 60⟩), (.plate ⟨[65], 60⟩, ⟨4, 2, 10, 60⟩),
    (.plate ⟨[66], 60⟩, ⟨4, 2, 10, 60⟩), (.plate ⟨[65], 0⟩, ⟨5, 1, 10, 60⟩)]

theorem observations_kept_outOfOrder :
    ∃ state, run (carStep ℚ) (Car.init [65], .empty) outOfOrder = some state ∧
      state.1.Keeps [65] outOfOrder := by
  have runs : (run (carStep ℚ) (Car.init [65], .empty) outOfOrder).isSome := by
    decide +kernel
  obtain ⟨state, ran⟩ := Option.isSome_iff_exists.mp runs
  exact ⟨state, ran, (observations_kept ran).1⟩

end Mixed

end NetworkExercises.SpeedDaemon
