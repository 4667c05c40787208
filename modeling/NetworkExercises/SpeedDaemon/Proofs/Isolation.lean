/-
Module: NetworkExercises.SpeedDaemon.Proofs.Isolation
Purpose: The tickets of a car depend on the observations of that car alone, whatever
  else the cameras see.
Main exports: Sighting, plateStep, observe_alike, car_isolated
-/
import NetworkExercises.SpeedDaemon.Proofs.Delivery
import NetworkExercises.SpeedDaemon.Handler

namespace NetworkExercises.SpeedDaemon

open Lib Checked

/-! ### The queue is only appended to -/

section Arithmetic

variable {F : Type} [F64 F]

/-- The scan with its tickets put behind another queue. -/
def Scan.behind (queue : TicketsQueue) (scan : Scan) : Scan :=
  { scan with queue := queue.appendAll scan.queue.appended }

theorem TicketsQueue.appendAll_append_one (queue own : TicketsQueue) (ticket : Ticket) :
    queue.appendAll (own.append ticket).appended =
      (queue.appendAll own.appended).append ticket := by
  simp [TicketsQueue.append, TicketsQueue.appendAll_append, TicketsQueue.appendAll_cons]

theorem scanPair_behind (queue : TicketsQueue) (plate : Bytes) (road : UInt16)
    (obs1 obs2 : Observation) (scan : Scan) :
    scanPair F plate road obs1 obs2 (scan.behind queue) =
      Scan.behind queue <$> scanPair F plate road obs1 obs2 scan := by
  obtain ⟨tickets, own, count⟩ := scan
  rw [show Scan.behind queue ⟨tickets, own, count⟩ =
    ⟨tickets, queue.appendAll own.appended, count⟩ from rfl]
  unfold scanPair
  cases subtract (ε := ServerError) obs2.timestamp.toNat obs1.timestamp.toNat with
  | error fault => rfl
  | ok timeDiffSec =>
      simp only [getDateKey_eq obs1 (show 16 ≤ 1024 by omega),
        getDateKey_eq obs2 (show 16 ≤ 512 by omega), ok_bind]
      split
      · rfl
      split
      · rfl
      split
      · rfl
      split
      · rfl
      cases F64.intFromFloat (F64.add (F64.mul (F64.div (distance F obs1.mile obs2.mile)
          (timeDiffHours F timeDiffSec)) (F64.literal 100)) (F64.literal 0.5)) with
      | none => rfl
      | some speed =>
          simp only [← TicketsQueue.appendAll_append_one]
          rfl

theorem scanPairs_behind (queue : TicketsQueue) (plate : Bytes) (road : UInt16)
    (observations : List Observation) (scan : Scan) :
    scanPairs F plate road observations (scan.behind queue) =
      Scan.behind queue <$> scanPairs F plate road observations scan := by
  induction observations, scan using scanPairs.induct with
  | case1 obs1 obs2 rest scan ih =>
      rw [scanPairs, scanPairs, scanPair_behind]
      cases scanPair F plate road obs1 obs2 scan with
      | error fault => rfl
      | ok middle => exact ih middle
  | case2 observations scan short =>
      rw [scanPairs, scanPairs]
      · rfl
      · exact short
      · exact short

/-- A call that returns issues the same tickets behind any other queue. -/
theorem addObservation_behind {car car' : Car} {queue queue' : TicketsQueue}
    {seen : Plate} {cam : Camera} {ntickets : Nat}
    (done : car.addObservation F queue (.plate seen) cam = .ok (car', queue', ntickets)) :
    ∃ issued, queue' = queue.appendAll issued ∧
      (∀ ticket ∈ issued, ticket.plate = car.plate) ∧
      ∀ other, car.addObservation F other (.plate seen) cam =
        .ok (car', other.appendAll issued, ntickets) := by
  obtain ⟨_, issued, same, -, records⟩ := addObservation_ok done
  cases same
  refine ⟨issued, records.queue, fun ticket member => ?_, fun other => ?_⟩
  · obtain ⟨obs1, _, obs2, _, speed, _, _, _, rfl⟩ := records.justified ticket member
    rfl
  have scanned := fun queue => scanPairs_behind (F := F) queue car.plate cam.road
    (car.observationsAfter seen cam) ⟨car.tickets, .empty, 0⟩
  rw [addObservation_eq records.own records.nonempty] at done ⊢
  rw [show (⟨car.tickets, other, 0⟩ : Scan) =
    Scan.behind other ⟨car.tickets, .empty, 0⟩ from rfl, scanned other]
  rw [show (⟨car.tickets, queue, 0⟩ : Scan) =
    Scan.behind queue ⟨car.tickets, .empty, 0⟩ from rfl, scanned queue] at done
  cases own : scanPairs F car.plate cam.road (car.observationsAfter seen cam)
      ⟨car.tickets, .empty, 0⟩ with
  | error fault =>
      rw [own] at done
      cases done
  | ok scan =>
      rw [own] at done
      obtain ⟨rfl, same, rfl⟩ : _ ∧ queue.appendAll scan.queue.appended = queue' ∧
          scan.count = ntickets := by
        simpa [Functor.map, Except.map, Scan.behind] using done
      rw [queue.appendAll_injective (records.queue.symm.trans same.symm)]
      rfl

/-- An observation that is recorded is recorded in the same way wherever the plate has
the same car, and behind any queue. -/
theorem observe_alike {cars cars' other : Cars} {queue queue' : TicketsQueue}
    {seen : Plate} {cam : Camera} {ntickets : Nat}
    (same : other.map seen.plate = cars.map seen.plate)
    (done : observe F cars queue seen cam = .ok (cars', queue', ntickets)) :
    ∃ issued, queue' = queue.appendAll issued ∧
      (∀ ticket ∈ issued, ticket.plate = seen.plate) ∧
      ∀ otherQueue, ∃ other',
        observe F other otherQueue seen cam =
          .ok (other', otherQueue.appendAll issued, ntickets) ∧
        other'.map seen.plate = cars'.map seen.plate := by
  obtain ⟨⟨middle, car⟩, found, done⟩ := bind_eq_ok.mp done
  obtain ⟨⟨car', queue'', count⟩, called, done⟩ := bind_eq_ok.mp done
  cases done
  obtain ⟨_, _, seenEq, -, records⟩ := addObservation_ok called
  cases seenEq
  have plateEq : car'.plate = seen.plate := records.plate.trans records.own.symm
  obtain ⟨issued, queueEq, plates, behind⟩ := addObservation_behind called
  refine ⟨issued, queueEq, fun ticket member => ?_, fun otherQueue => ?_⟩
  · rw [plates ticket member, records.own]
  obtain ⟨otherMiddle, otherFound⟩ :
      ∃ otherMiddle, other.getOrPut seen.plate = .ok (otherMiddle, car) := by
    unfold Cars.getOrPut at found ⊢
    split at found
    · cases found
    next nonempty =>
    rw [if_neg nonempty, same]
    split at found
    · next stored =>
      cases found
      exact ⟨other, rfl⟩
    · next missing =>
      cases found
      exact ⟨_, rfl⟩
  refine ⟨otherMiddle.put car', ?_, ?_⟩
  · rw [observe, otherFound, ok_bind]
    simp only [behind otherQueue, ok_bind]
  · simp only [Cars.put_map, plateEq, Function.update_self]

/-! ### The plate messages of many cameras -/

/-- A plate message: its client, and what its handling does not determine. -/
structure Sighting where
  client : Client
  seen : Plate
  calls : Calls

def Sighting.session (sighting : Sighting) (world : World) : Session :=
  ⟨world, .empty, sighting.client, BoundedArray.clear⟩

variable (F) in
/-- Handle one plate message. -/
def plateStep (world : World) (sighting : Sighting) : Option World :=
  match handlePlate F sighting.calls sighting.seen (sighting.session world) with
  | .done session => some session.world
  | .raised _ session => some session.world
  | .trap => none

/-- A pass ends, and leaves the cars and the history of the queue alone. -/
theorem Session.dispatch_total (session : Session) (sends : Nat → Sending) :
    ∃ final, (session.dispatch sends).Reaches final ∧
      final.world.cars = session.world.cars ∧
      final.world.tickets.appended = session.world.tickets.appended := by
  obtain ⟨pass, reaches⟩ := dispatchTicketsQueue_total session.world.roads sends
    ⟨session.world.tickets, session.buf, session.world.net⟩
  have appended := dispatchTicketsQueue_appended reaches
  unfold Session.dispatch
  rcases reaches with done | ⟨error, raised⟩
  · rw [done]
    exact ⟨_, .inl rfl, rfl, appended⟩
  · rw [raised]
    exact ⟨_, .inr ⟨error, rfl⟩, rfl, appended⟩

variable {world next : World} {sighting : Sighting} {camera : Camera}

/-- Of the shared state that a plate message changes, the cars and the tickets appended
are those of its observation. -/
theorem plateStep_observed (isCamera : sighting.client.data = .camera camera)
    {cars : Cars} {tickets : TicketsQueue} {ntickets : Nat}
    (observed : observe F world.cars world.tickets sighting.seen camera =
      .ok (cars, tickets, ntickets)) :
    ∃ next, plateStep F world sighting = some next ∧ next.cars = cars ∧
      next.tickets.appended = tickets.appended := by
  by_cases some : ntickets > 0
  · obtain ⟨final, done | ⟨error, raised⟩, carsEq, appended⟩ :=
      Session.dispatch_total ⟨{ world with cars := cars, tickets := tickets }, .empty,
        sighting.client, BoundedArray.clear⟩ sighting.calls.sends
    · refine ⟨final.world, ?_, carsEq, appended⟩
      simp [plateStep, handlePlate, Sighting.session, isCamera, observed, some, done]
    · refine ⟨final.world, ?_, carsEq, appended⟩
      simp [plateStep, handlePlate, Sighting.session, isCamera, observed, some, raised]
  · refine ⟨{ world with cars := cars, tickets := tickets }, ?_, rfl, rfl⟩
    simp [plateStep, handlePlate, Sighting.session, isCamera, observed, some]

/-- A plate message is refused without a change in every world, or its observation is
recorded. -/
theorem plateStep_cases (step : plateStep F world sighting = some next) :
    (next = world ∧ ∀ other, plateStep F other sighting = some other) ∨
      ∃ camera cars tickets ntickets, sighting.client.data = .camera camera ∧
        observe F world.cars world.tickets sighting.seen camera =
          .ok (cars, tickets, ntickets) ∧
        next.cars = cars ∧ next.tickets.appended = tickets.appended := by
  cases data : sighting.client.data with
  | dispatcher | unidentified =>
      have refused : ∀ other, plateStep F other sighting = some other := by
        simp [plateStep, handlePlate, Sighting.session, data]
      rw [refused] at step
      exact .inl ⟨(Option.some.inj step).symm, refused⟩
  | camera camera =>
      by_cases empty : sighting.seen.plate.length = 0
      · have refused : ∀ other, plateStep F other sighting = some other := by
          intro other
          have fails : observe F other.cars other.tickets sighting.seen camera =
              fail .emptyPlate := by
            rw [observe, Cars.getOrPut, if_pos empty]
            rfl
          simp [plateStep, handlePlate, Sighting.session, data, fails, fail]
        rw [refused] at step
        exact .inl ⟨(Option.some.inj step).symm, refused⟩
      cases observed : observe F world.cars world.tickets sighting.seen camera with
      | error fault =>
          cases fault with
          | error error => exact absurd observed (observe_unfailing empty error)
          | trap => simp [plateStep, handlePlate, Sighting.session, data, observed] at step
      | ok result =>
          obtain ⟨next', step', cars, appended⟩ := plateStep_observed data observed
          rw [step] at step'
          cases step'
          exact .inr ⟨camera, _, _, _, rfl, observed, cars, appended⟩

/-! ### Two runs -/

/-- The run of a world and the run on one plate alone, both from `start`: the plate has
the same car, and the tickets appended are the same for it. -/
structure Isolated (plate : Bytes) (start world alone : World) : Prop where
  car : alone.cars.map plate = world.cars.map plate
  tickets : ∃ appended, world.tickets.appended = start.tickets.appended ++ appended ∧
    alone.tickets.appended =
      start.tickets.appended ++ appended.filter (fun ticket => ticket.plate = plate)

theorem Isolated.start (plate : Bytes) (start : World) : Isolated plate start start start :=
  ⟨rfl, [], by simp⟩

variable {plate : Bytes} {start alone : World}

/-- A message with another plate leaves the car of this one alone and appends no ticket
for it. -/
theorem Isolated.dropped (isolated : Isolated plate start world alone)
    (differs : sighting.seen.plate ≠ plate)
    (step : plateStep F world sighting = some next) : Isolated plate start next alone := by
  obtain ⟨appended, worldEq, aloneEq⟩ := isolated.tickets
  rcases plateStep_cases step with ⟨rfl, -⟩ |
    ⟨camera, cars, tickets, ntickets, -, observed, rfl, nextEq⟩
  · exact isolated
  obtain ⟨issued, rfl, plates, -⟩ := observe_alike rfl observed
  obtain ⟨_, _, car', -, -, -, carsEq⟩ := observe_ok observed
  refine ⟨?_, appended ++ issued, ?_, ?_⟩
  · rw [carsEq, Function.update_of_ne differs.symm]
    exact isolated.car
  · rw [nextEq, TicketsQueue.appendAll_eq, worldEq, List.append_assoc]
  · have none : issued.filter (fun ticket => ticket.plate = plate) = [] := by
      rw [List.filter_eq_nil_iff]
      intro ticket member
      simp [plates ticket member, differs]
    rw [aloneEq, List.filter_append, none, List.append_nil]

/-- A message with this plate appends the same tickets in both worlds. -/
theorem Isolated.kept (isolated : Isolated sighting.seen.plate start world alone)
    (step : plateStep F world sighting = some next) :
    ∃ aloneNext, plateStep F alone sighting = some aloneNext ∧
      Isolated sighting.seen.plate start next aloneNext := by
  obtain ⟨appended, worldEq, aloneEq⟩ := isolated.tickets
  rcases plateStep_cases step with ⟨rfl, refused⟩ |
    ⟨camera, cars, tickets, ntickets, isCamera, observed, rfl, nextEq⟩
  · exact ⟨alone, refused alone, isolated⟩
  obtain ⟨issued, rfl, plates, alike⟩ := observe_alike isolated.car observed
  obtain ⟨aloneCars, aloneObserved, carEq⟩ := alike alone.tickets
  obtain ⟨aloneNext, aloneStep, rfl, aloneNextEq⟩ :=
    plateStep_observed isCamera aloneObserved
  refine ⟨aloneNext, aloneStep, carEq, appended ++ issued, ?_, ?_⟩
  · rw [nextEq, TicketsQueue.appendAll_eq, worldEq, List.append_assoc]
  · have all : issued.filter (fun ticket => ticket.plate = sighting.seen.plate) = issued := by
      rw [List.filter_eq_self]
      intro ticket member
      simp [plates ticket member]
    rw [aloneNextEq, TicketsQueue.appendAll_eq, aloneEq, List.filter_append, all,
      List.append_assoc]

/-- For every run of plate messages and every plate, the tickets appended for the plate
are, in order, the tickets appended in the run on the messages with that plate alone. -/
theorem car_isolated (plate : Bytes) (start final : World) (sightings : List Sighting)
    (ran : run (plateStep F) start sightings = some final) :
    ∃ appended alone, final.tickets.appended = start.tickets.appended ++ appended ∧
      run (plateStep F) start
        (sightings.filter fun sighting => sighting.seen.plate = plate) = some alone ∧
      alone.tickets.appended =
        start.tickets.appended ++ appended.filter (fun ticket => ticket.plate = plate) := by
  obtain ⟨alone, aloneRan, isolated⟩ :=
    run_restrict (fun sighting : Sighting => sighting.seen.plate = plate)
      (Isolated plate start)
      (fun world alone sighting next isolated drops step =>
        isolated.dropped (by simpa using drops) step)
      (fun world alone sighting next isolated keeps step => by
        obtain rfl : sighting.seen.plate = plate := by simpa using keeps
        exact isolated.kept step)
      (Isolated.start plate start) ran
  obtain ⟨appended, finalEq, aloneEq⟩ := isolated.tickets
  exact ⟨appended, alone, finalEq, aloneRan, aloneEq⟩

/-- Two cameras on one road see two cars in turn. -/
def twoCars : List Sighting :=
  let camera (mile : UInt16) : Client :=
    { Client.init 5 with data := .camera ⟨5, 1, mile, 60⟩ }
  let calls : Calls := ⟨fun _ => .least .all, .ok 9, none⟩
  [⟨camera 0, ⟨[65], 0⟩, calls⟩, ⟨camera 0, ⟨[66], 10⟩, calls⟩,
    ⟨camera 80, ⟨[65], 3600⟩, calls⟩, ⟨camera 80, ⟨[66], 3610⟩, calls⟩]

theorem car_isolated_twoCars :
    ∃ final appended alone, run (plateStep ℚ) World.empty twoCars = some final ∧
      appended.length = 2 ∧
      final.tickets.appended = World.empty.tickets.appended ++ appended ∧
      run (plateStep ℚ) World.empty
        (twoCars.filter fun sighting => sighting.seen.plate = [65]) = some alone ∧
      alone.tickets.appended = World.empty.tickets.appended ++
        appended.filter (fun ticket => ticket.plate = [65]) := by
  have ends : (run (plateStep ℚ) World.empty twoCars).map
      (fun world => world.tickets.appended.length) = some 2 := by decide +kernel
  obtain ⟨final, ran, two⟩ := Option.map_eq_some_iff.mp ends
  obtain ⟨appended, alone, finalEq, aloneRan, aloneEq⟩ :=
    car_isolated [65] World.empty final twoCars ran
  refine ⟨final, appended, alone, ran, ?_, finalEq, aloneRan, aloneEq⟩
  rw [← two, finalEq]
  rfl

end Arithmetic

end NetworkExercises.SpeedDaemon
