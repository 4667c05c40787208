/-
Module: NetworkExercises.SpeedDaemon.Proofs.EndToEnd
Purpose: From the bytes of the cameras to the tickets, and back: each ticket is for two reports in
  these bytes, and a car that two reports find speeding gets a ticket.
Main exports: Reports, Reported, Heard, server_tickets_reported, server_tickets_speeders
-/
import NetworkExercises.SpeedDaemon.Proofs.Orders
import NetworkExercises.SpeedDaemon.Proofs.ServerTickets

namespace NetworkExercises.SpeedDaemon

open Lib Checked

/-! ### Reports -/

section Arithmetic

variable {F : Type} [F64 F] {serverfd fd : SocketFd} {state : ServerState} {event : Event}
  {events : List Event}

/-- The camera at a position. -/
def cameraAt (fd : SocketFd) (position : IAmCamera) : Camera :=
  ⟨fd, position.road, position.mile, position.limit⟩

/-- A client is known as the camera that it has said to be in its messages. -/
def SaysCamera (fd : SocketFd) (msgs : List Message) (identity : Identity) : Prop :=
  ∀ camera, identity.data = .camera camera ↔
    ∃ position, .camera position ∈ msgs ∧ camera = cameraAt fd position

/-- Only one message makes a camera. -/
theorem SaysCamera.step {past : List Message} {identity after : Identity} {msg : Message}
    (said : SaysCamera fd past identity) (step : identity.step fd msg = some after) :
    SaysCamera fd (past ++ [msg]) after := by
  have noneBefore : identity.data = .unidentified → ∀ position, .camera position ∉ past := by
    intro unidentified position member
    have known := (said (cameraAt fd position)).mpr ⟨position, member, rfl⟩
    rw [unidentified] at known
    cases known
  have stays : after.data = identity.data → (∀ position, msg ≠ .camera position) →
      SaysCamera fd (past ++ [msg]) after := by
    intro same other camera
    rw [same, said camera]
    refine exists_congr fun position => and_congr_left fun _ => ?_
    rw [List.mem_append, List.mem_singleton]
    exact (or_iff_left (Ne.symm (other position))).symm
  cases msg with
  | camera position =>
      rw [Identity.step, Option.ite_none_right_eq_some] at step
      obtain ⟨unidentified, stepEq⟩ := step
      cases stepEq
      intro camera
      constructor
      · rintro ⟨⟩
        exact ⟨position, by simp, rfl⟩
      · rintro ⟨other, member, rfl⟩
        rcases List.mem_append.mp member with before | now
        · exact absurd before (noneBefore unidentified other)
        · cases List.mem_singleton.mp now
          rfl
  | dispatcher roads =>
      rw [Identity.step, Option.ite_none_right_eq_some] at step
      obtain ⟨unidentified, stepEq⟩ := step
      cases stepEq
      intro camera
      refine iff_of_false (by rintro ⟨⟩) ?_
      rintro ⟨position, member, -⟩
      rcases List.mem_append.mp member with before | now
      · exact noneBefore unidentified position before
      · cases List.mem_singleton.mp now
  | wantHeartbeat interval =>
      rw [Identity.step, Option.ite_none_left_eq_some] at step
      obtain ⟨-, stepEq⟩ := step
      cases stepEq
      exact stays rfl (by rintro _ ⟨⟩)
  | plate seen =>
      simp only [Identity.step] at step
      split at step <;> cases step
      exact stays rfl (by rintro _ ⟨⟩)
  | errorM msg | ticket issued | heartbeat => cases step

theorem run_saysCamera {identity : Identity} {msgs : List Message}
    (ran : run (Identity.step fd) .start msgs = some identity) : SaysCamera fd msgs identity := by
  have initial : SaysCamera fd [] .start := by
    intro camera
    exact iff_of_false (by rintro ⟨⟩) (by rintro ⟨_, ⟨⟩, _⟩)
  exact run_relates (SaysCamera fd) (fun _ _ _ _ said step => said.step step) initial ran

/-- The messages report that a plate was seen: a camera has said where it is, and then sees it. -/
def Reports (fd : SocketFd) (msgs : List Message) (plate : Bytes) (obs : Observation) : Prop :=
  ∃ position seen front back, msgs = front ++ .plate seen :: back ∧ .camera position ∈ front ∧
    seen.plate = plate ∧ obs = observationOf seen (cameraAt fd position)

/-- An observation that messages ask to record is one that they report. -/
theorem reports_of_mem_orders {seen : Plate} {camera : Camera} {msgs : List Message}
    (asked : .addObservation seen camera ∈ orders fd .start msgs) :
    Reports fd msgs seen.plate (observationOf seen camera) := by
  obtain ⟨front, msg, back, identity, rfl, ran, order⟩ := mem_emissions asked
  cases msg with
  | plate other =>
      simp only [Identity.order] at order
      split at order
      · next own data =>
        cases List.mem_singleton.mp order
        obtain ⟨position, member, rfl⟩ := (run_saysCamera ran camera).mp data
        exact ⟨position, seen, front, back, rfl, member, rfl, rfl⟩
      · cases order
  | dispatcher roads =>
      simp only [Identity.order] at order
      split at order
      · cases List.mem_singleton.mp order
      · cases order
  | camera position | errorM msg | ticket issued | wantHeartbeat interval | heartbeat =>
      cases order

/-- At some time of the run, messages in the bytes of a connection have reported it. -/
def Reported (serverfd : SocketFd) (events : List Event) (plate : Bytes) (obs : Observation) :
    Prop :=
  ∃ past fd arrivals delivery, past <+: events ∧ arrivals <+: arrivalsOf serverfd fd past ∧
    run deliverStep .empty arrivals = some delivery ∧ Reports fd delivery.delivered plate obs

/-- What is noted in an event is in the journal of its descriptor. -/
theorem mem_journal {operation : Operation}
    (given : .wrote fd operation ∈ eventOrders F serverfd state event)
    (notes : List (Note Operation)) :
    operation ∈ journal fd (notes ++ eventOrders F serverfd state event) := by
  rw [eventOrders] at given ⊢
  by_cases isServer : event.socket = serverfd
  · rw [if_pos isServer] at given
    split at given
    · cases List.mem_singleton.mp given
    · cases given
  · rw [if_neg isServer] at given ⊢
    obtain ⟨other, member, same⟩ := List.mem_map.mp given
    cases same
    rw [journal_entries]
    exact List.mem_append_right _ member

/-- What is recorded in an orderly run has been reported. -/
theorem reported_of_recorded {plate : Bytes} {road : UInt16} {obs : Observation}
    (orderly : EachStep (Orderly serverfd) (eventStep F serverfd) .init events)
    (ran : run (eventStep F serverfd) .init events = some state)
    (known : obs ∈ recorded (serverOperations F serverfd events) plate road) :
    obs.road = road ∧ Reported serverfd events plate obs := by
  obtain ⟨operation, operated, found⟩ := List.mem_filterMap.mp known
  cases operation with
  | addDispatcher disp | removeDispatcher disp | dispatchTicketsQueue sends => cases found
  | addObservation seen camera =>
      simp only [Option.ite_none_right_eq_some, Option.some.injEq] at found
      obtain ⟨⟨rfl, rfl, -⟩, rfl⟩ := found
      refine ⟨rfl, ?_⟩
      have noted : .addObservation seen camera ∈
          (serverOrders F serverfd events).filterMap Note.entry := by
        rw [← (run_obeyed orderly ran).2]
        exact List.mem_filter.mpr ⟨operated, rfl⟩
      obtain ⟨note, given, entry⟩ := List.mem_filterMap.mp noted
      obtain ⟨front, event, back, middle, rfl, ranFront, now⟩ := mem_emissions given
      cases note with
      | opened fd => cases entry
      | wrote fd operation =>
          cases entry
          -- At the end of its event it is in the journal of its descriptor.
          rw [List.append_cons] at orderly ran
          obtain ⟨next, ranPast, -⟩ := run_append_eq_some.mp ran
          have obeyed := (run_obeyed (orderly.of_append ranPast).1 ranPast).1
          obtain ⟨arrivals, delivery, begins, delivered, asked⟩ := obeyed.asked fd
          have member := mem_journal now (serverOrders F serverfd front)
          rw [← serverOrders_concat ranFront] at member
          exact ⟨front ++ [event], fd, arrivals, delivery, ⟨back, by simp⟩, begins, delivered,
            reports_of_mem_orders (asked.subset member)⟩

/-! ### What is reported is recorded -/

/-- Messages that the protocol allows ask to record what they report. -/
theorem mem_orders_of_reports {plate : Bytes} {obs : Observation} {msgs : List Message}
    {identity : Identity} (allowed : run (Identity.step fd) .start msgs = some identity)
    (reports : Reports fd msgs plate obs) :
    ∃ seen camera, .addObservation seen camera ∈ orders fd .start msgs ∧
      seen.plate = plate ∧ obs = observationOf seen camera := by
  obtain ⟨position, seen, front, back, rfl, said, rfl, rfl⟩ := reports
  obtain ⟨known, ranFront, -⟩ := run_append_eq_some.mp allowed
  have data : known.data = .camera (cameraAt fd position) :=
    (run_saysCamera ranFront _).mpr ⟨position, said, rfl⟩
  refine ⟨seen, cameraAt fd position, ?_, rfl, rfl⟩
  rw [orders_append ranFront]
  apply List.mem_append_right
  rw [orders, emissions, Identity.order, data]
  exact List.mem_append_left _ (List.mem_singleton_self _)

/-- What is in the journal of a descriptor has been noted. -/
theorem entry_of_mem_journal {α : Type} {entry : α} {notes : List (Note α)}
    (member : entry ∈ journal fd notes) : entry ∈ notes.filterMap Note.entry := by
  induction notes using List.reverseRecOn with
  | nil => cases member
  | append_singleton notes note ih =>
      rw [List.filterMap_append, List.mem_append]
      cases note with
      | opened other =>
          by_cases same : other = fd
          · subst same
            rw [journal_opened] at member
            cases member
          · rw [journal_opened_other same] at member
            exact .inl (ih member)
      | wrote other last =>
          by_cases same : other = fd
          · subst same
            rw [journal_wrote, List.mem_append, List.mem_singleton] at member
            rcases member with earlier | rfl
            · exact .inl (ih earlier)
            · exact .inr (List.mem_singleton_self _)
          · rw [journal_wrote_other last same] at member
            exact .inl (ih member)

variable (F) in
/-- At some time of the run, a connected client has reported it in its messages. -/
def Heard (serverfd : SocketFd) (events : List Event) (plate : Bytes) (obs : Observation) : Prop :=
  ∃ past middle fd client delivery, past <+: events ∧
    run (eventStep F serverfd) .init past = some middle ∧ middle.clients.map fd = some client ∧
    run deliverStep .empty (arrivalsOf serverfd fd past) = some delivery ∧
      Reports fd delivery.delivered plate obs

/-- What a connected client has reported is recorded, also when it is gone since. -/
theorem recorded_of_heard {plate : Bytes} {obs : Observation}
    (orderly : EachStep (Orderly serverfd) (eventStep F serverfd) .init events)
    (heard : Heard F serverfd events plate obs) (nonempty : plate.length ≠ 0) :
    obs ∈ recorded (serverOperations F serverfd events) plate obs.road := by
  obtain ⟨past, middle, fd, client, delivery, ⟨rest, rfl⟩, ranPast, connected, delivered,
    reports⟩ := heard
  obtain ⟨obeyed, entries⟩ := run_obeyed (orderly.of_append ranPast).1 ranPast
  obtain ⟨other, followed, noted⟩ := obeyed.connected fd client connected
  obtain rfl : delivery = other := Option.some.inj (delivered.symm.trans followed.delivered)
  obtain ⟨seen, camera, asked, rfl, rfl⟩ := mem_orders_of_reports followed.identity reports
  rw [← noted] at asked
  have operated := entry_of_mem_journal asked
  rw [← entries] at operated
  have early : observationOf seen camera ∈
      recorded (serverOperations F serverfd past) seen.plate camera.road :=
    List.mem_filterMap.mpr
      ⟨_, List.mem_of_mem_filter operated, if_pos ⟨rfl, rfl, nonempty⟩⟩
  have grown : serverOperations F serverfd (past ++ rest) = serverOperations F serverfd past ++ _ :=
    emissions_append ranPast
  rw [grown, recorded_append]
  exact List.mem_append_left _ early

/-- The call of an operation adds what the operation records. -/
theorem accepted_callOn (plate : Bytes) (road : UInt16) (operation : Operation) :
    accepted plate road (operation.callOn plate) = recorded [operation] plate road := by
  cases operation with
  | addObservation seen camera =>
      by_cases own : seen.plate = plate ∧ plate.length ≠ 0
      · by_cases here : camera.road = road <;>
          simp [Operation.callOn, accepted, observed, recorded, own, here, observationOf]
      · have foreign : ¬ (seen.plate = plate ∧ camera.road = road ∧ plate.length ≠ 0) :=
          fun all => own ⟨all.1, all.2.2⟩
        simp only [Operation.callOn, if_neg own, recorded, List.filterMap_cons, if_neg foreign]
        rfl
  | addDispatcher disp | removeDispatcher disp | dispatchTicketsQueue sends => rfl

/-- The calls on the car of a plate add what the operations record for it. -/
theorem accepted_plateCalls (plate : Bytes) (road : UInt16) (operations : List Operation) :
    accepted plate road (plateCalls plate operations) = recorded operations plate road := by
  induction operations with
  | nil => rfl
  | cons operation operations ih =>
      rw [plateCalls, List.flatMap_cons, accepted_append, accepted_callOn, ← plateCalls, ih,
        ← recorded_append, List.singleton_append]

/-- After a run the car of a plate holds what the messages recorded for it. -/
theorem mem_stored_iff {plate : Bytes} {road : UInt16} {obs : Observation}
    (ran : run (eventStep F serverfd) .init events = some state) :
    obs ∈ ((state.world.cars.carOf plate).observationsmap road).getD [] ↔
      obs ∈ recorded (serverOperations F serverfd events) plate road := by
  have held := (server_keeps ran plate).holds road
  rw [accepted_plateCalls] at held
  rw [← Multiset.mem_coe, held, Multiset.mem_coe]

/-- Two observations are neighbours when no other lies between their timestamps. -/
theorem InOrder.neighbours {observations : List Observation} {obs1 obs2 : Observation}
    (sorted : InOrder observations) (first : obs1 ∈ observations) (second : obs2 ∈ observations)
    (before : obs1.timestamp.toNat < obs2.timestamp.toNat)
    (between : ∀ obs ∈ observations, obs1.timestamp.toNat ≤ obs.timestamp.toNat →
      obs.timestamp.toNat ≤ obs2.timestamp.toNat → obs = obs1 ∨ obs = obs2) :
    ∃ front back, observations = front ++ obs1 :: obs2 :: back := by
  induction observations with
  | nil => cases first
  | cons obs observations ih =>
      obtain ⟨least, rest⟩ := List.pairwise_cons.mp sorted
      have secondLater : obs2 ∈ observations := by
        rcases List.mem_cons.mp second with rfl | later
        · rcases List.mem_cons.mp first with rfl | firstLater
          · exact absurd before (Nat.lt_irrefl _)
          · exact absurd before (Nat.not_lt.mpr (least obs1 firstLater))
        · exact later
      by_cases firstLater : obs1 ∈ observations
      · obtain ⟨front, back, rfl⟩ := ih rest firstLater secondLater fun obs member =>
          between obs (List.mem_cons_of_mem _ member)
        exact ⟨obs :: front, back, rfl⟩
      · obtain rfl : obs1 = obs := (List.mem_cons.mp first).resolve_right firstLater
        cases observations with
        | nil => cases secondLater
        | cons next observations =>
            -- The next one is no later than the second, so it is the second.
            have upTo : next.timestamp.toNat ≤ obs2.timestamp.toNat := by
              rcases List.mem_cons.mp secondLater with rfl | later
              · exact Nat.le_refl _
              · exact (List.pairwise_cons.mp rest).1 obs2 later
            rcases between next (by simp) (least next List.mem_cons_self) upTo with rfl | rfl
            · exact absurd List.mem_cons_self firstLater
            · exact ⟨[], observations, rfl⟩

/-- The car holds two reports as neighbours when none of a time between them is recorded. -/
theorem stored_neighbours {plate : Bytes} {obs1 obs2 : Observation}
    (orderly : EachStep (Orderly serverfd) (eventStep F serverfd) .init events)
    (ran : run (eventStep F serverfd) .init events = some state) (nonempty : plate.length ≠ 0)
    (heard1 : Heard F serverfd events plate obs1) (heard2 : Heard F serverfd events plate obs2)
    (sameRoad : obs2.road = obs1.road) (before : obs1.timestamp.toNat < obs2.timestamp.toNat)
    (between : ∀ obs ∈ recorded (serverOperations F serverfd events) plate obs1.road,
      obs1.timestamp.toNat ≤ obs.timestamp.toNat → obs.timestamp.toNat ≤ obs2.timestamp.toNat →
        obs = obs1 ∨ obs = obs2) :
    ∃ front back, (state.world.cars.carOf plate).observationsmap obs1.road =
      some (front ++ obs1 :: obs2 :: back) := by
  have first := (mem_stored_iff ran).mpr (recorded_of_heard orderly heard1 nonempty)
  have second := (mem_stored_iff ran).mpr (recorded_of_heard orderly heard2 nonempty)
  have only := fun obs inside => between obs ((mem_stored_iff ran).mp inside)
  rw [sameRoad] at second
  cases stored : (state.world.cars.carOf plate).observationsmap obs1.road with
  | none =>
      rw [stored] at first
      cases first
  | some observations =>
      rw [stored] at first second only
      obtain ⟨front, back, rfl⟩ :=
        ((server_keeps ran plate).sorted _ _ stored).neighbours first second before only
      exact ⟨front, back, rfl⟩

end Arithmetic

/-- In every orderly run each ticket, sent or waiting, is for two observations on its road that
cameras have reported in the bytes of their connections: there is a message in which the camera
said where it is, and behind it one that the plate was seen, at the miles and the times of the
ticket, and faster than this camera allows. -/
theorem server_tickets_reported {serverfd : SocketFd} {events : List Event} {server : ServerState}
    (orderly : EachStep (Orderly serverfd) (eventStep ℚ serverfd) .init events)
    (ran : run (eventStep ℚ serverfd) .init events = some server) :
    ∀ ticket ∈ server.world.tickets.all, ∃ obs1 obs2,
      (obs1.road = ticket.road ∧ Reported serverfd events ticket.plate obs1) ∧
      (obs2.road = ticket.road ∧ Reported serverfd events ticket.plate obs2) ∧
        JustifiedBy ticket obs1 obs2 := by
  intro ticket issued
  obtain ⟨obs1, first, obs2, second, justified⟩ := server_recorded ran issued
  exact ⟨obs1, obs2, reported_of_recorded orderly ran first,
    reported_of_recorded orderly ran second, justified⟩

theorem server_tickets_reported_speeding :
    ∃ obs1 obs2,
      (obs1.road = 1 ∧ Reported 3 speedingEvents [65] obs1) ∧
      (obs2.road = 1 ∧ Reported 3 speedingEvents [65] obs2) ∧
        JustifiedBy ⟨[65], 1, 0, 0, 80, 3600, 8000⟩ obs1 obs2 := by
  have ran : (run (eventStep ℚ 3) .init speedingEvents).map
      (fun server => server.world.tickets.all) = some [⟨[65], 1, 0, 0, 80, 3600, 8000⟩] := by
    decide +kernel
  obtain ⟨server, ranEq, all⟩ := Option.map_eq_some_iff.mp ran
  exact server_tickets_reported orderly_speeding ranEq ⟨[65], 1, 0, 0, 80, 3600, 8000⟩
    (by rw [all]; exact List.mem_singleton_self _)

section Arithmetic

variable {F : Type} [F64 F] {serverfd : SocketFd} {events : List Event} {server : ServerState}

/-- When, in an orderly run, connected cameras have reported a plate twice on one road, too fast
and with no other observation recorded of a time between these two, the day of the first report
is recorded for the plate; and unless some call has stranded a day, there is a ticket of the plate
on that day. -/
theorem server_tickets_speeders {plate : Bytes} {obs1 obs2 : Observation}
    (orderly : EachStep (Orderly serverfd) (eventStep F serverfd) .init events)
    (ran : run (eventStep F serverfd) .init events = some server) (nonempty : plate.length ≠ 0)
    (heard1 : Heard F serverfd events plate obs1) (heard2 : Heard F serverfd events plate obs2)
    (sameRoad : obs2.road = obs1.road) (before : obs1.timestamp.toNat < obs2.timestamp.toNat)
    (between : ∀ obs ∈ recorded (serverOperations F serverfd events) plate obs1.road,
      obs1.timestamp.toNat ≤ obs.timestamp.toNat → obs.timestamp.toNat ≤ obs2.timestamp.toNat →
        obs = obs1 ∨ obs = obs2)
    (violates : Violates F obs1 obs2 = true) :
    dateKey obs1.timestamp ∈ (server.world.cars.carOf plate).tickets ∧
      (EachStep (NeverStrandsDay F) (carStep F) (Car.init plate, .empty)
          (plateCalls plate (serverOperations F serverfd events)) →
        ∃ ticket ∈ server.world.tickets.all, ticket.plate = plate ∧
          day obs1.timestamp ∈ ticket.days) := by
  obtain ⟨front, back, stored⟩ :=
    stored_neighbours orderly ran nonempty heard1 heard2 sameRoad before between
  exact server_notices ran stored violates

end Arithmetic

/-- The two cameras of the speeding car are heard, and there is a ticket of its day. -/
theorem server_tickets_speeders_speeding :
    ∃ server, run (eventStep ℚ 3) .init speedingEvents = some server ∧
      ∃ ticket ∈ server.world.tickets.all, ticket.plate = [65] ∧ 0 ∈ ticket.days := by
  have ran : (run (eventStep ℚ 3) .init speedingEvents).map
      (fun server => (server.clients.map 5).isSome && (server.clients.map 6).isSome) =
        some true := by decide +kernel
  obtain ⟨server, ranEq, connected⟩ := Option.map_eq_some_iff.mp ran
  obtain ⟨connected5, connected6⟩ := Bool.and_eq_true_iff.mp connected
  have heard : ∀ (fd : SocketFd) (position : IAmCamera) (seen : Plate),
      (server.clients.map fd).isSome = true →
        (run deliverStep .empty (arrivalsOf 3 fd speedingEvents)).map Delivery.delivered =
          some [.camera position, .plate seen] →
            Heard ℚ 3 speedingEvents seen.plate (observationOf seen (cameraAt fd position)) := by
    intro fd position seen connected arrived
    obtain ⟨client, found⟩ := Option.isSome_iff_exists.mp connected
    obtain ⟨delivery, delivered, msgs⟩ := Option.map_eq_some_iff.mp arrived
    refine ⟨_, server, fd, client, delivery, List.prefix_rfl, ranEq, found, delivered, ?_⟩
    exact ⟨position, seen, [.camera position], [], msgs, List.mem_singleton_self _, rfl, rfl⟩
  have strandsNone : EachStep (NeverStrandsDay ℚ) (carStep ℚ) (Car.init [65], .empty)
      (plateCalls [65] (serverOperations ℚ 3 speedingEvents)) := by decide +kernel
  obtain ⟨-, ticketed⟩ := server_tickets_speeders orderly_speeding ranEq (by decide)
    (heard 5 ⟨1, 0, 60⟩ ⟨[65], 0⟩ connected5 (by decide +kernel))
    (heard 6 ⟨1, 80, 60⟩ ⟨[65], 3600⟩ connected6 (by decide +kernel)) rfl (by decide +kernel)
    (by decide +kernel) (by decide +kernel)
  exact ⟨server, ranEq, ticketed strandsNone⟩

end NetworkExercises.SpeedDaemon
