/-
Module: NetworkExercises.SpeedDaemon.Proofs.Scan
Purpose: What one call of `addObservation` does to the days of a car and to the
  queue, as entries in a book of days.
Main exports: dateKey, Violates, violations, scanPair_cases, scanPairs_enters
-/
import NetworkExercises.Lib.Ledger
import NetworkExercises.SpeedDaemon.Cars
import NetworkExercises.SpeedDaemon.Proofs.Calendar

namespace NetworkExercises.SpeedDaemon

open Lib Checked

/-! ### The day of an observation -/

/-- The text of the day of a timestamp. -/
def dateKey (timestamp : UInt32) : DateKey :=
  Time.formatDate (timestampToDate timestamp)

/-- The days of a timestamp, counted from the epoch. -/
def day (timestamp : UInt32) : Nat := timestamp.toNat / 86400

theorem dateKey_eq_iff (left right : UInt32) :
    dateKey left = dateKey right ↔ day left = day right :=
  Time.formatDate_initUnix_eq_iff _ _

/-- The buffers are large enough for the text of every day. -/
theorem getDateKey_eq (obs : Observation) {room : Nat} (enough : 16 ≤ room) :
    getDateKey obs.datestamp room = .ok (dateKey obs.timestamp) := by
  have short : (dateKey obs.timestamp).length ≤ 16 :=
    Time.formatDate_initUnix_length obs.timestamp.toNat_lt
  rw [getDateKey, obs.dated]
  exact if_pos (short.trans enough)

/-- The two days of a ticket. -/
def Ticket.keys (ticket : Ticket) : DateKey × DateKey :=
  (dateKey ticket.timestamp1, dateKey ticket.timestamp2)

/-! ### One turn of the loop -/

section Arithmetic

variable (F : Type) [F64 F]

/-- The speed between two observations, in miles per hour. -/
def speedBetween (obs1 obs2 : Observation) : F :=
  F64.div (distance F obs1.mile obs2.mile)
    (timeDiffHours F (obs2.timestamp.toNat - obs1.timestamp.toNat))

/-- The pair is far enough apart in time and faster than the limit allows. -/
def Violates (obs1 obs2 : Observation) : Bool :=
  !F64.le (timeDiffHours F (obs2.timestamp.toNat - obs1.timestamp.toNat))
      (F64.literal 0.001) &&
    !F64.le (speedBetween F obs1 obs2)
      (F64.add (F64.floatFromInt obs1.speedLimit.toNat) (F64.literal 0.5))

/-- The speed as the ticket has it. -/
def ticketSpeed (obs1 obs2 : Observation) : Option UInt16 :=
  F64.intFromFloat (F64.add
    (F64.mul (speedBetween F obs1 obs2) (F64.literal 100)) (F64.literal 0.5))

/-- The ticket for a pair, at a given speed. -/
def ticketFor (plate : Bytes) (road : UInt16) (obs1 obs2 : Observation)
    (speed : UInt16) : Ticket :=
  { plate := plate
    road := road
    mile1 := obs1.mile
    timestamp1 := obs1.timestamp
    mile2 := obs2.mile
    timestamp2 := obs2.timestamp
    speed := speed }

/-- The days of a pair of observations. -/
def pairKeys (obs1 obs2 : Observation) : DateKey × DateKey :=
  (dateKey obs1.timestamp, dateKey obs2.timestamp)

/-- What a pair does to the scan. -/
inductive ScansTo (plate : Bytes) (road : UInt16) (obs1 obs2 : Observation)
    (scan : Scan) : Scan → Prop where
  /-- No violation: nothing happens. -/
  | lawful (slow : Violates F obs1 obs2 = false) :
      ScansTo plate road obs1 obs2 scan scan
  /-- A violation on a day that is taken: at most the first day is marked. -/
  | taken (fast : Violates F obs1 obs2 = true)
      (notFree : ¬ Free scan.tickets (pairKeys obs1 obs2)) :
      ScansTo plate road obs1 obs2 scan
        { scan with tickets := marked scan.tickets (pairKeys obs1 obs2) }
  /-- A violation on free days: a ticket. -/
  | issued (fast : Violates F obs1 obs2 = true)
      (free : Free scan.tickets (pairKeys obs1 obs2)) (speed : UInt16)
      (speedEq : ticketSpeed F obs1 obs2 = some speed) :
      ScansTo plate road obs1 obs2 scan
        { tickets := marked scan.tickets (pairKeys obs1 obs2)
          queue := scan.queue.append (ticketFor plate road obs1 obs2 speed)
          count := scan.count + 1 }

variable {F} {plate : Bytes} {road : UInt16} {obs1 obs2 : Observation} {scan scan' : Scan}

/-- A turn that does not trap does one of three things, and its pair was in
order. -/
theorem scanPair_cases (done : scanPair F plate road obs1 obs2 scan = .ok scan') :
    obs1.timestamp.toNat ≤ obs2.timestamp.toNat ∧
      ScansTo F plate road obs1 obs2 scan scan' := by
  unfold scanPair at done
  obtain ⟨timeDiffSec, diffEq, done⟩ := bind_eq_ok.mp done
  obtain ⟨ordered, rfl⟩ := subtract_eq_ok.mp diffEq
  refine ⟨ordered, ?_⟩
  simp only at done
  split at done
  · next close =>
    cases done
    exact .lawful (by simp [Violates, close])
  next far =>
  split at done
  · next slow =>
    cases done
    exact .lawful (by simp [Violates, speedBetween, slow])
  next fast =>
  have violates : Violates F obs1 obs2 = true := by
    simp [Violates, speedBetween, far, fast]
  rw [getDateKey_eq obs1 (by omega), getDateKey_eq obs2 (by omega), ok_bind] at done
  split at done
  · next first =>
    cases done
    have unmarked : marked scan.tickets (pairKeys obs1 obs2) = scan.tickets := if_pos first
    have result : ScansTo F plate road obs1 obs2 scan
        { scan with tickets := marked scan.tickets (pairKeys obs1 obs2) } :=
      .taken violates fun free => free.1 first
    rwa [unmarked] at result
  next first =>
  rw [ok_bind] at done
  split at done
  · next second =>
    cases done
    have strands : Strands scan.tickets (pairKeys obs1 obs2) := by
      refine ⟨first, ?_⟩
      rcases Finset.mem_insert.mp second.2 with same | before
      · exact absurd same.symm second.1
      · exact before
    have result : ScansTo F plate road obs1 obs2 scan
        { scan with tickets := marked scan.tickets (pairKeys obs1 obs2) } :=
      .taken violates fun free => free.2 strands.2
    rwa [marked_of_strands strands] at result
  next second =>
  have free : Free scan.tickets (pairKeys obs1 obs2) := by
    refine ⟨first, fun before => ?_⟩
    by_cases same : dateKey obs1.timestamp = dateKey obs2.timestamp
    · exact first (same ▸ before)
    · exact second ⟨same, Finset.mem_insert_of_mem before⟩
  split at done
  · cases done
  next speed speedEq =>
  cases done
  have tickets : (if dateKey obs1.timestamp ≠ dateKey obs2.timestamp then
      insert (dateKey obs2.timestamp) (insert (dateKey obs1.timestamp) scan.tickets)
      else insert (dateKey obs1.timestamp) scan.tickets) =
        marked scan.tickets (pairKeys obs1 obs2) := by
    rw [marked_of_free free]
    by_cases same : dateKey obs1.timestamp = dateKey obs2.timestamp
    · simp [pairKeys, same]
    · simp [pairKeys, same]
  rw [tickets]
  exact .issued violates free speed speedEq

/-- A turn returns no error: the buffers for the days are large enough. -/
theorem scanPair_unfailing (plate : Bytes) (road : UInt16) (obs1 obs2 : Observation)
    (scan : Scan) : Unfailing (scanPair F plate road obs1 obs2 scan) := by
  unfold scanPair
  refine (unfailing_subtract _ _).bind fun timeDiffSec _ => ?_
  simp only [getDateKey_eq obs1 (show 16 ≤ 1024 by omega),
    getDateKey_eq obs2 (show 16 ≤ 512 by omega), ok_bind]
  repeat' split
  all_goals first | exact unfailing_ok _ | exact unfailing_trap

/-! ### The whole loop -/

variable (F) in
/-- The days of the violations among the adjacent pairs, in order. -/
def violations : List Observation → List (DateKey × DateKey)
  | obs1 :: obs2 :: rest =>
      if Violates F obs1 obs2 then pairKeys obs1 obs2 :: violations (obs2 :: rest)
      else violations (obs2 :: rest)
  | _ => []

variable (F) in
/-- The ticket is for a violation among the observations. -/
def Justified (plate : Bytes) (road : UInt16) (observations : List Observation)
    (ticket : Ticket) : Prop :=
  ∃ obs1 ∈ observations, ∃ obs2 ∈ observations, ∃ speed,
    obs1.timestamp.toNat ≤ obs2.timestamp.toNat ∧ Violates F obs1 obs2 = true ∧
      ticketSpeed F obs1 obs2 = some speed ∧
      ticket = ticketFor plate road obs1 obs2 speed

theorem Justified.mono {observations more : List Observation} {ticket : Ticket}
    (subset : observations ⊆ more) (justified : Justified F plate road observations ticket) :
    Justified F plate road more ticket := by
  obtain ⟨obs1, first, obs2, second, rest⟩ := justified
  exact ⟨obs1, subset first, obs2, subset second, rest⟩

variable (F) in
/-- The loop went from `scan` to `scan'` by issuing `issued`. -/
structure Issues (plate : Bytes) (road : UInt16) (observations : List Observation)
    (scan scan' : Scan) (issued : List Ticket) : Prop where
  queue : scan'.queue = scan.queue.appendAll issued
  count : scan'.count = scan.count + issued.length
  justified : ∀ ticket ∈ issued, Justified F plate road observations ticket
  marks : ∀ book : Book DateKey, book.marks = scan.tickets →
    (book.enterAll (violations F observations)).marks = scan'.tickets
  tickets : ∀ book : Book DateKey, book.marks = scan.tickets →
    (book.enterAll (violations F observations)).issued =
      book.issued ++ issued.map Ticket.keys

/-- The loop issues tickets as a book of days does that is entered the
violations one by one. -/
theorem scanPairs_issues {observations : List Observation}
    (done : scanPairs F plate road observations scan = .ok scan') :
    ∃ issued, Issues F plate road observations scan scan' issued := by
  induction observations, scan using scanPairs.induct with
  | case1 obs1 obs2 rest scan ih =>
      rw [scanPairs] at done
      obtain ⟨middle, turn, done⟩ := bind_eq_ok.mp done
      obtain ⟨ordered, scans⟩ := scanPair_cases turn
      obtain ⟨issued, later⟩ := ih middle done
      have subset : obs2 :: rest ⊆ obs1 :: obs2 :: rest := List.subset_cons_self _ _
      have old : ∀ ticket ∈ issued, Justified F plate road (obs1 :: obs2 :: rest) ticket :=
        fun ticket member => (later.justified ticket member).mono subset
      cases scans with
      | lawful slow =>
          have same : violations F (obs1 :: obs2 :: rest) = violations F (obs2 :: rest) := by
            simp [violations, slow]
          exact ⟨issued, later.queue, later.count, old, same ▸ later.marks,
            same ▸ later.tickets⟩
      | taken fast notFree =>
          have entered : violations F (obs1 :: obs2 :: rest) =
              pairKeys obs1 obs2 :: violations F (obs2 :: rest) := by
            simp [violations, fast]
          refine ⟨issued, later.queue, later.count, old, ?_, ?_⟩
          · intro book marksEq
            rw [entered, Book.enterAll_cons]
            exact later.marks _ (by rw [Book.enter_marks, marksEq])
          · intro book marksEq
            rw [entered, Book.enterAll_cons, later.tickets _ (by
              rw [Book.enter_marks, marksEq]),
              Book.enter_issued_of_not_free (marksEq ▸ notFree)]
      | issued fast free speed speedEq =>
          have entered : violations F (obs1 :: obs2 :: rest) =
              pairKeys obs1 obs2 :: violations F (obs2 :: rest) := by
            simp [violations, fast]
          refine ⟨ticketFor plate road obs1 obs2 speed :: issued, ?_, ?_, ?_, ?_, ?_⟩
          · rw [later.queue, TicketsQueue.appendAll_cons]
          · rw [later.count, List.length_cons, Nat.add_assoc, Nat.add_comm 1]
          · intro ticket member
            rcases List.mem_cons.mp member with rfl | member
            · exact ⟨obs1, by simp, obs2, by simp, speed, ordered, fast, speedEq, rfl⟩
            · exact old ticket member
          · intro book marksEq
            rw [entered, Book.enterAll_cons]
            exact later.marks _ (by rw [Book.enter_marks, marksEq])
          · intro book marksEq
            rw [entered, Book.enterAll_cons, later.tickets _ (by
              rw [Book.enter_marks, marksEq]),
              Book.enter_issued_of_free (marksEq ▸ free), List.append_assoc]
            rfl
  | case2 observations scan short =>
      rw [scanPairs] at done
      · cases done
        have none : violations F observations = [] := by
          rw [violations]
          exact short
        exact ⟨[], by simp, rfl, by simp, by simp [none], by simp [none]⟩
      · exact short

theorem scanPairs_unfailing (plate : Bytes) (road : UInt16)
    (observations : List Observation) (scan : Scan) :
    Unfailing (scanPairs F plate road observations scan) := by
  induction observations, scan using scanPairs.induct with
  | case1 obs1 obs2 rest scan ih =>
      rw [scanPairs]
      exact (scanPair_unfailing plate road obs1 obs2 scan).bind fun middle _ => ih middle
  | case2 observations scan short =>
      rw [scanPairs]
      · exact unfailing_ok _
      · exact short

/-! ### One call -/

/-- The observations of the camera's road after a call. -/
def Car.observationsAfter (self : Car) (seen : Plate) (cam : Camera) : List Observation :=
  sortObservations ((self.observationsmap cam.road).getD [] ++ [observationOf seen cam])

/-- A call on the car's own plate is one scan of the camera's road; on the first
observation of a road it finds no pairs. -/
theorem addObservation_eq {car : Car} {queue : TicketsQueue} {seen : Plate} {cam : Camera}
    (own : seen.plate = car.plate) (nonempty : car.plate.length ≠ 0) :
    car.addObservation F queue (.plate seen) cam = (do
      let scan ← scanPairs F car.plate cam.road (car.observationsAfter seen cam)
        ⟨car.tickets, queue, 0⟩
      .ok ({ car with
        tickets := scan.tickets
        observationsmap := Function.update car.observationsmap cam.road
          (car.observationsAfter seen cam) }, scan.queue, scan.count)) := by
  rw [Car.addObservation, if_neg (own ▸ nonempty), if_neg nonempty, if_neg (by simpa using own)]
  cases recorded : car.observationsmap cam.road with
  | none =>
      have single : car.observationsAfter seen cam = [observationOf seen cam] := by
        rw [Car.observationsAfter, recorded]
        rfl
      rw [single, scanPairs]
      · rfl
      · simp
  | some observations =>
      simp only [Car.observationsAfter, recorded, Option.getD_some]

/-- A call on the own plate returns no error. -/
theorem addObservation_unfailing {car : Car} {queue : TicketsQueue} {seen : Plate}
    {cam : Camera} (own : seen.plate = car.plate) (nonempty : car.plate.length ≠ 0) :
    Unfailing (car.addObservation F queue (.plate seen) cam) := by
  rw [addObservation_eq own nonempty]
  exact (scanPairs_unfailing _ _ _ _).bind fun scan _ => unfailing_ok _

variable (F) in
/-- The days of the violations that a call meets. -/
def Car.violations (self : Car) (message : Message) (cam : Camera) :
    List (DateKey × DateKey) :=
  match message with
  | .plate seen =>
      if seen.plate = self.plate ∧ self.plate.length ≠ 0 then
        SpeedDaemon.violations F (self.observationsAfter seen cam)
      else []
  | _ => []

variable (F) in
/-- A call that records `seen` and issues `issued`. -/
structure Records (car : Car) (queue : TicketsQueue) (seen : Plate) (cam : Camera)
    (car' : Car) (queue' : TicketsQueue) (issued : List Ticket) : Prop where
  own : seen.plate = car.plate
  nonempty : car.plate.length ≠ 0
  plate : car'.plate = car.plate
  observations : car'.observationsmap =
    Function.update car.observationsmap cam.road (car.observationsAfter seen cam)
  queue : queue' = queue.appendAll issued
  justified : ∀ ticket ∈ issued,
    Justified F car.plate cam.road (car.observationsAfter seen cam) ticket
  marks : ∀ book : Book DateKey, book.marks = car.tickets →
    (book.enterAll (car.violations F (.plate seen) cam)).marks = car'.tickets
  tickets : ∀ book : Book DateKey, book.marks = car.tickets →
    (book.enterAll (car.violations F (.plate seen) cam)).issued =
      book.issued ++ issued.map Ticket.keys

/-- A call that returns has recorded one observation, and returns the number of
tickets that it issued. -/
theorem addObservation_ok {car car' : Car} {queue queue' : TicketsQueue}
    {message : Message} {cam : Camera} {count : Nat}
    (done : car.addObservation F queue message cam = .ok (car', queue', count)) :
    ∃ seen issued, message = .plate seen ∧ count = issued.length ∧
      Records F car queue seen cam car' queue' issued := by
  cases message with
  | plate seen =>
      obtain ⟨own, nonempty⟩ : seen.plate = car.plate ∧ car.plate.length ≠ 0 := by
        rw [Car.addObservation] at done
        split at done
        · cases done
        split at done
        · cases done
        next nonempty =>
        split at done
        · cases done
        next own => exact ⟨not_not.mp own, nonempty⟩
      rw [addObservation_eq own nonempty] at done
      obtain ⟨scan, scanEq, done⟩ := bind_eq_ok.mp done
      obtain ⟨issued, issues⟩ := scanPairs_issues scanEq
      cases done
      have met : car.violations F (.plate seen) cam =
          SpeedDaemon.violations F (car.observationsAfter seen cam) :=
        if_pos ⟨own, nonempty⟩
      refine ⟨seen, issued, rfl, by simpa using issues.count, own, nonempty, rfl, rfl,
        issues.queue, issues.justified, ?_, ?_⟩
      · rw [met]
        exact issues.marks
      · rw [met]
        exact issues.tickets
  | _ => cases done

/-- A call that returns an error met no violation: it is refused before anything
is recorded. -/
theorem addObservation_error {car : Car} {queue : TicketsQueue} {message : Message}
    {cam : Camera} {error : ServerError}
    (refused : car.addObservation F queue message cam = .error (.error error)) :
    car.violations F message cam = [] := by
  cases message with
  | plate seen =>
      by_cases own : seen.plate = car.plate ∧ car.plate.length ≠ 0
      · exact absurd refused (addObservation_unfailing own.1 own.2 error)
      · exact if_neg own
  | _ => rfl

/-! ### When a call traps -/

/-- A turn on a pair in order only traps when the speed of a violation does not fit
the ticket. -/
theorem scanPair_trap (ordered : obs1.timestamp.toNat ≤ obs2.timestamp.toNat)
    (trapped : scanPair F plate road obs1 obs2 scan = trap) :
    Violates F obs1 obs2 = true ∧ ticketSpeed F obs1 obs2 = none := by
  unfold scanPair at trapped
  rw [subtract_of_le ordered, ok_bind] at trapped
  simp only at trapped
  split at trapped
  · cases trapped
  next far =>
  split at trapped
  · cases trapped
  next fast =>
  rw [getDateKey_eq obs1 (by omega), getDateKey_eq obs2 (by omega), ok_bind] at trapped
  split at trapped
  · cases trapped
  rw [ok_bind] at trapped
  split at trapped
  · cases trapped
  split at trapped
  · next speedEq => exact ⟨by simp [Violates, speedBetween, far, fast], speedEq⟩
  · cases trapped

variable (F) in
/-- Some neighbours violate the limit at a speed that a ticket cannot hold. -/
def CastFails (observations : List Observation) : Prop :=
  ∃ front obs1 obs2 back, observations = front ++ obs1 :: obs2 :: back ∧
    Violates F obs1 obs2 = true ∧ ticketSpeed F obs1 obs2 = none

theorem scanPairs_trap {observations : List Observation}
    (sorted : observations.Pairwise fun a b => a.timestamp.toNat ≤ b.timestamp.toNat)
    (trapped : scanPairs F plate road observations scan = trap) :
    CastFails F observations := by
  induction observations, scan using scanPairs.induct with
  | case1 obs1 obs2 rest scan ih =>
      obtain ⟨first, others⟩ := List.pairwise_cons.mp sorted
      rw [scanPairs] at trapped
      cases turn : scanPair F plate road obs1 obs2 scan with
      | ok middle =>
          rw [turn, ok_bind] at trapped
          obtain ⟨front, a, b, back, split, fails⟩ := ih middle others trapped
          exact ⟨obs1 :: front, a, b, back, by rw [split, List.cons_append], fails⟩
      | error fault =>
          cases fault with
          | error error => exact absurd turn (scanPair_unfailing _ _ _ _ _ error)
          | trap => exact ⟨[], obs1, obs2, rest, rfl, scanPair_trap (first obs2 (by simp)) turn⟩
  | case2 observations scan short =>
      rw [scanPairs] at trapped
      · cases trapped
      · exact short

theorem not_lessThan {a b : Observation} :
    (¬ b.lessThan a = true) ↔ a.timestamp.toNat ≤ b.timestamp.toNat := by
  rw [Observation.lessThan, decide_eq_true_eq, UInt32.lt_iff_toNat_lt, not_lt]

/-- The observations are scanned in the order of their timestamps. -/
theorem observationsAfter_sorted (car : Car) (seen : Plate) (cam : Camera) :
    (car.observationsAfter seen cam).Pairwise
      fun a b => a.timestamp.toNat ≤ b.timestamp.toNat := by
  have total : Std.Total fun a b : Observation => ¬ b.lessThan a = true :=
    ⟨fun a b => by simpa only [not_lessThan] using Nat.le_total _ _⟩
  have transitive : IsTrans Observation fun a b => ¬ b.lessThan a = true :=
    ⟨fun a b c => by simpa only [not_lessThan] using Nat.le_trans⟩
  unfold Car.observationsAfter sortObservations
  apply (List.pairwise_insertionSort (fun a b : Observation => ¬ b.lessThan a = true) _).imp
  exact not_lessThan.mp

/-- A call on the own plate only traps when some speed does not fit its ticket. -/
theorem addObservation_trap {car : Car} {queue : TicketsQueue} {seen : Plate}
    {cam : Camera} (own : seen.plate = car.plate) (nonempty : car.plate.length ≠ 0)
    (trapped : car.addObservation F queue (.plate seen) cam = trap) :
    CastFails F (car.observationsAfter seen cam) := by
  rw [addObservation_eq own nonempty] at trapped
  cases scanned : scanPairs F car.plate cam.road (car.observationsAfter seen cam)
      ⟨car.tickets, queue, 0⟩ with
  | ok scan =>
      rw [scanned] at trapped
      cases trapped
  | error fault =>
      cases fault with
      | error error => exact absurd scanned (scanPairs_unfailing _ _ _ _ error)
      | trap => exact scanPairs_trap (observationsAfter_sorted car seen cam) scanned

end Arithmetic

end NetworkExercises.SpeedDaemon
