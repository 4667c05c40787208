/-
Module: NetworkExercises.SpeedDaemon.Cars
Purpose: Observations, cars and the ticket queue of `6-speed-daemon/logic.zig`:
  how a plate seen by a camera leads to tickets.
Main exports: F64, TicketsQueue, Car, addObservation, Cars
-/
import NetworkExercises.SpeedDaemon.Messages
import NetworkExercises.SpeedDaemon.Time

namespace NetworkExercises.SpeedDaemon

open Lib Checked

/-- `types.socketfd`. -/
abbrev SocketFd := Nat

/-- The operations on `f64` that the ticket logic uses.  The development holds
for any of them; `F64 ℚ` computes without rounding. -/
class F64 (F : Type) where
  floatFromInt : Nat → F
  literal : ℚ → F
  add : F → F → F
  mul : F → F → F
  div : F → F → F
  le : F → F → Bool
  /-- `@as(u16, @intFromFloat(value))`; `none` where the program traps. -/
  intFromFloat : F → Option UInt16

/-- A rational number without its fraction. -/
def truncate (value : ℚ) : Int := if 0 ≤ value then ⌊value⌋ else ⌈value⌉

instance : F64 ℚ where
  floatFromInt := Nat.cast
  literal := id
  add := (· + ·)
  mul := (· * ·)
  div := (· / ·)
  le left right := decide (left ≤ right)
  intFromFloat value :=
    if 0 ≤ truncate value ∧ truncate value < 65536 then
      some (UInt16.ofNat (truncate value).toNat)
    else none

/-- The errors of the ticket logic and of the message handler.  `system` is an
error of the operating system, known by its name only. -/
inductive ServerError where
  | clientClosedConnection
  | unexpectedMessageType
  | clientAlreadyIdentified
  | timerAlreadyExists
  | clientNotIdentifiedAsCamera
  | typeAlreadySet
  | emptyPlate
  | messageWrongType
  | alreadyHasTimer
  | plateMismatch
  | noSpaceLeft
  | overflow
  | notEnoughBytes
  | invalidMessageType
  | unexpectedMessage
  | system (errorName : String)
deriving DecidableEq, Repr

structure Camera where
  fd : SocketFd
  road : UInt16
  mile : UInt16
  speedLimit : UInt16
deriving DecidableEq, Repr

/-- `messages.timestamp_to_date`. -/
def timestampToDate (timestamp : UInt32) : Time.DateTime :=
  Time.initUnix timestamp.toNat

/-- An observation always carries the date of its own timestamp. -/
structure Observation where
  timestamp : UInt32
  datestamp : Time.DateTime
  road : UInt16
  mile : UInt16
  speedLimit : UInt16
  dated : datestamp = timestampToDate timestamp
deriving DecidableEq

/-- The observation `o` that a call of `addObservation` records. -/
def observationOf (seen : Plate) (cam : Camera) : Observation :=
  { timestamp := seen.timestamp
    datestamp := timestampToDate seen.timestamp
    road := cam.road
    mile := cam.mile
    speedLimit := cam.speedLimit
    dated := rfl }

/-- A day of the calendar as the program spells it. -/
abbrev DateKey := List Char

/-- `TicketsQueue`.  Only tickets are ever queued.  The last two fields are
histories that the program does not keep: every ticket ever put into the queue,
and every ticket whose send succeeded, with its receiver. -/
structure TicketsQueue where
  queue : List Ticket
  appended : List Ticket
  sent : List (SocketFd × Ticket)
deriving DecidableEq

def TicketsQueue.empty : TicketsQueue := ⟨[], [], []⟩

def TicketsQueue.append (self : TicketsQueue) (ticket : Ticket) : TicketsQueue :=
  { self with
    queue := self.queue ++ [ticket]
    appended := self.appended ++ [ticket] }

/-- Put several tickets into the queue, one after the other. -/
def TicketsQueue.appendAll (self : TicketsQueue) (tickets : List Ticket) : TicketsQueue :=
  tickets.foldl TicketsQueue.append self

@[simp] theorem TicketsQueue.appendAll_nil (self : TicketsQueue) :
    self.appendAll [] = self := rfl

theorem TicketsQueue.appendAll_cons (self : TicketsQueue) (ticket : Ticket)
    (tickets : List Ticket) :
    self.appendAll (ticket :: tickets) = (self.append ticket).appendAll tickets := rfl

theorem TicketsQueue.appendAll_append (self : TicketsQueue) (front back : List Ticket) :
    self.appendAll (front ++ back) = (self.appendAll front).appendAll back :=
  List.foldl_append

theorem TicketsQueue.appendAll_eq (self : TicketsQueue) (tickets : List Ticket) :
    self.appendAll tickets =
      { self with
        queue := self.queue ++ tickets
        appended := self.appended ++ tickets } := by
  induction tickets generalizing self with
  | nil => simp
  | cons ticket tickets ih => simp [appendAll_cons, ih, append]

structure Car where
  plate : Bytes
  tickets : Finset DateKey
  observationsmap : UInt16 → Option (List Observation)

def Car.init (plate : Bytes) : Car := ⟨plate, ∅, fun _ => none⟩

/-- `getDateKey` into a buffer with `room` bytes. -/
def getDateKey (datestamp : Time.DateTime) (room : Nat) : Checked ServerError DateKey :=
  let text := Time.formatDate datestamp
  if text.length ≤ room then .ok text else fail .noSpaceLeft

/-- `Observation.lessThan`. -/
def Observation.lessThan (a b : Observation) : Bool := a.timestamp < b.timestamp

/-- `std.sort.block` with `lessThan`, a stable sort. -/
def sortObservations (observations : List Observation) : List Observation :=
  observations.insertionSort fun a b => ¬ b.lessThan a

/-- What the loop of `addObservation` works on: the days of the car's tickets,
the queue, and the number of tickets so far. -/
structure Scan where
  tickets : Finset DateKey
  queue : TicketsQueue
  count : Nat

section Arithmetic

variable (F : Type) [F64 F]

/-- `time_diff_hours`. -/
def timeDiffHours (timeDiffSec : Nat) : F :=
  F64.div (F64.floatFromInt timeDiffSec) (F64.literal 3600)

/-- `distance`. -/
def distance (mile1 mile2 : UInt16) : F :=
  F64.floatFromInt
    (if mile2 > mile1 then mile2.toNat - mile1.toNat else mile1.toNat - mile2.toNat)

/-- One turn of the loop, on the pair `obs1`, `obs2`. -/
def scanPair (plate : Bytes) (road : UInt16) (obs1 obs2 : Observation) (scan : Scan) :
    Checked ServerError Scan := do
  let timeDiffSec ← subtract obs2.timestamp.toNat obs1.timestamp.toNat
  let hours := timeDiffHours F timeDiffSec
  if F64.le hours (F64.literal 0.001) then .ok scan
  else
    let speed := F64.div (distance F obs1.mile obs2.mile) hours
    if F64.le speed (F64.add (F64.floatFromInt obs1.speedLimit.toNat) (F64.literal 0.5))
    then .ok scan
    else do
      let dateKey1 ← getDateKey obs1.datestamp 1024
      if dateKey1 ∈ scan.tickets then .ok scan
      else do
        let tickets := insert dateKey1 scan.tickets
        let dateKey2 ← getDateKey obs2.datestamp 512
        if dateKey1 ≠ dateKey2 ∧ dateKey2 ∈ tickets then
          -- The mark for the first day stays.
          .ok { scan with tickets := tickets }
        else
          let tickets :=
            if dateKey1 ≠ dateKey2 then insert dateKey2 tickets else tickets
          match F64.intFromFloat (F64.add (F64.mul speed (F64.literal 100))
              (F64.literal 0.5)) with
          | none => trap
          | some speed =>
              let ticket : Ticket :=
                { plate := plate
                  road := road
                  mile1 := obs1.mile
                  timestamp1 := obs1.timestamp
                  mile2 := obs2.mile
                  timestamp2 := obs2.timestamp
                  speed := speed }
              .ok
                { tickets := tickets
                  queue := scan.queue.append ticket
                  count := scan.count + 1 }

/-- The loop of `addObservation` over the adjacent pairs. -/
def scanPairs (plate : Bytes) (road : UInt16) :
    List Observation → Scan → Checked ServerError Scan
  | obs1 :: obs2 :: rest, scan => do
      let scan ← scanPair F plate road obs1 obs2 scan
      scanPairs plate road (obs2 :: rest) scan
  | _, scan => .ok scan

/-- `Car.addObservation`: the car, the queue it appends to, and the number of
tickets it returns. -/
def Car.addObservation (self : Car) (queue : TicketsQueue) (message : Message)
    (cam : Camera) : Checked ServerError (Car × TicketsQueue × Nat) :=
  match message with
  | .plate seen =>
      if seen.plate.length = 0 then fail .emptyPlate
      else if self.plate.length = 0 then fail .emptyPlate
      else if seen.plate ≠ self.plate then fail .plateMismatch
      else
        let o := observationOf seen cam
        match self.observationsmap cam.road with
        | none =>
            -- The first observation of a road has nothing to pair with.
            .ok ({ self with
              observationsmap := Function.update self.observationsmap cam.road [o] },
              queue, 0)
        | some observations => do
            let observations := sortObservations (observations ++ [o])
            let scan ← scanPairs F self.plate cam.road observations
              ⟨self.tickets, queue, 0⟩
            .ok ({ self with
              tickets := scan.tickets
              observationsmap :=
                Function.update self.observationsmap cam.road observations },
              scan.queue, scan.count)
  | _ => fail .messageWrongType

end Arithmetic

/-- `Cars`: every car is stored under its own plate. -/
structure Cars where
  map : Bytes → Option Car
  keyed : ∀ plate car, map plate = some car → car.plate = plate

namespace Cars

def empty : Cars := ⟨fun _ => none, nofun⟩

/-- Store a car under its plate. -/
def put (self : Cars) (car : Car) : Cars where
  map := Function.update self.map car.plate car
  keyed := by
    intro plate found stored
    by_cases same : plate = car.plate
    · subst same
      rw [Function.update_self, Option.some.injEq] at stored
      rw [← stored]
    · rw [Function.update_of_ne same] at stored
      exact self.keyed plate found stored

@[simp] theorem put_map (self : Cars) (car : Car) :
    (self.put car).map = Function.update self.map car.plate car := rfl

/-- `Cars.getOrPut`. -/
def getOrPut (self : Cars) (plate : Bytes) : Checked ServerError (Cars × Car) :=
  if plate.length = 0 then fail .emptyPlate
  else
    match self.map plate with
    | some car => .ok (self, car)
    | none => .ok (self.put (Car.init plate), Car.init plate)

end Cars

/-- The block of the prong `.Plate` of `handleMessages` under the cars' mutex: find
the car and add the observation to it. -/
def observe (F : Type) [F64 F] (cars : Cars) (queue : TicketsQueue) (seen : Plate)
    (cam : Camera) : Checked ServerError (Cars × TicketsQueue × Nat) := do
  let (cars, car) ← cars.getOrPut seen.plate
  let (car, queue, ntickets) ← car.addObservation F queue (.plate seen) cam
  .ok (cars.put car, queue, ntickets)

end NetworkExercises.SpeedDaemon
