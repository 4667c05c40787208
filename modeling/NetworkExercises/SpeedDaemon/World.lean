/-
Module: NetworkExercises.SpeedDaemon.World
Purpose: The state that all handlers share, under the operations of
  `6-speed-daemon/logic.zig` in any order, and under any number of handlers that
  each owe a pass after they append or register.
Main exports: World, Operation, worldStep, Station, Station.Step
-/
import NetworkExercises.SpeedDaemon.Dispatch

namespace NetworkExercises.SpeedDaemon

open Lib

/-! ### Operations in any order -/

/-- The cars, the roads, the queue, and what was written to the sockets. -/
structure World where
  cars : Cars
  roads : Roads
  tickets : TicketsQueue
  net : Net

/-- The world at the start of the program. -/
def World.empty : World := ⟨.empty, .empty, .empty, fun _ => []⟩

/-- The operations of the handlers on the shared state. -/
inductive Operation where
  | addObservation (seen : Plate) (cam : Camera)
  | addDispatcher (disp : Dispatcher)
  | removeDispatcher (disp : Dispatcher)
  | dispatchTicketsQueue (sends : Nat → Sending)

/-- Leave a pass with the queue and the sockets as it left them. -/
def World.afterPass (world : World) (pass : Pass) : World :=
  { world with tickets := pass.tickets, net := pass.net }

/-- One operation.  A refused observation changes nothing, a pass that a failing
send aborts keeps what it has done, and a trap ends the run. -/
def worldStep (F : Type) [F64 F] (world : World) : Operation → Option World
  | .addObservation seen cam =>
      match observe F world.cars world.tickets seen cam with
      | .ok (cars, tickets, _) => some { world with cars := cars, tickets := tickets }
      | .error (.error _) => some world
      | .error .trap => none
  | .addDispatcher disp => some { world with roads := world.roads.addDispatcher disp }
  | .removeDispatcher disp =>
      some { world with roads := world.roads.removeDispatcher disp }
  | .dispatchTicketsQueue sends =>
      match dispatchTicketsQueue world.roads sends
          ⟨world.tickets, BoundedArray.clear, world.net⟩ with
      | .done pass => some (world.afterPass pass)
      | .raised _ pass => some (world.afterPass pass)
      | .trap => none

/-! ### Handlers that owe a pass -/

/-- The roads, the queue and the sockets, and which handlers still owe a pass. -/
structure Station (ι : Type) where
  roads : Roads
  tickets : TicketsQueue
  net : Net
  owes : ι → Prop

variable {ι : Type} [DecidableEq ι]

/-- Nothing registered, nothing queued, nothing owed. -/
def Station.empty : Station ι := ⟨.empty, .empty, fun _ => [], fun _ => False⟩

/-- One step of one handler. -/
inductive Station.Step : Station ι → Station ι → Prop where
  | append (station : Station ι) (handler : ι) (tickets : List Ticket)
      (nonempty : tickets ≠ []) :
      Step station
        { station with
          tickets := station.tickets.appendAll tickets
          owes := Function.update station.owes handler True }
  | register (station : Station ι) (handler : ι) (disp : Dispatcher) :
      Step station
        { station with
          roads := station.roads.addDispatcher disp
          owes := Function.update station.owes handler True }
  | pass (station : Station ι) (handler : ι) (sends : Nat → Sending) (pass : Pass)
      (done : dispatchTicketsQueue station.roads sends
        ⟨station.tickets, BoundedArray.clear, station.net⟩ = .done pass) :
      Step station
        { station with
          tickets := pass.tickets
          net := pass.net
          owes := Function.update station.owes handler False }
  | unregister (station : Station ι) (disp : Dispatcher) :
      Step station { station with roads := station.roads.removeDispatcher disp }

/-- The states that some interleaving of the handlers' steps leads to. -/
def Station.Reachable (station : Station ι) : Prop :=
  Relation.ReflTransGen Station.Step Station.empty station

end NetworkExercises.SpeedDaemon
