/-
Module: NetworkExercises.SpeedDaemon.Dispatch
Purpose: Roads and dispatchers of `6-speed-daemon/logic.zig`, and the pass over
  the ticket queue that sends tickets to dispatchers.
Main exports: Net, writeAll, Roads, Sending, dispatchTicketsQueue
-/
import NetworkExercises.SpeedDaemon.Cars

namespace NetworkExercises.SpeedDaemon

open Lib

/-! ### Sockets -/

/-- The bytes written to each socket so far. -/
abbrev Net := SocketFd → Bytes

/-- How a `writeAll` ends: with everything written, or with an error after some
of the bytes. -/
inductive WriteResult where
  | all
  | failed (count : Nat) (errorName : String)
deriving DecidableEq, Repr

/-- `std.net.Stream.writeAll`. -/
def writeAll (fd : SocketFd) (bytes : Bytes) (written : WriteResult) (net : Net) :
    Outcome ServerError Net :=
  match written with
  | .all => .done (Function.update net fd (net fd ++ bytes))
  | .failed count errorName =>
      .raised (.system errorName) (Function.update net fd (net fd ++ bytes.take count))

/-- The errors of the encoder, returned by its callers. -/
def EncodeError.toServerError : EncodeError → ServerError
  | .overflow => .overflow
  | .notEnoughBytes => .notEnoughBytes

/-! ### Roads -/

structure Dispatcher where
  fd : SocketFd
  roads : List UInt16
deriving DecidableEq, Repr

structure Road where
  dispatchers : Finset SocketFd

structure Roads where
  map : UInt16 → Option Road

namespace Roads

def empty : Roads := ⟨fun _ => none⟩

/-- `self.map.put`. -/
def put (self : Roads) (number : UInt16) (road : Road) : Roads :=
  ⟨Function.update self.map number road⟩

/-- One turn of the loop of `addDispatcher`. -/
def addTo (fd : SocketFd) (self : Roads) (number : UInt16) : Roads :=
  match self.map number with
  | some road => self.put number ⟨insert fd road.dispatchers⟩
  | none => self.put number ⟨{fd}⟩

/-- `Roads.addDispatcher`. -/
def addDispatcher (self : Roads) (disp : Dispatcher) : Roads :=
  disp.roads.foldl (addTo disp.fd) self

/-- One turn of the loop of `removeDispatcher`. -/
def removeFrom (fd : SocketFd) (self : Roads) (number : UInt16) : Roads :=
  match self.map number with
  | some road => self.put number ⟨road.dispatchers.erase fd⟩
  | none => self

/-- `Roads.removeDispatcher`. -/
def removeDispatcher (self : Roads) (disp : Dispatcher) : Roads :=
  disp.roads.foldl (removeFrom disp.fd) self

/-- The dispatchers of a road, none for a road that is not in the map. -/
def dispatchers (self : Roads) (number : UInt16) : Finset SocketFd :=
  match self.map number with
  | some road => road.dispatchers
  | none => ∅

/-- The road is in the map and has a dispatcher. -/
def deliverable (self : Roads) (ticket : Ticket) : Bool :=
  match self.map ticket.road with
  | some road => road.dispatchers.card != 0
  | none => false

end Roads

/-! ### The pass over the queue -/

/-- What the program does not determine about one send: the dispatcher that the
iterator of the set yields first, and how the write ends. -/
structure Sending where
  next : Finset SocketFd → SocketFd
  member : ∀ dispatchers, dispatchers.Nonempty → next dispatchers ∈ dispatchers
  written : WriteResult

/-- The state of a pass. -/
structure Pass where
  tickets : TicketsQueue
  buf : U8BoundedArray
  net : Net

/-- `Dispatcher.sendTicket`. -/
def sendTicket (fd : SocketFd) (ticket : Message) (written : WriteResult) (pass : Pass) :
    Outcome ServerError Pass :=
  if ticket.type ≠ .ticket then .raised .messageWrongType pass
  else
    match hostToNetwork ticket pass.buf with
    | .error error => .raised error.toServerError pass
    | .ok buf =>
        (writeAll fd buf.items written pass.net).map fun net =>
          { pass with buf := buf, net := net }

/-- Note a ticket as sent. -/
def TicketsQueue.noteSent (self : TicketsQueue) (fd : SocketFd) (ticket : Ticket) :
    TicketsQueue :=
  { self with sent := self.sent ++ [(fd, ticket)] }

/-- `self.queue.remove(delete)`, for the node that the scan found. -/
def TicketsQueue.removeFirst (self : TicketsQueue) (roads : Roads) : TicketsQueue :=
  { self with queue := self.queue.eraseP roads.deliverable }

/-- The `for` loop of `dispatchTicketsQueue`, with the turns that are left and
the number of turns taken. -/
def dispatchLoop (roads : Roads) (sends : Nat → Sending) :
    (left taken : Nat) → Pass → Outcome ServerError Pass
  | 0, _, pass => .done pass
  | left + 1, taken, pass =>
      match pass.tickets.queue.find? roads.deliverable with
      | none => .done pass
      | some ticket =>
          let disp := (sends taken).next (roads.dispatchers ticket.road)
          let cleared := { pass with buf := BoundedArray.clear }
          (sendTicket disp (.ticket ticket) (sends taken).written cleared).andThen
            fun pass => dispatchLoop roads sends left (taken + 1)
              { pass with
                tickets := (pass.tickets.noteSent disp ticket).removeFirst roads }

/-- `TicketsQueue.dispatchTicketsQueue`. -/
def dispatchTicketsQueue (roads : Roads) (sends : Nat → Sending) (pass : Pass) :
    Outcome ServerError Pass :=
  if pass.tickets.queue.length = 0 then .done pass
  else dispatchLoop roads sends pass.tickets.queue.length 0 pass

end NetworkExercises.SpeedDaemon
