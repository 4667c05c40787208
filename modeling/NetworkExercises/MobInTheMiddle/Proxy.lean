/-
Module: NetworkExercises.MobInTheMiddle.Proxy
Purpose: The pairs of connections of `5-mob-in-the-middle/main.zig`, and the handler
  `handle_messge` that forwards what one of them sends to the other.
Main exports: ConnectionHashMap, Proxy, handleMessge
-/
import NetworkExercises.MobInTheMiddle.Boguscoin
import NetworkExercises.SpeedDaemon.Handler

namespace NetworkExercises.MobInTheMiddle

open Lib

-- The read loop and the sockets are those of the speed daemon.
open SpeedDaemon (SocketFd Net WriteResult Arrival readLoop)

/-! ### Pairs of connections -/

/-- `ConnectionHashMap`; a stream is its descriptor.  A fifo is read as a flat queue of bytes:
of a `LinearFifo` that has wrapped around, `readableSlice(0)` is only the contiguous part. -/
structure ConnectionHashMap where
  map : SocketFd → Option SocketFd
  streamfifomap : SocketFd → Option Bytes

namespace ConnectionHashMap

def init : ConnectionHashMap := ⟨fun _ => none, fun _ => none⟩

def add (self : ConnectionHashMap) (client upstream : SocketFd) : ConnectionHashMap where
  map := Function.update (Function.update self.map client upstream) upstream client
  streamfifomap := Function.update (Function.update self.streamfifomap client (some []))
    upstream (some [])

/-- `remove`, with its early returns. -/
def remove (self : ConnectionHashMap) (client : SocketFd) : ConnectionHashMap :=
  match self.map client with
  | none => self
  | some upstream =>
      let self : ConnectionHashMap :=
        { self with map := Function.update self.map client none }
      match self.streamfifomap client with
      | none => self
      | some _ =>
          let self : ConnectionHashMap :=
            { map := Function.update self.map upstream none
              streamfifomap := Function.update self.streamfifomap client none }
          match self.streamfifomap upstream with
          | none => self
          | some _ =>
              { self with streamfifomap := Function.update self.streamfifomap upstream none }

/-- What the handler leaves in the fifo of a stream. -/
def setFifo (self : ConnectionHashMap) (client : SocketFd) (fifo : Bytes) :
    ConnectionHashMap :=
  { self with streamfifomap := Function.update self.streamfifomap client (some fifo) }

end ConnectionHashMap

/-! ### Forwarding -/

/-- The pairs, and the bytes written to each socket so far. -/
structure Proxy where
  connections : ConnectionHashMap
  net : Net

/-- `upstream.writeAll`; an error is only logged. -/
def writeUpstream (upstream : SocketFd) (bytes : Bytes) (written : WriteResult) (net : Net) :
    Net :=
  match written with
  | .all => Function.update net upstream (net upstream ++ bytes)
  | .failed count _ => Function.update net upstream (net upstream ++ bytes.take count)

/-- The part of `handle_messge` behind its read loop, for a fifo that holds `datapeek`.
What is read is discarded on every way out once it holds a newline. -/
def forward (client upstream : SocketFd) (datapeek : Bytes) (written : WriteResult)
    (proxy : Proxy) : Proxy :=
  if newline ∉ datapeek then
    { proxy with connections := proxy.connections.setFifo client datapeek }
  else
    let proxy := { proxy with connections := proxy.connections.setFifo client [] }
    match BoundedArray.fromSlice datapeek with
    | none => proxy
    | some msgBuffer =>
        match findAndReplaceBoguscoinAddress msgBuffer with
        | none => proxy
        | some msgBuffer =>
            { proxy with net := writeUpstream upstream msgBuffer.items written proxy.net }

/-- `handle_messge`.  A read of nothing, and an event that reads nothing, close the pair. -/
def handleMessge (client : SocketFd) (arrival : Arrival) (written : WriteResult)
    (proxy : Proxy) : Proxy :=
  match proxy.connections.map client with
  | none => proxy
  | some upstream =>
      match proxy.connections.streamfifomap client with
      | none => proxy
      | some recvFifo =>
          let (recvFifo, bytes) := readLoop recvFifo 0 arrival.chunks
          match arrival.ending with
          | .failed _ =>
              { proxy with connections := proxy.connections.setFifo client recvFifo }
          | .closed => { proxy with connections := proxy.connections.remove client }
          | .wouldBlock =>
              if bytes = 0 then { proxy with connections := proxy.connections.remove client }
              else forward client upstream recvFifo written proxy

end NetworkExercises.MobInTheMiddle
