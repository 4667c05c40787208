/-
Module: NetworkExercises.SmokeTest.Server
Purpose: The echo server `smoke-test/main.c`, which reads all its connections into one queue.
Main exports: ServerState, Event, dataStep, eventStep
-/
import NetworkExercises.CUtils.Queue
import NetworkExercises.CUtils.Sockets

namespace NetworkExercises.SmokeTest

open Lib CUtils

-- Reads and descriptors are those of the speed daemon.
open SpeedDaemon (SocketFd Net Arrival)

/-- The queue, the descriptors that are open, and the bytes handed to each connection since
it was accepted. -/
structure ServerState where
  qu : Queue
  live : Finset SocketFd
  net : Net

/-- `QUEUE_CAPACITY` is 65536; `memory` is what the queue is allocated over. -/
def ServerState.init (memory : Nat → UInt8) : ServerState :=
  ⟨queueInit memory 65536, ∅, fun _ => []⟩

/-- `fd_poll_del_and_close`. -/
def ServerState.close (state : ServerState) (fd : SocketFd) : ServerState :=
  { state with live := state.live.erase fd }

/-- What `sendall` hands over. -/
def ServerState.hand (state : ServerState) (fd : SocketFd) (bytes : Bytes) : ServerState :=
  { state with net := Function.update state.net fd (state.net fd ++ bytes) }

/-- An event of the loop: a new connection, or something to read; `sends` is what `sendall`
meets, for whatever is sent. -/
inductive Event where
  | accept (fd : SocketFd)
  | data (fd : SocketFd) (arrival : Arrival) (sends : Bytes → Sending)

/-- The end of an event: the socket is still open, or a closing request was received. -/
def finishStep (state : ServerState) (fd : SocketFd) (res : Int) : ServerState :=
  if res = -1 then state else state.close fd

/-- Something to read.  The queue is emptied before the result is looked at. -/
def dataStep (state : ServerState) (fd : SocketFd) (arrival : Arrival)
    (sends : Bytes → Sending) : Option ServerState := do
  let (res, qu) ← recvRequest state.qu arrival
  let popped := queuePopNoCopy qu
  let data := load popped.2.data popped.1.toNat
  let state := { state with qu := popped.2 }
  if res < -1 then return state.close fd
  else if popped.1 > 0 then
    let (handed, result) ← sendall data (sends data)
    let state := state.hand fd handed
    -- A connection that does not take everything stays open.
    if result ≠ 0 then return state else return finishStep state fd res
  else return finishStep state fd res

/-- The body of the loop.  The system gives a new connection a descriptor that is not open,
and reports reads only of open ones. -/
def eventStep (state : ServerState) : Event → Option ServerState
  | .accept fd =>
      if fd ∈ state.live then none
      else
        some { state with
          live := insert fd state.live
          net := Function.update state.net fd [] }
  | .data fd arrival sends => if fd ∈ state.live then dataStep state fd arrival sends else none

end NetworkExercises.SmokeTest
