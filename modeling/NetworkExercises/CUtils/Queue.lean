/-
Module: NetworkExercises.CUtils.Queue
Purpose: `struct queue` of `utils/queue.c`, a buffer that grows by doubling, and
  `recv_request` of `utils/utils.c`, which fills it from a socket.
Main exports: Queue, queueInit, queuePush, queuePushEx, queuePop, queueReset,
  queuePopNoCopy, queuePeek, recvRequest
-/
import NetworkExercises.Lib.BigEndian
import NetworkExercises.SpeedDaemon.Handler

namespace NetworkExercises.CUtils

open Lib

-- What the reads of one event give is as in the speed daemon.
open SpeedDaemon (Arrival ReadEnd)

/-- `(int)size`. -/
@[irreducible] def toInt (size : Nat) : Int := Int.bmod size (2 ^ 32)

/-! ### The queue -/

/-- `struct queue`.  `data` is the memory from `qu->data` on, of which `capacity` bytes are
allocated; `head` is an offset into it. -/
structure Queue where
  data : Nat → UInt8
  capacity : Nat
  size : Nat
  freeCapacity : Nat
  head : Nat

/-- Copy some bytes into memory. -/
def store (data : Nat → UInt8) (start : Nat) (bytes : Bytes) : Nat → UInt8 := fun i =>
  if start ≤ i then bytes.getD (i - start) (data i) else data i

/-- The first bytes of memory. -/
def load (data : Nat → UInt8) (size : Nat) : Bytes := (List.range size).map data

/-- `(size_t)((double)free_capacity * QUEUE_FREE_CAP_BUFFER)`. -/
def freeCapBuffer (freeCapacity : Nat) : Nat := freeCapacity * 4 / 5

/-- `queue_init_data`, with an allocation that succeeds: what was there stays. -/
def queueInitData (qu : Queue) (capacity : Nat) : Queue :=
  if capacity = 0 then qu
  else if qu.capacity > capacity then qu
  else
    { qu with capacity := capacity, freeCapacity := capacity - qu.size, head := qu.size }

/-- The loop of `queue_expand_capacity`. -/
def expandLoop (quSize size : Nat) : (turns newCap : Nat) → Nat
  | 0, newCap => newCap
  | turns + 1, newCap =>
      if quSize + size ≥ freeCapBuffer (newCap - quSize) then
        expandLoop quSize size turns (newCap * 2)
      else newCap

/-- `queue_expand_capacity`.  The loop ends before it runs out of turns. -/
def queueExpandCapacity (qu : Queue) (size : Nat) : Queue :=
  if size = 0 then qu
  else if qu.size + size < freeCapBuffer qu.freeCapacity then qu
  else queueInitData qu (expandLoop qu.size size (qu.size + size + 2) (qu.capacity * 2))

/-- `queue_init`; `data` is what the allocated memory holds. -/
def queueInit (data : Nat → UInt8) (capacity : Nat) : Queue :=
  queueInitData ⟨data, 0, 0, 0, 0⟩ capacity

/-- What `queue_push` and `queue_push_ex` do first. -/
def queueMakeRoom (qu : Queue) (size : Nat) : Queue :=
  if qu.size + size ≥ freeCapBuffer qu.freeCapacity then queueExpandCapacity qu size else qu

/-- What `queue_push` and `queue_push_ex` do last. -/
def queueAdvance (qu : Queue) (size : Nat) : Queue :=
  { qu with
    head := qu.head + size
    size := qu.size + size
    freeCapacity := qu.capacity - (qu.size + size) }

/-- `queue_push`. -/
def queuePush (qu : Queue) (bytes : Bytes) : Queue :=
  if bytes.length = 0 then qu
  else
    let qu := queueMakeRoom qu bytes.length
    queueAdvance { qu with data := store qu.data qu.head bytes } bytes.length

/-- `queue_push_ex`. -/
def queuePushEx (qu : Queue) (size : Nat) : Queue :=
  if size = 0 then qu else queueAdvance (queueMakeRoom qu size) size

/-- `queue_reset`. -/
def queueReset (qu : Queue) : Queue := { qu with size := 0, head := 0, freeCapacity := qu.capacity }

/-- `queue_pop` into storage of a size: the bytes that it copies there, the size that it leaves in
`*size`, and the queue. -/
def queuePop (qu : Queue) (size : Nat) : Bytes × Nat × Queue :=
  if qu.size = 0 then ([], size, qu)
  else if qu.size > size then ([], size, qu)
  else
    (load qu.data qu.size, qu.size, { qu with size := 0, head := 0, freeCapacity := qu.capacity })

/-- `queue_pop_no_copy`: the size that it returns, and the queue; the data stays where it
is. -/
def queuePopNoCopy (qu : Queue) : Int × Queue :=
  if qu.size = 0 then (0, qu)
  else (toInt qu.size, { qu with size := 0, head := 0, freeCapacity := qu.capacity })

/-- `queue_peek`. -/
def queuePeek (qu : Queue) : Int := if qu.size = 0 then 0 else toInt qu.size

/-! ### Receiving -/

/-- One turn of the loop of `recv_request`: `recv` writes at the head, and is asked for no
more than the free capacity. -/
def recvChunk (qu : Queue) (chunk : Bytes) : Option Queue :=
  if chunk.length ≤ qu.freeCapacity then
    some (queuePushEx { qu with data := store qu.data qu.head chunk } chunk.length)
  else none

/-- The successful turns of the loop of `recv_request`. -/
def recvLoop (qu : Queue) : List Bytes → Option Queue
  | [] => some qu
  | chunk :: chunks => recvChunk qu chunk >>= fun qu => recvLoop qu chunks

/-- What `recv_request` returns after the last `recv`. -/
def recvResult : ReadEnd → Int
  | .closed => 0
  | .wouldBlock => -1
  | .failed _ => -2

/-- `recv_request`. -/
def recvRequest (qu : Queue) (arrival : Arrival) : Option (Int × Queue) :=
  (recvLoop qu arrival.chunks).map fun qu => (recvResult arrival.ending, qu)

end NetworkExercises.CUtils
