/-
Module: NetworkExercises.ZigUtils.Queue
Purpose: `utils/Queue.zig`, a buffer that grows by doubling.
Main exports: Queue, AllocatorError, Answer, realloc, Queue.init, Queue.expandCapacity,
  Queue.push, Queue.pushEx, Queue.getWritableData, Queue.write, Queue.pop, Queue.peek
-/
import NetworkExercises.Lib.BigEndian
import NetworkExercises.Lib.Checked

namespace NetworkExercises.ZigUtils

open Lib

/-- `page_size`. -/
def pageSize : Nat := 4096

/-- `FREE_CAPACITY`. -/
def freeCapacity : Rat := 1 / 2

/-- `Queue`.  The slice `data` is the bytes that it covers. -/
structure Queue where
  data : Bytes
  capacity : Nat
  size : Nat
deriving DecidableEq

/-! ### The allocator -/

inductive AllocatorError where
  | outOfMemory
deriving DecidableEq, Repr

/-- What the allocator answers: that it fails, or new memory and what lies in it. -/
abbrev Answer := Option (Nat → UInt8)

/-- `allocator.realloc`: as many bytes as are asked for; those that were there stay. -/
def realloc (answer : Answer) (data : Bytes) (len : Nat) : Option Bytes :=
  answer.map fun fresh => (List.range len).map fun i => data.getD i (fresh i)

namespace Queue

/-- `init`. -/
def init (answer : Answer) : Except AllocatorError Queue :=
  match realloc answer [] pageSize with
  | none => .error .outOfMemory
  | some data => .ok ⟨data, pageSize, 0⟩

/-! ### Growing -/

/-- `fill`, an integer quotient as a float; one that a float rounds is far above 1. -/
def fill (size capacity : Nat) : Rat := (size / capacity : Nat)

/-- The loop of `expand_capacity`, which traps when the capacity overflows; this happens before
it runs out of 64 turns. -/
def expandLoop (size : Nat) : (turns : Nat) → (expand : Bool) → (capacity : Nat) →
    Option (Bool × Nat)
  | 0, _, _ => none
  | turns + 1, expand, capacity =>
      if fill size capacity ≤ freeCapacity then some (expand, capacity)
      else if capacity * 2 < 2 ^ 64 then expandLoop size turns true (capacity * 2)
      else none

/-- `expand_capacity`.  The size and the capacity are set before the memory is there. -/
def expandCapacity (answer : Answer) (queue : Queue) (newsize : Nat) :
    Outcome AllocatorError Queue :=
  if newsize = 0 then .done queue
  else if queue.size + newsize < 2 ^ 64 then
    let queue := { queue with size := queue.size + newsize }
    match expandLoop queue.size 64 false queue.capacity with
    | none => .trap
    | some (expand, capacity) =>
        let queue := { queue with capacity := capacity }
        if !expand then .done queue
        else
          match realloc answer queue.data queue.capacity with
          | none => .raised .outOfMemory queue
          | some ndata => .done { queue with data := ndata }
  else .trap

/-! ### Pushing and popping -/

/-- `@memcpy` to a part of the data. -/
def store (queue : Queue) (os : Nat) (data : Bytes) : Queue :=
  { queue with data := queue.data.take os ++ data ++ queue.data.drop (os + data.length) }

/-- `push`. -/
def push (answer : Answer) (queue : Queue) (data : Bytes) : Outcome AllocatorError Queue :=
  if data.length = 0 then .done queue
  else
    let os := queue.size
    (queue.expandCapacity answer data.length).andThen fun queue =>
      if os + data.length ≤ queue.data.length then .done (queue.store os data) else .trap

/-- `push_ex`. -/
def pushEx (answer : Answer) (queue : Queue) (size : Nat) : Outcome AllocatorError Queue :=
  if size = 0 then .done queue else queue.expandCapacity answer size

/-- `get_writable_data`. -/
def getWritableData (queue : Queue) : Checked AllocatorError Bytes :=
  slice queue.data queue.size queue.data.length

/-- What a caller does with the writable data: write some bytes at its start. -/
def write (queue : Queue) (bytes : Bytes) : Checked AllocatorError Queue := do
  let writable ← queue.getWritableData
  if bytes.length ≤ writable.length then .ok (queue.store queue.size bytes) else Checked.trap

/-- `pop`. -/
def pop (queue : Queue) : Checked AllocatorError (Bytes × Queue) :=
  if queue.size = 0 then .ok ([], queue)
  else do
    let r ← slice queue.data 0 queue.size
    .ok (r, { queue with size := 0 })

/-- `peek`. -/
def peek (queue : Queue) : Checked AllocatorError Bytes := slice queue.data 0 queue.size

end Queue

end NetworkExercises.ZigUtils
