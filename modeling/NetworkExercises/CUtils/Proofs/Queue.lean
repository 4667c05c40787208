/-
Module: NetworkExercises.CUtils.Proofs.Queue
Purpose: A queue is the list of the bytes that were pushed since it was last popped, and
  always has room for more.
Main exports: Queue.contents, Queue.Valid, queueMakeRoom_grown, Holds, holds_init,
  holds_push, holds_pushEx, holds_recvLoop, holds_pop, recvLoop_singletons, given
-/
import NetworkExercises.CUtils.Queue

namespace NetworkExercises.CUtils

open Lib

variable {qu : Queue} {held bytes : Bytes} {size : Nat}

/-- The size that is returned is right below 2^31. -/
theorem toInt_of_lt {size : Nat} (small : size < 2 ^ 31) : toInt size = size := by
  unfold toInt
  apply Int.bmod_eq_of_le
  · omega
  · omega

@[simp] theorem toInt_zero : toInt 0 = 0 := toInt_of_lt (Nat.two_pow_pos 31)

/-- `(int)size` is never more than the size. -/
theorem toInt_toNat_le (size : Nat) : (toInt size).toNat ≤ size := by
  have high := Int.bmod_lt (x := size) (m := 2 ^ 32) (by decide)
  rcases Nat.lt_or_ge size (2 ^ 31) with small | large
  · rw [toInt_of_lt small, Int.toNat_natCast]
  · unfold toInt
    omega

/-- A size from 2^31 on is returned with at least 2^32 missing. -/
theorem toInt_of_ge {size : Nat} (large : 2 ^ 31 ≤ size) : toInt size + 2 ^ 32 ≤ size := by
  unfold toInt Int.bmod
  dsimp only
  split <;> omega

theorem toInt_toNat_lt (size : Nat) : (toInt size).toNat < 2 ^ 31 := by
  have high := Int.bmod_lt (x := size) (m := 2 ^ 32) (by decide)
  unfold toInt
  omega

/-! ### Memory -/

@[simp] theorem load_length (data : Nat → UInt8) (size : Nat) : (load data size).length = size := by
  simp [load]

theorem load_add (data : Nat → UInt8) (first more : Nat) :
    load data (first + more) = load data first ++ load (fun i => data (first + i)) more := by
  simp [load, List.range_add]

theorem take_load (data : Nat → UInt8) {part size : Nat} (le : part ≤ size) :
    (load data size).take part = load data part := by
  obtain ⟨more, rfl⟩ := Nat.exists_eq_add_of_le le
  rw [load_add, List.take_left' (load_length _ _)]

/-- What is stored can be loaded, behind what was there before. -/
theorem load_store (data : Nat → UInt8) (start : Nat) (bytes : Bytes) :
    load (store data start bytes) (start + bytes.length) = load data start ++ bytes := by
  rw [load_add]
  congr 1
  · apply List.map_congr_left
    intro i member
    exact if_neg (Nat.not_le_of_lt (List.mem_range.mp member))
  · apply List.ext_getElem
    · simp
    · intro i inside outside
      simp [load, store, outside]

/-- Some of what is stored can be loaded. -/
theorem load_store_take (data : Nat → UInt8) (start : Nat) {bytes : Bytes} {size : Nat}
    (le : size ≤ bytes.length) :
    load (store data start bytes) (start + size) = load data start ++ bytes.take size := by
  have whole := congrArg (List.take (start + size)) (load_store data start bytes)
  rw [take_load _ (Nat.add_le_add_left le start), List.take_append, load_length,
    List.take_of_length_le (by rw [load_length]; exact Nat.le_add_right _ _),
    Nat.add_sub_cancel_left] at whole
  exact whole

/-! ### Growing -/

/-- The loop ends with room for the bytes, unless it starts from too little. -/
theorem expandLoop_fits {quSize turns newCap : Nat}
    (enough : quSize + size < freeCapBuffer (newCap * 2 ^ turns - quSize)) :
    quSize + size < freeCapBuffer (expandLoop quSize size turns newCap - quSize) := by
  induction turns generalizing newCap with
  | zero => simpa [expandLoop] using enough
  | succ turns ih =>
      rw [expandLoop]
      split
      · apply ih
        rwa [Nat.mul_assoc, ← Nat.pow_succ']
      · next fits => exact Nat.lt_of_not_le fits

/-- The loop only makes the capacity larger. -/
theorem le_expandLoop (quSize size turns newCap : Nat) :
    newCap ≤ expandLoop quSize size turns newCap := by
  induction turns generalizing newCap with
  | zero => exact le_refl _
  | succ turns ih =>
      rw [expandLoop]
      split
      · exact le_trans (Nat.le_mul_of_pos_right _ (by decide)) (ih (newCap * 2))
      · exact le_refl _

/-- What holds of a queue between two operations. -/
structure Queue.Valid (qu : Queue) : Prop where
  head : qu.head = qu.size
  free : qu.freeCapacity = qu.capacity - qu.size
  room : qu.size < qu.capacity

theorem Queue.Valid.free_pos (valid : qu.Valid) : 0 < qu.freeCapacity := by
  rw [valid.free]
  exact Nat.sub_pos_of_lt valid.room

/-- Enough is free for some more bytes, and one to spare. -/
structure Queue.RoomFor (qu : Queue) (size : Nat) : Prop where
  head : qu.head = qu.size
  room : qu.size + size < qu.capacity

theorem freeCapBuffer_le (freeCapacity : Nat) : freeCapBuffer freeCapacity ≤ freeCapacity := by
  unfold freeCapBuffer
  omega

/-- The number of turns of `queue_expand_capacity` is enough. -/
theorem enough_turns (quSize size : Nat) {capacity : Nat} (positive : 0 < capacity) :
    quSize + size < freeCapBuffer (capacity * 2 * 2 ^ (quSize + size + 2) - quSize) := by
  have power : quSize + size + 1 ≤ 2 ^ (quSize + size) :=
    (Nat.lt_two_pow_self (n := quSize + size))
  have grown : 8 * 2 ^ (quSize + size) ≤ capacity * 2 * 2 ^ (quSize + size + 2) := by
    calc 8 * 2 ^ (quSize + size)
      _ ≤ capacity * (8 * 2 ^ (quSize + size)) := Nat.le_mul_of_pos_left _ positive
      _ = capacity * 2 * 2 ^ (quSize + size + 2) := by ring
  unfold freeCapBuffer
  omega

/-- Making room gives the queue a capacity, the same or a larger one, of which the bytes use less
than the part that may be used; so the loop of `queue_expand_capacity` ends by itself. -/
theorem queueMakeRoom_grown (valid : qu.Valid) (some_bytes : size ≠ 0) :
    ∃ capacity, qu.capacity ≤ capacity ∧ qu.size + size < freeCapBuffer (capacity - qu.size) ∧
      queueMakeRoom qu size =
        { qu with capacity := capacity, freeCapacity := capacity - qu.size, head := qu.size } := by
  have room := valid.room
  unfold queueMakeRoom
  split
  · next full =>
    have fits := expandLoop_fits
      (enough_turns qu.size size (Nat.zero_lt_of_lt room))
    have doubled := le_expandLoop qu.size size (qu.size + size + 2) (qu.capacity * 2)
    refine ⟨_, by omega, fits, ?_⟩
    rw [queueExpandCapacity, if_neg some_bytes, if_neg (Nat.not_lt_of_le full), queueInitData,
      if_neg (by omega), if_neg (by omega)]
  · next fits =>
    refine ⟨qu.capacity, le_refl _, ?_, ?_⟩
    · rw [← valid.free]
      exact Nat.lt_of_not_le fits
    · cases qu
      rw [Queue.mk.injEq]
      exact ⟨rfl, rfl, rfl, valid.free, valid.head⟩

/-- Making room keeps what is held, and there is room afterwards. -/
theorem queueMakeRoom_spec (valid : qu.Valid) (some_bytes : size ≠ 0) :
    (queueMakeRoom qu size).data = qu.data ∧ (queueMakeRoom qu size).size = qu.size ∧
      (queueMakeRoom qu size).RoomFor size := by
  obtain ⟨capacity, -, fits, grown⟩ := queueMakeRoom_grown valid some_bytes
  have le := freeCapBuffer_le (capacity - qu.size)
  rw [grown]
  refine ⟨rfl, rfl, rfl, ?_⟩
  show qu.size + size < capacity
  omega

/-! ### What a queue holds -/

/-- The bytes of a queue, in the order they were pushed. -/
def Queue.contents (qu : Queue) : Bytes := load qu.data qu.size

/-- A valid queue that holds these bytes. -/
structure Holds (qu : Queue) (held : Bytes) : Prop where
  valid : qu.Valid
  contents : qu.contents = held

theorem Holds.size_eq (holds : Holds qu held) : qu.size = held.length := by
  rw [← holds.contents, Queue.contents, load_length]

theorem holds_init (data : Nat → UInt8) {capacity : Nat} (positive : 0 < capacity) :
    Holds (queueInit data capacity) [] := by
  have some_capacity : capacity ≠ 0 := Nat.ne_of_gt positive
  have init : queueInit data capacity = ⟨data, capacity, 0, capacity, 0⟩ := by
    simp [queueInit, queueInitData, some_capacity]
  rw [init]
  exact ⟨⟨rfl, rfl, positive⟩, rfl⟩

/-- Bytes that lie at the head become part of the queue. -/
theorem holds_advance (room : qu.RoomFor bytes.length) (contents : qu.contents = held) :
    Holds (queueAdvance { qu with data := store qu.data qu.head bytes } bytes.length)
      (held ++ bytes) := by
  refine ⟨⟨?_, rfl, room.room⟩, ?_⟩
  · show qu.head + bytes.length = qu.size + bytes.length
    rw [room.head]
  · show load (store qu.data qu.head bytes) (qu.size + bytes.length) = held ++ bytes
    rw [room.head, load_store, ← contents]
    rfl

theorem holds_push (holds : Holds qu held) (bytes : Bytes) :
    Holds (queuePush qu bytes) (held ++ bytes) := by
  unfold queuePush
  split
  · next none =>
    rwa [List.length_eq_zero_iff.mp none, List.append_nil]
  · next some_bytes =>
    obtain ⟨data, size, room⟩ := queueMakeRoom_spec holds.valid some_bytes
    apply holds_advance room
    rw [Queue.contents, data, size]
    exact holds.contents

/-- Bytes that were written at the head before there was room for them: the room is made
behind them. -/
theorem holds_pushEx (holds : Holds qu held) (le : size ≤ bytes.length) :
    Holds (queuePushEx { qu with data := store qu.data qu.head bytes } size)
      (held ++ bytes.take size) := by
  unfold queuePushEx
  split
  · next none =>
    rw [none, List.take_zero, List.append_nil]
    refine ⟨⟨holds.valid.head, holds.valid.free, holds.valid.room⟩, ?_⟩
    rw [← holds.contents]
    apply List.map_congr_left
    intro i member
    apply if_neg
    rw [holds.valid.head]
    exact Nat.not_le_of_lt (List.mem_range.mp member)
  · next some_bytes =>
    let stored : Queue := { qu with data := store qu.data qu.head bytes }
    have valid : stored.Valid := ⟨holds.valid.head, holds.valid.free, holds.valid.room⟩
    obtain ⟨data, sizeEq, room⟩ := queueMakeRoom_spec valid some_bytes
    refine ⟨⟨?_, rfl, room.room⟩, ?_⟩
    · show (queueMakeRoom stored size).head + size = _
      rw [room.head]
      rfl
    · show load (queueMakeRoom stored size).data ((queueMakeRoom stored size).size + size) = _
      rw [data, sizeEq]
      show load (store qu.data qu.head bytes) (qu.size + size) = _
      rw [holds.valid.head, load_store_take _ _ le, ← holds.contents]
      rfl

/-- A chunk that `recv` has written at the head. -/
theorem holds_recvChunk {received : Queue} (holds : Holds qu held)
    (ran : recvChunk qu bytes = some received) : Holds received (held ++ bytes) := by
  unfold recvChunk at ran
  split at ran
  · cases ran
    have pushed := holds_pushEx holds (le_refl bytes.length)
    rwa [List.take_length] at pushed
  · cases ran

theorem holds_recvLoop {chunks : List Bytes} {received : Queue} (holds : Holds qu held)
    (ran : recvLoop qu chunks = some received) : Holds received (held ++ chunks.flatten) := by
  induction chunks generalizing qu held with
  | nil =>
      cases ran
      rwa [List.flatten_nil, List.append_nil]
  | cons chunk chunks ih =>
      obtain ⟨next, first, rest⟩ := Option.bind_eq_some_iff.mp ran
      have := ih (holds_recvChunk holds first) rest
      rwa [List.append_assoc, ← List.flatten_cons] at this

/-- There is always room for one byte. -/
theorem recvLoop_singletons (holds : Holds qu held) (bytes : Bytes) :
    ∃ received, recvLoop qu (bytes.map fun byte => [byte]) = some received ∧
      Holds received (held ++ bytes) := by
  suffices exists_received : ∃ received,
      recvLoop qu (bytes.map fun byte => [byte]) = some received by
    obtain ⟨received, ran⟩ := exists_received
    refine ⟨received, ran, ?_⟩
    have flattened : (bytes.map fun byte => [byte]).flatten = bytes := by
      rw [← List.flatMap_def, List.flatMap_singleton']
    simpa [flattened] using holds_recvLoop holds ran
  induction bytes generalizing qu held with
  | nil => exact ⟨qu, rfl⟩
  | cons byte bytes ih =>
      have one : [byte].length ≤ qu.freeCapacity := holds.valid.free_pos
      have first : recvChunk qu [byte] = some _ := if_pos one
      obtain ⟨received, ran⟩ := ih (holds_recvChunk holds first)
      exact ⟨received, by rw [List.map_cons, recvLoop, first]; exact ran⟩

theorem holds_reset (holds : Holds qu held) : Holds (queueReset qu) [] :=
  ⟨⟨rfl, rfl, Nat.zero_lt_of_lt holds.valid.room⟩, rfl⟩

/-- An empty queue is left, over the same memory. -/
theorem holds_pop (holds : Holds qu held) :
    ∃ popped, queuePopNoCopy qu = (toInt held.length, popped) ∧ Holds popped [] ∧
      popped.data = qu.data := by
  have sizeEq := holds.size_eq
  unfold queuePopNoCopy
  split
  · next none =>
    rw [none] at sizeEq
    refine ⟨qu, by rw [← sizeEq, toInt_zero], ⟨holds.valid, ?_⟩, rfl⟩
    rw [Queue.contents, none]
    rfl
  · rw [sizeEq]
    exact ⟨queueReset qu, rfl, holds_reset holds, rfl⟩

theorem queuePeek_eq (holds : Holds qu held) : queuePeek qu = toInt held.length := by
  rw [queuePeek, holds.size_eq]
  split
  · next none => rw [none, toInt_zero]
  · rfl

/-- The bytes that go to `sendall` when they are popped: none where their number is not an
`int`. -/
def given (held : Bytes) : Bytes := held.take (toInt held.length).toNat

/-- What the size that is returned makes of the memory. -/
theorem load_given (holds : Holds qu held) :
    load qu.data (toInt held.length).toNat = given held := by
  rw [given, ← holds.contents, Queue.contents, load_length]
  exact (take_load _ (toInt_toNat_le _)).symm

theorem given_ne_nil (positive : toInt held.length > 0) : given held ≠ [] := by
  intro nothing
  have length := congrArg List.length nothing
  rw [given, List.length_take, List.length_nil] at length
  have := toInt_toNat_le held.length
  omega

theorem given_eq_nil (none : ¬ toInt held.length > 0) : given held = [] := by
  have zero : (toInt held.length).toNat = 0 := Int.toNat_of_nonpos (Int.not_lt.mp none)
  rw [given, zero, List.take_zero]

theorem given_of_lt (small : held.length < 2 ^ 31) : given held = held := by
  rw [given, toInt_of_lt small, Int.toNat_natCast, List.take_length]

end NetworkExercises.CUtils
