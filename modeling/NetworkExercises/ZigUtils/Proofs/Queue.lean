/-
Module: NetworkExercises.ZigUtils.Proofs.Queue
Purpose: How the queue of the Zig servers grows, and that it is the list of the bytes that were
  pushed since it was last popped, with room behind them.
Main exports: fill_le_iff, expandLoop_eq_some, Expanded, expandCapacity_expanded, Call, call,
  pushed, Holds, Allowed, queue_holds
-/
import NetworkExercises.Lib.Refinement
import NetworkExercises.ZigUtils.Queue

namespace NetworkExercises.ZigUtils

open Lib Queue

variable {queue after : Queue} {answer : Answer} {size newsize capacity grown : Nat}
  {expand expanded : Bool}

/-! ### Growing -/

/-- The integer quotient is no more than one half exactly when it is 0. -/
theorem fill_le_iff (positive : 0 < capacity) :
    fill size capacity ≤ freeCapacity ↔ size < capacity := by
  rw [← Nat.div_eq_zero_iff_lt positive, fill, freeCapacity]
  constructor
  · intro half
    by_contra some_
    have one : (1 : Rat) ≤ ((size / capacity : Nat) : Rat) :=
      Nat.one_le_cast.mpr (Nat.pos_of_ne_zero some_)
    linarith
  · intro none
    rw [none]
    norm_num

theorem expandLoop_succ {turns : Nat} (positive : 0 < capacity) :
    expandLoop size (turns + 1) expand capacity =
      if size < capacity then some (expand, capacity)
      else if capacity * 2 < 2 ^ 64 then expandLoop size turns true (capacity * 2)
      else none := by
  rw [expandLoop]
  exact if_congr (fill_le_iff positive) rfl rfl

/-- The loop ends with more capacity than size: with the one it began with, or with the first
doubling that is enough. -/
theorem expandLoop_eq_some {turns : Nat} (positive : 0 < capacity)
    (loop : expandLoop size turns expand capacity = some (expanded, grown)) :
    (grown = capacity ∧ expanded = expand ∧ size < capacity) ∨
      (expanded = true ∧ grown < 2 ^ 64 ∧
        ∃ k, grown = capacity * 2 ^ (k + 1) ∧ capacity * 2 ^ k ≤ size ∧ size < grown) := by
  induction turns generalizing expand capacity with
  | zero => cases loop
  | succ turns ih =>
      rw [expandLoop_succ positive] at loop
      split at loop
      · next fits =>
        cases loop
        exact .inl ⟨rfl, rfl, fits⟩
      · next full =>
        have doubled : 0 < capacity * 2 := Nat.mul_pos positive (by decide)
        split at loop
        · next small =>
          right
          rcases ih doubled loop with ⟨rfl, rfl, fits⟩ | ⟨rfl, bound, k, rfl, below, fits⟩
          · exact ⟨rfl, small, 0, by ring, by simpa using Nat.le_of_not_lt full, fits⟩
          · exact ⟨rfl, bound, k + 1, by ring, by rwa [Nat.pow_succ', ← Nat.mul_assoc], fits⟩
        · cases loop

/-- Doubling makes no capacity less. -/
theorem le_doubled (capacity k : Nat) : capacity ≤ capacity * 2 ^ k :=
  Nat.le_mul_of_pos_right _ (Nat.two_pow_pos k)

/-- The loop ends when some doubling is enough before the capacity overflows. -/
theorem expandLoop_isSome {turns k : Nat} (positive : 0 < capacity) (turn : k < turns)
    (enough : size < capacity * 2 ^ k) (small : capacity * 2 ^ k < 2 ^ 64) :
    (expandLoop size turns expand capacity).isSome := by
  induction turns generalizing expand capacity k with
  | zero => exact absurd turn (Nat.not_lt_zero k)
  | succ turns ih =>
      rw [expandLoop_succ positive]
      split
      · rfl
      · next full =>
        cases k with
        | zero => simp [full] at enough
        | succ k =>
            have shifted : capacity * 2 ^ (k + 1) = capacity * 2 * 2 ^ k := by ring
            rw [shifted] at enough small
            rw [if_pos (Nat.lt_of_le_of_lt (le_doubled (capacity * 2) k) small)]
            exact ih (Nat.mul_pos positive (by decide)) (Nat.lt_of_succ_lt_succ turn) enough small

/-- Of a size far below the largest capacity, the loop ends. -/
theorem expandLoop_ends (positive : 0 < capacity) (small : capacity < 2 ^ 63)
    (bound : size < 2 ^ 62) : (expandLoop size 64 false capacity).isSome := by
  have exists_ : ∃ k, size < capacity * 2 ^ k :=
    ⟨size, Nat.lt_of_lt_of_le Nat.lt_two_pow_self (Nat.le_mul_of_pos_left _ positive)⟩
  have enough := Nat.find_spec exists_
  cases found : Nat.find exists_ with
  | zero =>
      rw [found] at enough
      exact expandLoop_isSome positive (by decide) enough (by omega)
  | succ k =>
      rw [found] at enough
      have before : capacity * 2 ^ k ≤ size :=
        Nat.le_of_not_lt (Nat.find_min exists_ (found ▸ Nat.lt_succ_self k))
      have power : 2 ^ k < 2 ^ 62 :=
        Nat.lt_of_le_of_lt (Nat.le_trans (Nat.le_mul_of_pos_left _ positive) before) bound
      have turn : k < 62 := (Nat.pow_lt_pow_iff_right (by decide)).mp power
      refine expandLoop_isSome positive (k := k + 1) (by omega) enough ?_
      rw [Nat.pow_succ, ← Nat.mul_assoc]
      omega

/-- What `expand_capacity` does for some new bytes: the size grows by them, and a capacity that it
reaches is doubled until it is more, for which there is new memory or none. -/
inductive Expanded (answer : Answer) (queue : Queue) (newsize : Nat) :
    Outcome AllocatorError Queue → Prop where
  | fits (room : queue.size + newsize < queue.capacity) :
      Expanded answer queue newsize (.done { queue with size := queue.size + newsize })
  | grown (fresh : Nat → UInt8) (isAnswer : answer = some fresh) (k : Nat)
      (full : queue.capacity * 2 ^ k ≤ queue.size + newsize)
      (room : queue.size + newsize < queue.capacity * 2 ^ (k + 1)) (data : Bytes)
      (allocated : realloc answer queue.data (queue.capacity * 2 ^ (k + 1)) = some data) :
      Expanded answer queue newsize
        (.done ⟨data, queue.capacity * 2 ^ (k + 1), queue.size + newsize⟩)
  | failed (isAnswer : answer = none) (k : Nat)
      (full : queue.capacity * 2 ^ k ≤ queue.size + newsize)
      (room : queue.size + newsize < queue.capacity * 2 ^ (k + 1))
      (small : queue.capacity * 2 ^ (k + 1) < 2 ^ 64) :
      Expanded answer queue newsize
        (.raised .outOfMemory ⟨queue.data, queue.capacity * 2 ^ (k + 1), queue.size + newsize⟩)
  | trap : Expanded answer queue newsize .trap

theorem expandCapacity_expanded (positive : 0 < queue.capacity) (some_ : newsize ≠ 0)
    (answer : Answer) : Expanded answer queue newsize (queue.expandCapacity answer newsize) := by
  rw [expandCapacity, if_neg some_]
  split
  · dsimp only
    cases loop : expandLoop (queue.size + newsize) 64 false queue.capacity with
    | none => exact .trap
    | some ended =>
        obtain ⟨expand, capacity⟩ := ended
        rcases expandLoop_eq_some positive loop with
          ⟨rfl, rfl, room⟩ | ⟨rfl, small, k, rfl, full, room⟩
        · exact .fits room
        · simp only [Bool.not_true, Bool.false_eq_true, if_false]
          cases answer with
          | none => exact .failed rfl k full room small
          | some fresh => exact .grown fresh rfl k full room _ rfl
  · exact .trap

/-- Of sizes far below 2^64, `expand_capacity` does not trap. -/
theorem expandCapacity_ne_trap (positive : 0 < queue.capacity) (small : queue.capacity < 2 ^ 63)
    (bound : queue.size + newsize < 2 ^ 62) (answer : Answer) :
    queue.expandCapacity answer newsize ≠ .trap := by
  obtain ⟨⟨expand, capacity⟩, loop⟩ :=
    Option.isSome_iff_exists.mp (expandLoop_ends positive small bound)
  intro traps
  unfold expandCapacity at traps
  split at traps
  · cases traps
  · rw [if_pos (by omega)] at traps
    simp only [loop] at traps
    split at traps
    · cases traps
    · split at traps <;> cases traps

/-! ### What a queue holds -/

/-- All of its memory is allocated and not all is used; these are its bytes. -/
structure Holds (queue : Queue) (held : Bytes) : Prop where
  length : queue.data.length = queue.capacity
  room : queue.size < queue.capacity
  contents : queue.data.take queue.size = held
  small : queue.capacity < 2 ^ 63

variable {held bytes data : Bytes}

theorem Holds.size_eq (holds : Holds queue held) : queue.size = held.length := by
  rw [← holds.contents, List.length_take, holds.length]
  exact (Nat.min_eq_left (Nat.le_of_lt holds.room)).symm

/-- A reallocation gives as many bytes as are asked for, and keeps those that were there. -/
theorem realloc_eq_some {len : Nat} (allocated : realloc answer data len = some bytes)
    (le : data.length ≤ len) : bytes.length = len ∧ bytes.take data.length = data := by
  obtain ⟨fresh, -, rfl⟩ := Option.map_eq_some_iff.mp allocated
  refine ⟨by simp, ?_⟩
  apply List.ext_getElem
  · simpa using le
  · intro i inside outside
    simp [outside]

theorem store_length {os : Nat} (fits : os + bytes.length ≤ queue.data.length) :
    (queue.store os bytes).data.length = queue.data.length := by
  simp [store]
  omega

theorem store_take {os : Nat} (fits : os + bytes.length ≤ queue.data.length) :
    (queue.store os bytes).data.take (os + bytes.length) = queue.data.take os ++ bytes := by
  have start : (queue.data.take os ++ bytes).length = os + bytes.length := by
    rw [List.length_append, List.length_take, Nat.min_eq_left (by omega)]
  rw [store, List.take_left' start]

/-- Room is made for some bytes, and all that was there stays. -/
theorem expandCapacity_makes_room (holds : Holds queue held) (some_ : newsize ≠ 0)
    (isSome : answer.isSome = true) (bound : queue.size + newsize < 2 ^ 62) :
    ∃ roomy, queue.expandCapacity answer newsize = .done roomy ∧
      roomy.size = queue.size + newsize ∧ roomy.data.length = roomy.capacity ∧
      roomy.size < roomy.capacity ∧ roomy.capacity < 2 ^ 63 ∧
      roomy.data.take queue.data.length = queue.data := by
  have positive := Nat.zero_lt_of_lt holds.room
  have expanded := expandCapacity_expanded positive some_ answer
  have noTrap := expandCapacity_ne_trap positive holds.small bound answer
  generalize queue.expandCapacity answer newsize = outcome at expanded noTrap
  cases expanded with
  | fits room => exact ⟨_, rfl, rfl, holds.length, room, holds.small, List.take_length⟩
  | grown fresh isAnswer k full room data allocated =>
      have le : queue.data.length ≤ queue.capacity * 2 ^ (k + 1) := by
        rw [holds.length]
        exact le_doubled _ _
      obtain ⟨length, kept⟩ := realloc_eq_some allocated le
      have twice : queue.capacity * 2 ^ (k + 1) = 2 * (queue.capacity * 2 ^ k) := by ring
      exact ⟨_, rfl, rfl, length, room, by show queue.capacity * 2 ^ (k + 1) < _; omega, kept⟩
  | failed isAnswer =>
      rw [isAnswer] at isSome
      cases isSome
  | trap => exact absurd rfl noTrap

theorem holds_push (holds : Holds queue held) (isSome : answer.isSome = true)
    (bound : queue.size + bytes.length < 2 ^ 62) :
    ∃ after, queue.push answer bytes = .done after ∧ Holds after (held ++ bytes) := by
  unfold push
  split
  · next none =>
    rw [List.length_eq_zero_iff.mp none, List.append_nil]
    exact ⟨queue, rfl, holds⟩
  · next some_ =>
    obtain ⟨roomy, expands, sizeEq, length, room, small, kept⟩ :=
      expandCapacity_makes_room holds some_ isSome bound
    have fits : queue.size + bytes.length ≤ roomy.data.length := by omega
    have before : roomy.data.take queue.size = held := by
      have le : queue.size ≤ queue.data.length := by
        rw [holds.length]
        exact Nat.le_of_lt holds.room
      rw [← holds.contents, ← kept, List.take_take, Nat.min_eq_left le]
    rw [expands, Outcome.done_andThen, if_pos fits]
    refine ⟨_, rfl, (store_length fits).trans length, room, ?_, small⟩
    show (roomy.store queue.size bytes).data.take roomy.size = _
    rw [sizeEq, store_take fits, before]

/-- What lies behind the size can be written to, and there is some of it. -/
theorem getWritableData_eq (holds : Holds queue held) :
    ∃ writable, queue.getWritableData = .ok writable ∧
      writable.length = queue.capacity - queue.size ∧ writable ≠ [] := by
  have room := holds.room
  have length : (queue.data.drop queue.size).length = queue.capacity - queue.size := by
    rw [List.length_drop, holds.length]
  refine ⟨queue.data.drop queue.size, ?_, length, ?_⟩
  · rw [getWritableData, slice_eq_ok, holds.length]
    refine ⟨⟨Nat.le_of_lt room, le_refl _⟩, ?_⟩
    rw [← length, List.take_length]
  · apply List.ne_nil_of_length_pos
    omega

theorem write_eq (holds : Holds queue held) (fits : bytes.length ≤ queue.capacity - queue.size) :
    queue.write bytes = .ok (queue.store queue.size bytes) := by
  obtain ⟨writable, isWritable, length, -⟩ := getWritableData_eq holds
  rw [write, isWritable, Checked.ok_bind, length, if_pos fits]

/-- What was written in front of the room that is then made becomes part of the queue. -/
theorem holds_pushEx (holds : Holds queue held) (isSome : answer.isSome = true)
    (bound : queue.size + bytes.length < 2 ^ 62)
    (fits : bytes.length ≤ queue.capacity - queue.size) :
    ∃ after, (queue.store queue.size bytes).pushEx answer bytes.length = .done after ∧
      Holds after (held ++ bytes) := by
  have room := holds.room
  have length := holds.length
  have inside : queue.size + bytes.length ≤ queue.data.length := by omega
  have stored : Holds (queue.store queue.size bytes) held := by
    refine ⟨(store_length inside).trans length, room, ?_, holds.small⟩
    have start := congrArg (List.take queue.size) (store_take inside)
    rw [List.take_take, Nat.min_eq_left (Nat.le_add_right _ _), List.take_append_of_le_length,
      List.take_take, Nat.min_self, holds.contents] at start
    · exact start
    · rw [List.length_take, Nat.min_eq_left (by omega)]
  unfold pushEx
  split
  · next none =>
    rw [List.length_eq_zero_iff.mp none] at stored ⊢
    rw [List.append_nil]
    exact ⟨_, rfl, stored⟩
  · next some_ =>
    obtain ⟨roomy, expands, sizeEq, roomyLength, roomyRoom, small, kept⟩ :=
      expandCapacity_makes_room stored some_ isSome bound
    refine ⟨roomy, expands, roomyLength, roomyRoom, ?_, small⟩
    have le : queue.size + bytes.length ≤ (queue.store queue.size bytes).data.length := by
      rwa [store_length inside]
    have contents := congrArg (List.take (queue.size + bytes.length)) kept
    rw [List.take_take, Nat.min_eq_left le, store_take inside, holds.contents] at contents
    rw [sizeEq]
    exact contents

theorem peek_eq (holds : Holds queue held) : queue.peek = .ok held := by
  have room := holds.room
  rw [peek, slice_eq_ok, holds.length, List.drop_zero, Nat.sub_zero, holds.contents]
  exact ⟨⟨Nat.zero_le _, Nat.le_of_lt room⟩, rfl⟩

theorem holds_pop (holds : Holds queue held) :
    ∃ after, queue.pop = .ok (held, after) ∧ Holds after [] := by
  have emptied : Holds { queue with size := 0 } [] :=
    ⟨holds.length, Nat.zero_lt_of_lt holds.room, rfl, holds.small⟩
  have sizeEq := holds.size_eq
  unfold pop
  split
  · next none =>
    rw [none, eq_comm, List.length_eq_zero_iff] at sizeEq
    subst sizeEq
    exact ⟨queue, rfl, holds⟩
  · have peeked := peek_eq holds
    rw [peek] at peeked
    rw [peeked]
    exact ⟨_, rfl, emptied⟩

theorem holds_init {start : Queue} (started : init answer = .ok start) : Holds start [] := by
  unfold init at started
  split at started
  · cases started
  · next data allocated =>
    cases started
    have room : 0 < pageSize := by decide
    have small : pageSize < 2 ^ 63 := by decide
    exact ⟨(realloc_eq_some allocated (Nat.zero_le _)).1, room, rfl, small⟩

/-! ### Runs -/

/-- The calls on a queue, with what the allocator answers; before `push_ex` its bytes are written
at the start of the writable data. -/
inductive Call where
  | push (answer : Answer) (bytes : Bytes)
  | pushEx (answer : Answer) (bytes : Bytes)
  | pop
  | peek

/-- What a call that may fail returns, and the queue after it. -/
def returned : Outcome AllocatorError Queue → Option (Except AllocatorError Bytes × Queue)
  | .done queue => some (.ok [], queue)
  | .raised error queue => some (.error error, queue)
  | .trap => none

/-- A call: what it returns, and the queue after it; none where it traps. -/
def call (queue : Queue) : Call → Option (Except AllocatorError Bytes × Queue)
  | .push answer bytes => returned (queue.push answer bytes)
  | .pushEx answer bytes =>
      (queue.write bytes).toOption.bind fun queue => returned (queue.pushEx answer bytes.length)
  | .pop => queue.pop.toOption.map fun (bytes, queue) => (.ok bytes, queue)
  | .peek => queue.peek.toOption.map fun bytes => (.ok bytes, queue)

/-- The calls on the bytes that were pushed since the last pop. -/
def pushed (held : Bytes) : Call → Option (Except AllocatorError Bytes × Bytes)
  | .push _ bytes => some (.ok [], held ++ bytes)
  | .pushEx _ bytes => some (.ok [], held ++ bytes)
  | .pop => some (.ok held, [])
  | .peek => some (.ok held, held)

/-- The allocation succeeds, the size stays far below 2^62, and no more is written than there is
room for. -/
def Allowed (queue : Queue) : Call → Prop
  | .push answer bytes => answer.isSome = true ∧ queue.size + bytes.length < 2 ^ 62
  | .pushEx answer bytes => answer.isSome = true ∧ queue.size + bytes.length < 2 ^ 62 ∧
      bytes.length ≤ queue.data.length - queue.size
  | .pop | .peek => True

/-- A call on the queue is one on the bytes that it holds. -/
theorem call_holds (queue : Queue) (held : Bytes) (queueCall : Call) (holds : Holds queue held)
    (allowed : Allowed queue queueCall) :
    ∃ output after later, call queue queueCall = some (output, after) ∧
      pushed held queueCall = some (output, later) ∧ Holds after later := by
  cases queueCall with
  | push answer bytes =>
      obtain ⟨isSome, bound⟩ := allowed
      obtain ⟨after, pushes, holdsAfter⟩ := holds_push holds isSome bound
      exact ⟨_, after, _, by rw [call, pushes]; rfl, rfl, holdsAfter⟩
  | pushEx answer bytes =>
      obtain ⟨isSome, bound, fits⟩ := allowed
      rw [holds.length] at fits
      obtain ⟨after, pushes, holdsAfter⟩ := holds_pushEx holds isSome bound fits
      refine ⟨_, after, _, ?_, rfl, holdsAfter⟩
      rw [call, write_eq holds fits]
      show returned _ = _
      rw [pushes]
      rfl
  | pop =>
      obtain ⟨after, pops, emptied⟩ := holds_pop holds
      exact ⟨_, after, _, by rw [call, pops]; rfl, rfl, emptied⟩
  | peek => exact ⟨_, queue, _, by rw [call, peek_eq holds]; rfl, rfl, holds⟩

/-- Any calls on a queue give what the same calls give on the bytes pushed since the last pop; all
of its memory stays allocated, and there is always some of it left to write to. -/
theorem queue_holds {start : Queue} (started : init answer = .ok start) {calls : List Call}
    (allowed : EachStep Allowed (next call) start calls) :
    ∃ outputs final held, observe call start calls = some (outputs, final) ∧
      observe pushed [] calls = some (outputs, held) ∧
      final.data.length = final.capacity ∧ final.size < final.capacity ∧
      (∃ writable, final.getWritableData = .ok writable ∧ writable ≠ []) ∧
      final.peek = .ok held := by
  obtain ⟨outputs, final, held, ran, specRan, holds⟩ :=
    observe_simulates_when Holds Allowed call_holds (holds_init started) allowed
  obtain ⟨writable, isWritable, -, some_⟩ := getWritableData_eq holds
  exact ⟨outputs, final, held, ran, specRan, holds.length, holds.room,
    ⟨writable, isWritable, some_⟩, peek_eq holds⟩

instance Allowed.decidable (queue : Queue) : ∀ queueCall, Decidable (Allowed queue queueCall)
  | .push answer bytes =>
      inferInstanceAs (Decidable (answer.isSome = true ∧ queue.size + bytes.length < 2 ^ 62))
  | .pushEx answer bytes =>
      inferInstanceAs (Decidable (answer.isSome = true ∧ queue.size + bytes.length < 2 ^ 62 ∧
        bytes.length ≤ queue.data.length - queue.size))
  | .pop => .isTrue trivial
  | .peek => .isTrue trivial

section Words

/-- Memory that is zero. -/
def zeroed : Answer := some fun _ => 0

/-- A queue that was initialised. -/
def page : Queue := ⟨(List.range pageSize).map fun i => ([] : Bytes).getD i 0, pageSize, 0⟩

theorem init_page : init zeroed = .ok page := rfl

def words : List Call :=
  [.push zeroed (ascii "First"), .pushEx zeroed (ascii " Second"), .peek, .pop, .peek]

theorem queue_holds_words :
    ∃ outputs final held, observe call page words = some (outputs, final) ∧
      observe pushed [] words = some (outputs, held) ∧ final.peek = .ok held := by
  have allowed : EachStep Allowed (next call) page words := by decide +kernel
  obtain ⟨outputs, final, held, ran, specRan, -, -, -, peeked⟩ := queue_holds init_page allowed
  exact ⟨outputs, final, held, ran, specRan, peeked⟩

end Words

end NetworkExercises.ZigUtils
