/-
Module: NetworkExercises.ZigUtils.Proofs.QueueFailures
Purpose: How full a queue of the Zig servers is after a push, and what a push leaves for which
  there is no memory.
Main exports: Sound, sound_call, reached_sound, GrowsToHalf, half_free_iff, Untouched, Spoiled,
  failure_spoils
-/
import NetworkExercises.ZigUtils.Proofs.Queue

namespace NetworkExercises.ZigUtils

open Lib Queue

variable {queue after start : Queue} {answer initial : Answer} {newsize : Nat} {bytes : Bytes}
  {output : Except AllocatorError Bytes} {error : AllocatorError}

/-! ### What holds even after failures -/

/-- No more memory is allocated than the queue takes it to have, which is a page at least. -/
structure Sound (queue : Queue) : Prop where
  length : queue.data.length ≤ queue.capacity
  page : pageSize ≤ queue.capacity

theorem Sound.positive (sound : Sound queue) : 0 < queue.capacity :=
  Nat.lt_of_lt_of_le (by decide) sound.page

theorem sound_init (started : init initial = .ok start) : Sound start := by
  have holds := holds_init started
  unfold init at started
  split at started
  · cases started
  · cases started
    exact ⟨Nat.le_of_eq holds.length, le_refl _⟩

theorem sound_expandCapacity (sound : Sound queue) (some_ : newsize ≠ 0)
    (reaches : (queue.expandCapacity answer newsize).Reaches after) : Sound after := by
  have expanded := expandCapacity_expanded sound.positive some_ answer
  generalize queue.expandCapacity answer newsize = outcome at expanded reaches
  have le := le_doubled queue.capacity
  cases expanded with
  | fits room =>
      rw [Outcome.done_reaches] at reaches
      subst reaches
      exact ⟨sound.length, sound.page⟩
  | grown fresh isAnswer k full room data allocated =>
      rw [Outcome.done_reaches] at reaches
      subst reaches
      have length := realloc_eq_some allocated (le_trans sound.length (le (k + 1)))
      exact ⟨Nat.le_of_eq length.1, le_trans sound.page (le (k + 1))⟩
  | failed isAnswer k =>
      rw [Outcome.raised_reaches] at reaches
      subst reaches
      exact ⟨le_trans sound.length (le (k + 1)), le_trans sound.page (le (k + 1))⟩
  | trap => exact absurd reaches Outcome.not_trap_reaches

theorem sound_store {os : Nat} (sound : Sound queue)
    (fits : os + bytes.length ≤ queue.data.length) : Sound (queue.store os bytes) :=
  ⟨(store_length fits).symm ▸ sound.length, sound.page⟩

theorem sound_push (sound : Sound queue) (reaches : (queue.push answer bytes).Reaches after) :
    Sound after := by
  unfold push at reaches
  split at reaches
  · rw [Outcome.done_reaches] at reaches
    exact reaches ▸ sound
  · next some_ =>
    rcases Outcome.andThen_reaches reaches with ⟨error, failed⟩ | ⟨roomy, expands, copies⟩
    · exact sound_expandCapacity sound some_ (.inr ⟨error, failed⟩)
    · have roomySound := sound_expandCapacity sound some_ (.inl expands)
      split at copies
      · next fits =>
        rw [Outcome.done_reaches] at copies
        exact copies ▸ sound_store roomySound fits
      · exact absurd copies Outcome.not_trap_reaches

theorem sound_pushEx (sound : Sound queue)
    (reaches : (queue.pushEx answer newsize).Reaches after) : Sound after := by
  unfold pushEx at reaches
  split at reaches
  · rw [Outcome.done_reaches] at reaches
    exact reaches ▸ sound
  · next some_ => exact sound_expandCapacity sound some_ reaches

theorem sound_write (sound : Sound queue) (writes : queue.write bytes = .ok after) :
    Sound after := by
  obtain ⟨writable, isWritable, writes⟩ := Checked.bind_eq_ok.mp writes
  have length := slice_length isWritable
  split at writes
  · next fits =>
    cases writes
    obtain ⟨⟨le, -⟩, -⟩ := slice_eq_ok.mp isWritable
    exact sound_store sound (by omega)
  · cases writes

/-- What a call returns is what it reaches. -/
theorem returned_reaches {outcome : Outcome AllocatorError Queue}
    (returns : returned outcome = some (output, after)) : outcome.Reaches after := by
  cases outcome with
  | done queue =>
      cases returns
      exact .inl rfl
  | raised error queue =>
      cases returns
      exact .inr ⟨error, rfl⟩
  | trap => cases returns

theorem toOption_eq_some {α : Type} {checked : Checked AllocatorError α} {a : α} :
    checked.toOption = some a ↔ checked = .ok a := by
  cases checked <;> simp [Except.toOption]

/-- Every call keeps it so, also one that fails. -/
theorem sound_call {queueCall : Call} (sound : Sound queue)
    (calls : call queue queueCall = some (output, after)) : Sound after := by
  cases queueCall with
  | push answer bytes => exact sound_push sound (returned_reaches calls)
  | pushEx answer bytes =>
      obtain ⟨written, writes, returns⟩ := Option.bind_eq_some_iff.mp calls
      exact sound_pushEx (sound_write sound (toOption_eq_some.mp writes))
        (returned_reaches returns)
  | pop =>
      obtain ⟨⟨popped, rest⟩, pops, pair⟩ := Option.map_eq_some_iff.mp calls
      cases pair
      have pops := toOption_eq_some.mp pops
      unfold pop at pops
      split at pops
      · cases pops
        exact sound
      · obtain ⟨r, -, rest⟩ := Checked.bind_eq_ok.mp pops
        cases rest
        exact ⟨sound.length, sound.page⟩
  | peek =>
      obtain ⟨peeked, -, pair⟩ := Option.map_eq_some_iff.mp calls
      cases pair
      exact sound

/-- It holds of every queue that any calls lead to. -/
theorem reached_sound (started : init initial = .ok start) {calls : List Call}
    (reached : run (next call) start calls = some queue) : Sound queue := by
  refine run_preserves Sound ?_ (sound_init started) reached
  intro state queueCall after sound step
  obtain ⟨⟨output, queue⟩, calls, rfl⟩ := Option.map_eq_some_iff.mp step
  exact sound_call sound calls

/-! ### How full a queue is -/

/-- The new size is no more than half of the capacity, or the capacity times a power of two: it
is then doubled to exactly twice the size. -/
def GrowsToHalf (queue : Queue) (newsize : Nat) : Prop :=
  2 * (queue.size + newsize) ≤ queue.capacity ∨
    ∃ k, queue.size + newsize = queue.capacity * 2 ^ k

/-- The first doubling that is more than a size is twice this size when the size is one of the
doublings before. -/
theorem half_of_doubled_iff {capacity size k : Nat} (positive : 0 < capacity)
    (full : capacity * 2 ^ k ≤ size) (room : size < capacity * 2 ^ (k + 1)) :
    2 * size ≤ capacity * 2 ^ (k + 1) ↔ ∃ j, size = capacity * 2 ^ j := by
  have twice : capacity * 2 ^ (k + 1) = 2 * (capacity * 2 ^ k) := by ring
  constructor
  · intro half
    exact ⟨k, by omega⟩
  · rintro ⟨j, rfl⟩
    have low : k ≤ j := (Nat.pow_le_pow_iff_right (by decide)).mp
      (Nat.le_of_mul_le_mul_left full positive)
    have high : j < k + 1 := (Nat.pow_lt_pow_iff_right (by decide)).mp
      (Nat.lt_of_mul_lt_mul_left room)
    obtain rfl : j = k := by omega
    exact Nat.le_of_eq twice.symm

theorem expandCapacity_half_iff (sound : Sound queue) (some_ : newsize ≠ 0)
    (expands : queue.expandCapacity answer newsize = .done after) :
    2 * after.size ≤ after.capacity ↔ GrowsToHalf queue newsize := by
  have expanded := expandCapacity_expanded sound.positive some_ answer
  rw [expands] at expanded
  cases expanded with
  | fits room =>
      have notDoubled : ¬ ∃ k, queue.size + newsize = queue.capacity * 2 ^ k := by
        rintro ⟨k, same⟩
        have le := le_doubled queue.capacity k
        omega
      exact (or_iff_left notDoubled).symm
  | grown fresh isAnswer k full room data allocated =>
      have le := le_doubled queue.capacity k
      have notHalf : ¬ 2 * (queue.size + newsize) ≤ queue.capacity := by
        have positive := sound.positive
        omega
      rw [GrowsToHalf, or_iff_right notHalf]
      exact half_of_doubled_iff sound.positive full room

/-- After a push that succeeds, a queue that any calls lead to is at most half full exactly when
the new size is at most half of the capacity before, or just this capacity doubled any number of
times. -/
theorem half_free_iff (started : init initial = .ok start) {calls : List Call}
    (reached : run (next call) start calls = some queue) (answer : Answer) :
    (∀ bytes after, bytes ≠ [] → queue.push answer bytes = .done after →
      (2 * after.size ≤ after.capacity ↔ GrowsToHalf queue bytes.length)) ∧
    (∀ size after, size ≠ 0 → queue.pushEx answer size = .done after →
      (2 * after.size ≤ after.capacity ↔ GrowsToHalf queue size)) := by
  have sound := reached_sound started reached
  constructor
  · intro bytes after nonempty pushes
    have some_ : bytes.length ≠ 0 := fun none => nonempty (List.length_eq_zero_iff.mp none)
    rw [push, if_neg some_] at pushes
    obtain ⟨roomy, expands, copies⟩ := Outcome.andThen_eq_done.mp pushes
    split at copies
    · have halves := expandCapacity_half_iff sound some_ expands
      cases copies
      exact halves
    · cases copies
  · intro size after some_ pushes
    rw [pushEx, if_neg some_] at pushes
    exact expandCapacity_half_iff sound some_ pushes

section Pushes

theorem returned_eq_ok {outcome : Outcome AllocatorError Queue}
    (returns : returned outcome = some (.ok bytes, after)) : outcome = .done after := by
  cases outcome with
  | done queue =>
      cases returns
      rfl
  | raised error queue => cases returns
  | trap => cases returns

/-- 3000 bytes fit into a page. -/
theorem push_page :
    ∃ after, page.push zeroed (List.replicate 3000 7) = .done after ∧ after.size = 3000 ∧
      after.capacity = 4096 := by
  have calls : (call page (.push zeroed (List.replicate 3000 7))).map
      (fun result => (result.1.toOption, result.2.size, result.2.capacity)) =
        some (some [], 3000, 4096) := by decide +kernel
  obtain ⟨⟨output, after⟩, returns, same⟩ := Option.map_eq_some_iff.mp calls
  rw [Prod.mk.injEq, Prod.mk.injEq] at same
  obtain ⟨isOk, size, capacity⟩ := same
  cases output with
  | error error => cases isOk
  | ok bytes => exact ⟨after, returned_eq_ok returns, size, capacity⟩

theorem half_free_iff_page :
    ∃ after, page.push zeroed (List.replicate 3000 7) = .done after ∧
      (2 * after.size ≤ after.capacity ↔ GrowsToHalf page 3000) := by
  obtain ⟨after, pushes, -⟩ := push_page
  have length : (List.replicate 3000 (7 : UInt8)).length = 3000 := List.length_replicate
  have reached : run (next call) page [] = some page := rfl
  have nonempty : List.replicate 3000 (7 : UInt8) ≠ [] :=
    List.ne_nil_of_length_pos (by rw [length]; decide)
  have halves := (half_free_iff init_page reached zeroed).1 _ after nonempty pushes
  rw [length] at halves
  exact ⟨after, pushes, halves⟩

/-- They fill almost three quarters of it. -/
theorem not_half_free :
    ∃ after, init zeroed = .ok page ∧ page.push zeroed (List.replicate 3000 7) = .done after ∧
      after.size = 3000 ∧ after.capacity = 4096 ∧ ¬ 2 * after.size ≤ after.capacity := by
  obtain ⟨after, pushes, size, capacity⟩ := push_page
  refine ⟨after, init_page, pushes, size, capacity, ?_⟩
  rw [size, capacity]
  decide

end Pushes

/-! ### What a failure leaves -/

/-- Nothing has changed, and whatever is called from now on stays in range. -/
structure Untouched (queue after : Queue) : Prop where
  size : after.size = queue.size
  capacity : after.capacity = queue.capacity
  peeked : after.peek = queue.peek
  later : ∀ calls, EachStep Allowed (next call) after calls → (observe call after calls).isSome

/-- The size and the capacity have grown, no peek gives what it gave before, and a peek or, though
the capacity leaves room for it, the push of one byte is out of range. -/
structure Spoiled (queue after : Queue) : Prop where
  size : queue.size < after.size
  capacity : queue.capacity < after.capacity
  peeked : ∀ bytes, queue.peek = .ok bytes → after.peek ≠ .ok bytes
  later : call after .peek = none ∨
    (after.size + 1 < after.capacity ∧ ∀ answer byte, call after (.push answer [byte]) = none)

theorem Spoiled.not_untouched (spoiled : Spoiled queue after) : ¬ Untouched queue after := by
  intro untouched
  exact absurd untouched.size (Nat.ne_of_gt spoiled.size)

/-- A byte that seems to have room, but has no memory. -/
theorem push_traps (positive : 0 < queue.capacity) (room : queue.size + 1 < queue.capacity)
    (full : queue.data.length ≤ queue.size) (answer : Answer) (byte : UInt8) :
    call queue (.push answer [byte]) = none := by
  have expanded := expandCapacity_expanded positive Nat.one_ne_zero answer
  have le := le_doubled queue.capacity
  have pushes : queue.push answer [byte] = .trap := by
    rw [push, if_neg (by simp)]
    show (queue.expandCapacity answer 1).andThen _ = .trap
    generalize queue.expandCapacity answer 1 = outcome at expanded
    cases expanded with
    | fits room =>
        rw [Outcome.done_andThen]
        apply if_neg
        show ¬ queue.size + 1 ≤ queue.data.length
        omega
    | grown fresh isAnswer k filled =>
        have := le k
        omega
    | failed isAnswer k filled =>
        have := le k
        omega
    | trap => rfl
  rw [call, pushes]
  rfl

theorem expandCapacity_spoils (sound : Sound queue) (some_ : newsize ≠ 0)
    (fails : queue.expandCapacity answer newsize = .raised error after) : Spoiled queue after := by
  have expanded := expandCapacity_expanded sound.positive some_ answer
  rw [fails] at expanded
  cases expanded with
  | failed isAnswer k full room small =>
      have length := sound.length
      have page := sound.page
      unfold pageSize at page
      have le := le_doubled queue.capacity k
      have twice : queue.capacity * 2 ^ (k + 1) = 2 * (queue.capacity * 2 ^ k) := by ring
      refine ⟨?_, ?_, ?_, ?_⟩
      · exact Nat.lt_add_of_pos_right (Nat.pos_of_ne_zero some_)
      · show queue.capacity < queue.capacity * 2 ^ (k + 1)
        omega
      · intro bytes before later
        have sizeBefore := slice_length before
        have sizeAfter := slice_length later
        change bytes.length = queue.size + newsize - 0 at sizeAfter
        omega
      · by_cases short : queue.data.length < queue.size + newsize
        · left
          have traps : Queue.peek ⟨queue.data, queue.capacity * 2 ^ (k + 1),
              queue.size + newsize⟩ = Checked.trap := slice_of_gt short
          rw [call, traps]
          rfl
        · right
          have oneMore : queue.size + newsize + 1 < queue.capacity * 2 ^ (k + 1) := by omega
          refine ⟨oneMore, ?_⟩
          apply push_traps
          · exact Nat.zero_lt_of_lt oneMore
          · exact oneMore
          · exact le_trans length (le_trans le full)

/-- A push for which there is no memory never leaves a queue that any calls lead to as it was. -/
theorem failure_spoils (started : init initial = .ok start) {calls : List Call}
    (reached : run (next call) start calls = some queue) (answer : Answer)
    (error : AllocatorError) :
    (∀ bytes after, queue.push answer bytes = .raised error after →
      ¬ Untouched queue after ∧ Spoiled queue after) ∧
    (∀ size after, queue.pushEx answer size = .raised error after →
      ¬ Untouched queue after ∧ Spoiled queue after) := by
  have sound := reached_sound started reached
  constructor
  · intro bytes after fails
    unfold push at fails
    split at fails
    · cases fails
    · next some_ =>
      have expands : queue.expandCapacity answer bytes.length = .raised error after := by
        rcases Outcome.andThen_eq_raised.mp fails with expands | ⟨roomy, -, copies⟩
        · exact expands
        · split at copies <;> cases copies
      have spoiled := expandCapacity_spoils sound some_ expands
      exact ⟨spoiled.not_untouched, spoiled⟩
  · intro size after fails
    unfold pushEx at fails
    split at fails
    · cases fails
    · next some_ =>
      have spoiled := expandCapacity_spoils sound some_ fails
      exact ⟨spoiled.not_untouched, spoiled⟩

section Failures

theorem returned_eq_error {outcome : Outcome AllocatorError Queue}
    (returns : returned outcome = some (.error error, after)) : outcome = .raised error after := by
  cases outcome with
  | done queue => cases returns
  | raised error queue =>
      cases returns
      rfl
  | trap => cases returns

/-- There is no memory for 5000 bytes. -/
theorem push_fails :
    ∃ error after, page.push none (List.replicate 5000 7) = .raised error after ∧
      after.size = 5000 ∧ after.capacity = 8192 ∧ call after .peek = none := by
  have calls : (call page (.push none (List.replicate 5000 7))).map
      (fun result => (result.1.toOption, result.2.size, result.2.capacity,
        (call result.2 .peek).isNone)) =
        some (none, 5000, 8192, true) := by decide +kernel
  obtain ⟨⟨output, after⟩, returns, same⟩ := Option.map_eq_some_iff.mp calls
  rw [Prod.mk.injEq, Prod.mk.injEq, Prod.mk.injEq] at same
  obtain ⟨isError, size, capacity, traps⟩ := same
  cases output with
  | error error =>
      exact ⟨error, after, returned_eq_error returns, size, capacity,
        Option.isNone_iff_eq_none.mp traps⟩
  | ok bytes => cases isError

theorem failure_spoils_page :
    ∃ error after, page.push none (List.replicate 5000 7) = .raised error after ∧
      ¬ Untouched page after := by
  obtain ⟨error, after, fails, -⟩ := push_fails
  have reached : run (next call) page [] = some page := rfl
  exact ⟨error, after, fails, ((failure_spoils init_page reached none error).1 _ after fails).1⟩

/-- The queue then takes itself to hold 5000 bytes of a page of 4096, and a peek traps. -/
theorem failure_traps :
    ∃ error after, init zeroed = .ok page ∧
      page.push none (List.replicate 5000 7) = .raised error after ∧ after.size = 5000 ∧
      after.capacity = 8192 ∧ call after .peek = none ∧ ¬ Untouched page after := by
  obtain ⟨error, after, fails, size, capacity, traps⟩ := push_fails
  refine ⟨error, after, init_page, fails, size, capacity, traps, ?_⟩
  intro untouched
  have same := untouched.size
  rw [size] at same
  cases same

end Failures

end NetworkExercises.ZigUtils
