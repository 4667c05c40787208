/-
Module: NetworkExercises.CUtils.Proofs.QueueRuns
Purpose: Any run of calls on a queue against the bytes that were pushed, and what
  `recv_request` adds to a queue that such a run leads to.
Main exports: QueueCall, call, pushed, Within, IntSized, call_refines, queue_refines_iff,
  requested, recvRequest_reached
-/
import NetworkExercises.Lib.Refinement
import NetworkExercises.CUtils.Proofs.Queue

namespace NetworkExercises.CUtils

open Lib
open SpeedDaemon (Arrival ReadEnd)

/-- The calls on a queue; before `queue_push_ex` its bytes are written at the head, and
`queue_pop` copies into storage of some size. -/
inductive QueueCall where
  | push (bytes : Bytes)
  | pushEx (bytes : Bytes)
  | pop (size : Nat)
  | popNoCopy
  | peek
  | reset

/-- The size and the bytes that a call gives, and the queue after it.  No more than the free
capacity is written before `queue_push_ex`. -/
def call (qu : Queue) : QueueCall → Option (Option (Int × Bytes) × Queue)
  | .push bytes => some (none, queuePush qu bytes)
  | .pushEx bytes => (recvChunk qu bytes).map fun qu => (none, qu)
  | .pop size =>
      let popped := queuePop qu size
      some (some (popped.2.1, popped.1), popped.2.2)
  | .popNoCopy =>
      let popped := queuePopNoCopy qu
      some (some (popped.1, load qu.data popped.1.toNat), popped.2)
  | .peek => some (some (queuePeek qu, load qu.data (queuePeek qu).toNat), qu)
  | .reset => some (none, queueReset qu)

/-- The calls on the bytes that were pushed: what is popped or peeked is all of them, unless the
storage is too small. -/
def pushed (held : Bytes) : QueueCall → Option (Option (Int × Bytes) × Bytes)
  | .push bytes => some (none, held ++ bytes)
  | .pushEx bytes => some (none, held ++ bytes)
  | .pop size =>
      if held = [] ∨ size < held.length then some (some (size, []), held)
      else some (some (held.length, held), [])
  | .popNoCopy => some (some (held.length, held), [])
  | .peek => some (some (held.length, held), held)
  | .reset => some (none, [])

/-- The memory that a call copies from or to lies in the queue. -/
def Within (qu : Queue) : QueueCall → Prop
  | .push bytes => bytes ≠ [] →
      (queueMakeRoom qu bytes.length).head + bytes.length ≤
        (queueMakeRoom qu bytes.length).capacity
  | .pushEx bytes => bytes.length ≤ qu.freeCapacity → qu.head + bytes.length ≤ qu.capacity
  | .pop _ | .popNoCopy | .peek => qu.size ≤ qu.capacity
  | .reset => True

/-- The size of what is looked at is an `int`. -/
def IntSized (held : Bytes) : QueueCall → Prop
  | .popNoCopy | .peek => held.length < 2 ^ 31
  | _ => True

variable {qu : Queue} {held bytes : Bytes} {size : Nat}

/-! ### One call -/

theorem Holds.within (holds : Holds qu held) (queueCall : QueueCall) : Within qu queueCall := by
  have head := holds.valid.head
  have free := holds.valid.free
  have room := holds.valid.room
  cases queueCall with
  | push bytes =>
      intro nonempty
      have someBytes : bytes.length ≠ 0 := fun none => nonempty (List.length_eq_zero_iff.mp none)
      obtain ⟨-, sizeEq, roomFor⟩ := queueMakeRoom_spec holds.valid someBytes
      rw [roomFor.head]
      exact Nat.le_of_lt roomFor.room
  | pushEx bytes =>
      intro fits
      omega
  | pop _ => exact Nat.le_of_lt room
  | popNoCopy => exact Nat.le_of_lt room
  | peek => exact Nat.le_of_lt room
  | reset => trivial

/-- `queue_pop` copies everything, or nothing. -/
theorem queuePop_eq (holds : Holds qu held) (size : Nat) :
    queuePop qu size =
      if held = [] ∨ size < held.length then ([], size, qu)
      else (held, held.length, queueReset qu) := by
  have sizeEq := holds.size_eq
  unfold queuePop
  by_cases none : held = []
  · rw [if_pos (by rw [sizeEq, none]; rfl), if_pos (.inl none)]
  · have positive := List.length_pos_iff.mpr none
    rw [if_neg (by omega)]
    by_cases small : size < held.length
    · rw [if_pos (by omega), if_pos (.inr small)]
    · rw [if_neg (by omega), if_neg (not_or.mpr ⟨none, small⟩), sizeEq, ← holds.contents]
      simp [queueReset, Queue.contents, sizeEq]

/-- A size that is returned as an `int`, and the bytes that it covers, are right exactly when it
is below 2^31. -/
theorem toInt_given_iff :
    (toInt held.length, given held) = ((held.length : Int), held) ↔
      held.length < 2 ^ 31 := by
  constructor
  · intro same
    rw [Prod.mk.injEq] at same
    by_contra large
    have missing := toInt_of_ge (Nat.le_of_not_lt large)
    omega
  · intro small
    rw [given_of_lt small, toInt_of_lt small]

/-- A call on the queue is one on the bytes that it holds. -/
theorem call_refines (qu : Queue) (held : Bytes) (queueCall : QueueCall)
    (output : Option (Int × Bytes)) (after : Queue) (holds : Holds qu held)
    (called : call qu queueCall = some (output, after)) :
    ∃ specified later, pushed held queueCall = some (specified, later) ∧ Holds after later ∧
      (output = specified ↔ IntSized held queueCall) := by
  cases queueCall with
  | push bytes =>
      cases called
      exact ⟨none, _, rfl, holds_push holds bytes, iff_of_true rfl trivial⟩
  | pushEx bytes =>
      obtain ⟨received, writes, ⟨⟩⟩ := Option.map_eq_some_iff.mp called
      exact ⟨none, _, rfl, holds_recvChunk holds writes, iff_of_true rfl trivial⟩
  | pop size =>
      simp only [call, queuePop_eq holds] at called
      by_cases kept : held = [] ∨ size < held.length
      · rw [if_pos kept, Option.some.injEq, Prod.mk.injEq] at called
        obtain ⟨rfl, rfl⟩ := called
        exact ⟨_, _, if_pos kept, holds, iff_of_true rfl trivial⟩
      · rw [if_neg kept, Option.some.injEq, Prod.mk.injEq] at called
        obtain ⟨rfl, rfl⟩ := called
        exact ⟨_, _, if_neg kept, holds_reset holds, iff_of_true rfl trivial⟩
  | popNoCopy =>
      obtain ⟨popped, pops, empty, -⟩ := holds_pop holds
      simp only [call, pops, load_given holds, Option.some.injEq, Prod.mk.injEq] at called
      obtain ⟨rfl, rfl⟩ := called
      exact ⟨_, _, rfl, empty, Option.some_inj.trans toInt_given_iff⟩
  | peek =>
      simp only [call, queuePeek_eq holds, load_given holds, Option.some.injEq,
        Prod.mk.injEq] at called
      obtain ⟨rfl, rfl⟩ := called
      exact ⟨_, _, rfl, holds, Option.some_inj.trans toInt_given_iff⟩
  | reset =>
      cases called
      exact ⟨none, _, rfl, holds_reset holds, iff_of_true rfl trivial⟩

/-! ### Runs -/

theorem reached_holds {memory : Nat → UInt8} {capacity : Nat} (positive : 0 < capacity)
    {calls : List QueueCall} {outputs : List (Option (Int × Bytes))}
    (ran : observe call (queueInit memory capacity) calls = some (outputs, qu)) :
    Holds qu qu.contents := by
  obtain ⟨-, held, -, holds, -⟩ := observe_refines_iff Holds IntSized call_refines
    (holds_init memory positive) ran
  exact ⟨holds.valid, rfl⟩

/-- Any run of calls on a queue is one on the bytes that were pushed; the queue keeps its numbers
in order and copies within its memory, and every call gives what it should exactly when no more
than an `int` can count is popped or peeked without a copy. -/
theorem queue_refines_iff (memory : Nat → UInt8) {capacity : Nat} (positive : 0 < capacity)
    {calls : List QueueCall} {outputs : List (Option (Int × Bytes))}
    (ran : observe call (queueInit memory capacity) calls = some (outputs, qu)) :
    ∃ specified held, observe pushed [] calls = some (specified, held) ∧
      qu.contents = held ∧ qu.head = qu.size ∧ qu.freeCapacity = qu.capacity - qu.size ∧
      0 < qu.freeCapacity ∧ EachStep Within (next call) (queueInit memory capacity) calls ∧
      (outputs = specified ↔ EachStep IntSized (next pushed) [] calls) := by
  obtain ⟨specified, held, specRan, holds, same⟩ := observe_refines_iff Holds IntSized call_refines
    (holds_init memory positive) ran
  have kept : EachStep Within (next call) (queueInit memory capacity) calls := by
    have always : EachStep (fun _ _ => True) (next call) (queueInit memory capacity) calls :=
      eachStep_of_forall (fun _ _ => trivial) calls
    refine EachStep.of_invariant (fun qu => ∃ held, Holds qu held) ?_ ?_
      ⟨[], holds_init memory positive⟩ always
    · rintro qu queueCall ⟨held, holds⟩ -
      exact holds.within queueCall
    · rintro qu queueCall after ⟨held, holds⟩ - stepEq
      obtain ⟨⟨output, after⟩, called, rfl⟩ := Option.map_eq_some_iff.mp stepEq
      obtain ⟨-, later, -, holdsAfter, -⟩ :=
        call_refines qu held queueCall output after holds called
      exact ⟨later, holdsAfter⟩
  exact ⟨specified, held, specRan, holds.contents, holds.valid.head, holds.valid.free,
    holds.valid.free_pos, kept, same⟩

/-- Ten bytes over a queue of four, peeked and popped. -/
theorem queue_refines_iff_ten :
    ∃ qu outputs specified,
      observe call (queueInit (fun _ => 0) 4) [.push [1, 2, 3, 4, 5, 6], .peek,
        .pushEx [7, 8, 9, 10], .popNoCopy] = some (outputs, qu) ∧
      observe pushed [] [.push [1, 2, 3, 4, 5, 6], .peek, .pushEx [7, 8, 9, 10], .popNoCopy] =
        some (specified, []) ∧
      outputs = specified := by
  obtain ⟨⟨outputs, qu⟩, ran⟩ : ∃ result, observe call (queueInit (fun _ => 0) 4)
      [.push [1, 2, 3, 4, 5, 6], .peek, .pushEx [7, 8, 9, 10], .popNoCopy] = some result :=
    ⟨_, rfl⟩
  obtain ⟨specified, held, specRan, -, -, -, -, -, same⟩ :=
    queue_refines_iff (fun _ => 0) (by decide) ran
  have empty : held = [] := by
    cases specRan
    rfl
  subst empty
  exact ⟨qu, outputs, _, ran, specRan, same.mpr (by simp [EachStep, IntSized, next, pushed])⟩

/-- A push of 2^31 bytes or more is not popped as what it is. -/
theorem push_popNoCopy (memory : Nat → UInt8) {capacity : Nat} (positive : 0 < capacity)
    (large : 2 ^ 31 ≤ bytes.length) :
    ∃ outputs qu specified,
      observe call (queueInit memory capacity) [.push bytes, .popNoCopy] = some (outputs, qu) ∧
      observe pushed [] [.push bytes, .popNoCopy] = some (specified, []) ∧
      outputs ≠ specified := by
  have holds := holds_push (holds_init memory positive) bytes
  rw [List.nil_append] at holds
  obtain ⟨popped, pops, -⟩ := holds_pop holds
  refine ⟨[none, some (toInt bytes.length, given bytes)], popped, _,
    by simp [observe, call, pops, load_given holds], rfl, ?_⟩
  intro same
  rw [List.cons.injEq, List.cons.injEq, Option.some.injEq] at same
  exact absurd (toInt_given_iff.mp same.2.1) (Nat.not_lt_of_le large)

/-- The size of 2^31 bytes is returned as a negative number. -/
theorem large_miscounted :
    ∃ outputs qu specified,
      observe call (queueInit (fun _ => 0) 512) [.push (List.replicate (2 ^ 31) 7), .popNoCopy] =
        some (outputs, qu) ∧
      observe pushed [] [.push (List.replicate (2 ^ 31) 7), .popNoCopy] = some (specified, []) ∧
      outputs ≠ specified := by
  have length : (List.replicate (2 ^ 31) (7 : UInt8)).length = 2 ^ 31 := List.length_replicate
  exact push_popNoCopy (fun _ => 0) (by decide) (le_of_eq length.symm)

/-! ### Receiving -/

/-- The numbers of bytes that `recv_request` asks `recv` for, the one before the end included. -/
def requested (qu : Queue) : List Bytes → List Nat
  | [] => [qu.freeCapacity]
  | chunk :: chunks =>
      qu.freeCapacity :: (recvChunk qu chunk).elim [] fun qu => requested qu chunks

theorem requested_pos (holds : Holds qu held) (chunks : List Bytes) :
    ∀ count ∈ requested qu chunks, 0 < count := by
  induction chunks generalizing qu held with
  | nil => simpa [requested] using holds.valid.free_pos
  | cons chunk chunks ih =>
      rw [requested, List.forall_mem_cons]
      refine ⟨holds.valid.free_pos, ?_⟩
      cases written : recvChunk qu chunk with
      | none => exact List.forall_mem_nil _
      | some received => exact ih (holds_recvChunk holds written)

/-- When no call of `recv` gives more than it was asked for, all of them find room. -/
theorem recvLoop_returns {chunks : List Bytes}
    (possible : ∀ pair ∈ chunks.zip (requested qu chunks), pair.1.length ≤ pair.2) :
    ∃ received, recvLoop qu chunks = some received := by
  induction chunks generalizing qu with
  | nil => exact ⟨qu, rfl⟩
  | cons chunk chunks ih =>
      rw [requested, List.zip_cons_cons, List.forall_mem_cons] at possible
      obtain ⟨fits, others⟩ := possible
      have written : recvChunk qu chunk = some _ := if_pos fits
      rw [written, Option.elim_some] at others
      obtain ⟨received, ran⟩ := ih others
      exact ⟨received, by rw [recvLoop, written]; exact ran⟩

/-- On a queue that any calls lead to, those of an earlier `recv_request` too, `recv_request` never
asks for no bytes; it returns what the last `recv` says, and puts what was received behind what the
queue holds. -/
theorem recvRequest_reached (memory : Nat → UInt8) {capacity : Nat} (positive : 0 < capacity)
    {calls : List QueueCall} {outputs : List (Option (Int × Bytes))}
    (ran : observe call (queueInit memory capacity) calls = some (outputs, qu))
    (arrival : Arrival) :
    (∀ count ∈ requested qu arrival.chunks, 0 < count) ∧
    ((∀ pair ∈ arrival.chunks.zip (requested qu arrival.chunks), pair.1.length ≤ pair.2) →
      ∃ received, recvRequest qu arrival = some (recvResult arrival.ending, received) ∧
        received.contents = qu.contents ++ arrival.bytes) := by
  have holds := reached_holds positive ran
  refine ⟨requested_pos holds arrival.chunks, fun possible => ?_⟩
  obtain ⟨received, receives⟩ := recvLoop_returns possible
  exact ⟨received, by rw [recvRequest, receives, Option.map_some],
    (holds_recvLoop holds receives).contents⟩

/-- Two bytes come to a queue of four that holds two. -/
theorem recvRequest_reached_two :
    ∃ qu received,
      observe call (queueInit (fun _ => 0) 4) [.push [1, 2]] = some ([none], qu) ∧
      recvRequest qu ⟨[[3], [4]], .wouldBlock, by decide⟩ = some (-1, received) ∧
      received.contents = qu.contents ++ [3, 4] := by
  obtain ⟨qu, ran⟩ : ∃ qu, observe call (queueInit (fun _ => 0) 4) [.push [1, 2]] =
      some ([none], qu) := ⟨_, rfl⟩
  obtain ⟨received, receives, contents⟩ :=
    (recvRequest_reached (fun _ => 0) (by decide) ran ⟨[[3], [4]], .wouldBlock, by decide⟩).2 (by
      cases ran
      decide)
  exact ⟨qu, received, ran, receives, contents⟩

end NetworkExercises.CUtils
