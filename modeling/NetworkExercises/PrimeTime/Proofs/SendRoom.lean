/-
Module: NetworkExercises.PrimeTime.Proofs.SendRoom
Purpose: The send queue of the C server always has room for the next response, which is written
  before the queue can grow.
Main exports: answeredLoop, builderLoop_answered, Roomy, pushResponse_roomy, responses_fit
-/
import NetworkExercises.CUtils.Proofs.Queue
import NetworkExercises.PrimeTime.C

namespace NetworkExercises.PrimeTime.C

open Lib CUtils

variable {parse : Parser} {sdq : Queue}

/-! ### The requests of a call -/

/-- The requests that the loop of `is_prime_request_builder` answers, one after the other. -/
def answeredLoop (parse : Parser) (reqSize : Nat) :
    (turns start : Nat) → (curr : IsPrimeRequest) → (memory : Bytes) → List IsPrimeRequest
  | 0, _, _, _ => []
  | turns + 1, start, curr, memory =>
      match strtokR memory start with
      | none => []
      | some (text, token, next, memory) =>
          if token ≥ reqSize then []
          else
            let (malformed, curr) := isPrimeRequestMalformed parse curr text
            match isPrime curr.number with
            | none => []
            | some prime =>
                let curr := { curr with isPrime := prime }
                if malformed then [curr]
                else curr :: answeredLoop parse reqSize turns next curr memory

/-- The requests that `is_prime_request_builder` answers. -/
def answered (parse : Parser) (curr : IsPrimeRequest) (rawRequest : Bytes) (reqSize : Nat) :
    List IsPrimeRequest :=
  answeredLoop parse reqSize (rawRequest.length + 1) 0 curr rawRequest

/-- The loop pushes their responses, and nothing else. -/
theorem builderLoop_answered {reqSize turns start : Nat} {curr : IsPrimeRequest}
    {builder built : Builder}
    (ran : builderLoop parse reqSize turns start curr builder = some built) :
    built.sdq =
      (answeredLoop parse reqSize turns start curr builder.memory).foldl pushResponse
        builder.sdq := by
  induction turns generalizing start curr builder with
  | zero =>
      cases ran
      rfl
  | succ turns ih =>
      rw [builderLoop] at ran
      rw [answeredLoop]
      cases token : strtokR builder.memory start with
      | none =>
          rw [token] at ran
          cases ran
          rfl
      | some found =>
          obtain ⟨text, place, next, memory⟩ := found
          simp only [token] at ran ⊢
          by_cases beyond : place ≥ reqSize
          · rw [if_pos beyond] at ran
            cases ran
            simp [beyond]
          · rw [if_neg beyond] at ran
            obtain ⟨prime, primality, ran⟩ := Option.bind_eq_some_iff.mp ran
            simp only [beyond, primality, if_false]
            cases malformed : (isPrimeRequestMalformed parse curr text).1 with
            | true =>
                rw [malformed, if_pos rfl] at ran
                cases ran
                rfl
            | false =>
                rw [malformed, if_neg Bool.false_ne_true] at ran
                exact ih ran

theorem isPrimeRequestBuilder_answered {curr : IsPrimeRequest} {rawRequest : Bytes}
    {reqSize : Nat} {built : Builder}
    (ran : isPrimeRequestBuilder parse curr sdq rawRequest reqSize = some built) :
    built.sdq = (answered parse curr rawRequest reqSize).foldl pushResponse sdq :=
  builderLoop_answered ran

/-! ### Room -/

theorem formatResponse_length (prime : Bool) :
    (formatResponse prime).length = if prime then 34 else 35 := by
  cases prime <;> decide

/-- `PRIME_RESPONSE_ILL_RESPONSE_SIZE`. -/
theorem illResponse_length : illResponse.length = 34 := by decide

/-- A response, with the NUL of `sprintf`, is at most 36 bytes. -/
theorem isPrimeBegetResponse_le (request : IsPrimeRequest) :
    (isPrimeBegetResponse request).1.length ≤ 36 := by
  unfold isPrimeBegetResponse
  split
  · rw [illResponse_length]
    decide
  · rw [List.length_append, formatResponse_length]
    split <;> decide

/-- What is pushed of it is at most 35 bytes, and not nothing. -/
theorem isPrimeBegetResponse_size (request : IsPrimeRequest) :
    (isPrimeBegetResponse request).2 ≠ 0 ∧ (isPrimeBegetResponse request).2 ≤ 35 := by
  unfold isPrimeBegetResponse
  split
  · rw [illResponse_length]
    decide
  · cases request.isPrime <;> simp [formatResponse_length]

/-- A queue that was created large enough has room for a response and its NUL. -/
structure Roomy (sdq : Queue) : Prop where
  valid : sdq.Valid
  large : 180 ≤ sdq.capacity
  room : 36 ≤ sdq.freeCapacity

theorem roomy_init (memory : Nat → UInt8) {capacity : Nat} (large : 180 ≤ capacity) :
    Roomy (queueInit memory capacity) := by
  have holds := holds_init memory (Nat.lt_of_lt_of_le (by decide) large)
  have init : queueInit memory capacity = ⟨memory, capacity, 0, capacity, 0⟩ := by
    have some_capacity : capacity ≠ 0 := by omega
    simp [queueInit, queueInitData, some_capacity]
  refine ⟨holds.valid, ?_, ?_⟩
  · rw [init]
    exact large
  · rw [init]
    exact le_trans (by decide) large

/-- A queue that is empty again keeps its capacity. -/
theorem roomy_reset (roomy : Roomy sdq) : Roomy (queueReset sdq) :=
  ⟨⟨rfl, rfl, Nat.zero_lt_of_lt roomy.large⟩, roomy.large, le_trans (by decide) roomy.large⟩

/-- The growth leaves a fifth of the free bytes unused, so that a queue which is short of room has
grown large. -/
theorem queuePushEx_roomy (roomy : Roomy sdq) {size : Nat} (someBytes : size ≠ 0)
    (few : size ≤ 35) : Roomy (queuePushEx sdq size) := by
  obtain ⟨valid, large, room⟩ := roomy
  obtain ⟨capacity, grows, fits, grown⟩ := queueMakeRoom_grown valid someBytes
  unfold freeCapBuffer at fits
  rw [queuePushEx, if_neg someBytes, grown]
  refine ⟨⟨rfl, rfl, ?_⟩, ?_, ?_⟩
  · show sdq.size + size < capacity
    omega
  · show 180 ≤ capacity
    omega
  · show 36 ≤ capacity - (sdq.size + size)
    omega

theorem pushResponse_roomy (roomy : Roomy sdq) (request : IsPrimeRequest) :
    Roomy (pushResponse sdq request) := by
  obtain ⟨someBytes, few⟩ := isPrimeBegetResponse_size request
  have stored :
      Roomy { sdq with data := store sdq.data sdq.head (isPrimeBegetResponse request).1 } :=
    ⟨⟨roomy.valid.head, roomy.valid.free, roomy.valid.room⟩, roomy.large, roomy.room⟩
  exact queuePushEx_roomy stored someBytes few

theorem foldl_pushResponse_roomy (roomy : Roomy sdq) (requests : List IsPrimeRequest) :
    Roomy (requests.foldl pushResponse sdq) := by
  induction requests generalizing sdq with
  | nil => exact roomy
  | cons request requests ih => exact ih (pushResponse_roomy roomy request)

/-- Each request with the queue at whose head its response is written. -/
def writes (sdq : Queue) : List IsPrimeRequest → List (Queue × IsPrimeRequest)
  | [] => []
  | request :: requests => (sdq, request) :: writes (pushResponse sdq request) requests

theorem writes_roomy (roomy : Roomy sdq) (requests : List IsPrimeRequest) :
    ∀ write ∈ writes sdq requests, Roomy write.1 := by
  induction requests generalizing sdq with
  | nil => exact List.forall_mem_nil _
  | cons request requests ih =>
      exact List.forall_mem_cons.mpr ⟨roomy, ih (pushResponse_roomy roomy request)⟩

/-! ### Calls -/

/-- What is done with the send queue: a call of the builder, or its bytes are taken. -/
inductive SendCall where
  | build (curr : IsPrimeRequest) (rawRequest : Bytes) (reqSize : Nat)
  | pop (size : Nat)
  | popNoCopy
  | reset

/-- The send queue after a call. -/
def sendCall (parse : Parser) (sdq : Queue) : SendCall → Option Queue
  | .build curr rawRequest reqSize =>
      (isPrimeRequestBuilder parse curr sdq rawRequest reqSize).map Builder.sdq
  | .pop size => some (queuePop sdq size).2.2
  | .popNoCopy => some (queuePopNoCopy sdq).2
  | .reset => some (queueReset sdq)

theorem sendCall_roomy (sdq : Queue) (event : SendCall) (after : Queue) (roomy : Roomy sdq)
    (stepEq : sendCall parse sdq event = some after) : Roomy after := by
  cases event with
  | build curr rawRequest reqSize =>
      obtain ⟨built, builds, rfl⟩ := Option.map_eq_some_iff.mp stepEq
      rw [isPrimeRequestBuilder_answered builds]
      exact foldl_pushResponse_roomy roomy _
  | pop size =>
      cases stepEq
      unfold queuePop
      split
      · exact roomy
      · split
        · exact roomy
        · exact roomy_reset roomy
  | popNoCopy =>
      cases stepEq
      unfold queuePopNoCopy
      split
      · exact roomy
      · exact roomy_reset roomy
  | reset =>
      cases stepEq
      exact roomy_reset roomy

/-- Whatever was done with a send queue of at least 180 bytes, each response of a further call fits
into what is free when it is written. -/
theorem responses_fit (parse : Parser) (memory : Nat → UInt8) {capacity : Nat}
    (large : 180 ≤ capacity) {calls : List SendCall} {sdq : Queue}
    (ran : run (sendCall parse) (queueInit memory capacity) calls = some sdq)
    (curr : IsPrimeRequest) (rawRequest : Bytes) (reqSize : Nat) :
    ∀ write ∈ writes sdq (answered parse curr rawRequest reqSize),
      (isPrimeBegetResponse write.2).1.length ≤ 36 ∧ 36 ≤ write.1.freeCapacity := by
  intro write member
  have roomy := run_preserves Roomy sendCall_roomy (roomy_init memory large) ran
  exact ⟨isPrimeBegetResponse_le write.2, (writes_roomy roomy _ write member).room⟩

/-- A malformed request on a queue of 180 bytes from which one response was taken. -/
theorem responses_fit_malformed :
    ∃ sdq, run (sendCall fun _ => none) (queueInit (fun _ => 0) 180)
        [.build ⟨false, false, 0⟩ [120, newline, 121, newline] 4, .popNoCopy] = some sdq ∧
      ∀ write ∈ writes sdq (answered (fun _ => none) ⟨false, false, 0⟩ [120, newline] 2),
        (isPrimeBegetResponse write.2).1.length ≤ 36 ∧ 36 ≤ write.1.freeCapacity := by
  obtain ⟨sdq, ran⟩ : ∃ sdq, run (sendCall fun _ => none) (queueInit (fun _ => 0) 180)
      [.build ⟨false, false, 0⟩ [120, newline, 121, newline] 4, .popNoCopy] = some sdq := ⟨_, rfl⟩
  exact ⟨sdq, ran, responses_fit (fun _ => none) (fun _ => 0) (by decide) ran _ _ _⟩

end NetworkExercises.PrimeTime.C
