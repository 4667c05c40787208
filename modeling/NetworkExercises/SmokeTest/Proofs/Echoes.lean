/-
Module: NetworkExercises.SmokeTest.Proofs.Echoes
Purpose: Every connection is sent back what it sent, whatever the others send, as long as an
  `int` counts the bytes of each event.
Main exports: handled, received, Serves, run_serves, Counted, echoed_back_iff
-/
import NetworkExercises.CUtils.Proofs.Queue
import NetworkExercises.Lib.Run
import NetworkExercises.SmokeTest.Server

namespace NetworkExercises.SmokeTest

open Lib CUtils
open SpeedDaemon (SocketFd Net Arrival)

/-! ### What a connection is due -/

/-- What an event adds to the bytes of a connection, when of the bytes of an event without an
error `part` is taken; a new connection begins anew. -/
def arrive (part : Bytes → Bytes) (fd : SocketFd) (past : Bytes) : Event → Bytes
  | .accept other => if other = fd then [] else past
  | .data other arrival _ =>
      if other = fd ∧ ¬ recvResult arrival.ending < -1 then past ++ part arrival.bytes else past

def handled (part : Bytes → Bytes) (fd : SocketFd) (events : List Event) : Bytes :=
  events.foldl (arrive part fd) []

/-- The bytes received from a connection since it was accepted, in its events that ended
without an error. -/
def received (fd : SocketFd) (events : List Event) : Bytes := handled id fd events

theorem handled_concat (part : Bytes → Bytes) (fd : SocketFd) (events : List Event)
    (event : Event) :
    handled part fd (events ++ [event]) = arrive part fd (handled part fd events) event := by
  rw [handled, List.foldl_append]
  rfl

/-- `sendall` hands over everything. -/
def Event.Transmits : Event → Prop
  | .accept _ => True
  | .data _ _ sends => CUtils.Transmits sends

/-- An `int` counts the bytes of an event without an error. -/
def Event.Counted : Event → Prop
  | .accept _ => True
  | .data _ arrival _ => ¬ recvResult arrival.ending < -1 → arrival.bytes.length < 2 ^ 31

variable {state next : ServerState} {fd : SocketFd} {arrival : Arrival}
  {sends : Bytes → Sending} {past : List Event}

theorem counted_data : (Event.data fd arrival sends).Counted ↔
    (¬ recvResult arrival.ending < -1 → arrival.bytes.length < 2 ^ 31) := Iff.rfl

/-! ### One event -/

/-- Closing is all that is left to do. -/
theorem finishStep_spec (state : ServerState) (fd : SocketFd) (res : Int) :
    (finishStep state fd res).qu = state.qu ∧ (finishStep state fd res).net = state.net := by
  unfold finishStep
  split
  · exact ⟨rfl, rfl⟩
  · exact ⟨rfl, rfl⟩

/-- With an empty queue, an event is about the bytes of its own connection, and leaves the
queue empty. -/
theorem dataStep_spec (empty : Holds state.qu []) (transmits : CUtils.Transmits sends)
    (step : dataStep state fd arrival sends = some next) :
    Holds next.qu [] ∧
      next.net = Function.update state.net fd (state.net fd ++
        if recvResult arrival.ending < -1 then [] else given arrival.bytes) := by
  unfold dataStep at step
  obtain ⟨⟨res, qu⟩, request, step⟩ := Option.bind_eq_some_iff.mp step
  obtain ⟨_, loop, pair⟩ := Option.map_eq_some_iff.mp request
  cases pair
  have holds : Holds qu arrival.bytes := holds_recvLoop empty loop
  obtain ⟨popped, pops, emptied, data⟩ := holds_pop holds
  have loaded : load popped.data (toInt arrival.bytes.length).toNat = given arrival.bytes := by
    rw [data, load_given holds]
  simp only [pops, loaded] at step
  split at step
  · next failed =>
    cases step
    refine ⟨emptied, ?_⟩
    rw [if_pos failed, List.append_nil, Function.update_eq_self]
    rfl
  · next clean =>
    rw [if_neg clean]
    split at step
    · next positive =>
      rw [transmits _ (given_ne_nil positive)] at step
      simp only [Option.bind_eq_bind, Option.bind_some, ne_eq, not_true_eq_false, if_false]
        at step
      cases step
      obtain ⟨quEq, netEq⟩ := finishStep_spec
        (ServerState.hand { state with qu := popped } fd (given arrival.bytes)) fd
        (recvResult arrival.ending)
      rw [quEq, netEq]
      exact ⟨emptied, rfl⟩
    · next nothing =>
      cases step
      obtain ⟨quEq, netEq⟩ := finishStep_spec { state with qu := popped } fd
        (recvResult arrival.ending)
      rw [quEq, netEq, given_eq_nil nothing, List.append_nil, Function.update_eq_self]
      exact ⟨emptied, rfl⟩

/-! ### Every run -/

/-- The server after some events: the queue is empty, and every connection has been handed
what an `int` counts of its own bytes. -/
structure Serves (past : List Event) (state : ServerState) : Prop where
  empty : Holds state.qu []
  echoed : ∀ fd, state.net fd = handled given fd past

theorem serves_init (memory : Nat → UInt8) : Serves [] (.init memory) :=
  ⟨holds_init memory (by decide : 0 < 65536), fun _ => rfl⟩

theorem Serves.step {event : Event} (serves : Serves past state) (transmits : event.Transmits)
    (step : eventStep state event = some next) : Serves (past ++ [event]) next := by
  cases event with
  | accept fd =>
      obtain ⟨-, ⟨⟩⟩ := Option.ite_none_left_eq_some.mp step
      refine ⟨serves.empty, fun other => ?_⟩
      rw [handled_concat, arrive]
      by_cases same : fd = other
      · subst same
        simp
      · rw [if_neg same]
        exact (Function.update_of_ne (Ne.symm same) _ _).trans (serves.echoed other)
  | data fd arrival sends =>
      obtain ⟨-, read⟩ := Option.ite_none_right_eq_some.mp step
      obtain ⟨empty, netEq⟩ := dataStep_spec serves.empty transmits read
      refine ⟨empty, fun other => ?_⟩
      rw [handled_concat, arrive]
      by_cases same : fd = other
      · subst same
        rw [netEq, Function.update_self, serves.echoed]
        by_cases failed : recvResult arrival.ending < -1
        · simp [failed]
        · simp [failed]
      · rw [if_neg fun both => same both.1, netEq]
        exact (Function.update_of_ne (Ne.symm same) _ _).trans (serves.echoed other)

theorem run_serves (memory : Nat → UInt8) {events : List Event} {final : ServerState}
    (transmits : ∀ event ∈ events, event.Transmits)
    (ran : run eventStep (.init memory) events = some final) : Serves events final := by
  have each : EachStep (fun _ event => True ∧ event.Transmits) eventStep (.init memory) events :=
    (eachStep_of_forall (fun _ _ => trivial) events).and_forall transmits
  exact run_relates_when _ Serves
    (fun _ _ _ _ before met step => before.step met.2 step) [] (serves_init memory) each ran

/-! ### What is echoed -/

/-- Only less than 2^31 bytes are all given to `sendall`. -/
theorem lt_of_given_eq_self {bytes : Bytes} (all : given bytes = bytes) :
    bytes.length < 2 ^ 31 := by
  have le : bytes.length ≤ (toInt bytes.length).toNat := by
    have length := congrArg List.length all
    rw [given, List.length_take] at length
    exact min_eq_right_iff.mp length
  exact Nat.lt_of_le_of_lt le (toInt_toNat_lt _)

/-- Of an event that is counted, all is given. -/
theorem arrive_given {event : Event} (counted : event.Counted) (fd : SocketFd) (past : Bytes) :
    arrive given fd past event = arrive id fd past event := by
  cases event with
  | accept other => rw [arrive, arrive]
  | data other arrival sends =>
      rw [counted_data] at counted
      rw [arrive, arrive]
      by_cases both : other = fd ∧ ¬ recvResult arrival.ending < -1
      · rw [if_pos both, if_pos both, given_of_lt (counted both.2), id_eq]
      · rw [if_neg both, if_neg both]

/-- Where every event is counted, all that was received is handed over. -/
theorem handled_given {events : List Event} (counted : ∀ event ∈ events, event.Counted)
    (fd : SocketFd) : handled given fd events = received fd events := by
  induction events using List.reverseRecOn with
  | nil => rw [received, handled, handled, List.foldl_nil, List.foldl_nil]
  | append_singleton events event ih =>
      have last := counted event (List.mem_append_right _ (List.mem_singleton_self _))
      rw [received, handled_concat, handled_concat, arrive_given last,
        ih fun other member => counted other (List.mem_append_left _ member), received]

/-- Each connection has at every moment been sent exactly the bytes that were received from
it, in order, when and only when every event is counted. -/
theorem echoed_back_iff (memory : Nat → UInt8) {events : List Event} {final : ServerState}
    (transmits : ∀ event ∈ events, event.Transmits)
    (ran : run eventStep (.init memory) events = some final) :
    (∀ past later state, events = past ++ later →
        run eventStep (.init memory) past = some state →
          ∀ fd, state.net fd = received fd past) ↔
      ∀ event ∈ events, event.Counted := by
  constructor
  · intro echoed event member
    obtain ⟨front, back, rfl⟩ := List.append_of_mem member
    obtain ⟨middle, ranFront, ranBack⟩ := run_append_eq_some.mp ran
    obtain ⟨next, step, -⟩ := run_cons_eq_some.mp ranBack
    cases event with
    | accept fd => trivial
    | data fd arrival sends =>
        rw [counted_data]
        intro clean
        have ranNext : run eventStep (.init memory) (front ++ [.data fd arrival sends]) =
            some next :=
          run_append_eq_some.mpr ⟨middle, ranFront, run_cons_eq_some.mpr ⟨next, step, rfl⟩⟩
        have serves := run_serves memory (fun other inside => transmits other (by
          rw [List.append_cons]
          exact List.mem_append_left _ inside)) ranNext
        have before := echoed front _ middle rfl ranFront fd
        have after := echoed (front ++ [.data fd arrival sends]) back next
          (List.append_cons ..) ranNext fd
        have served := run_serves memory (fun other inside =>
          transmits other (List.mem_append_left _ inside)) ranFront
        rw [serves.echoed, received, handled_concat, handled_concat, arrive, arrive,
          if_pos ⟨rfl, clean⟩, if_pos ⟨rfl, clean⟩, ← served.echoed, before, received,
          List.append_cancel_left_eq] at after
        exact lt_of_given_eq_self after
  · rintro counted past later state rfl ranPast fd
    have serves := run_serves memory (fun other inside =>
      transmits other (List.mem_append_left _ inside)) ranPast
    rw [serves.echoed]
    exact handled_given (fun other inside => counted other (List.mem_append_left _ inside)) fd

section Events

/-- Some bytes that are read at once; what is echoed is taken at once. -/
def Event.read (fd : SocketFd) (bytes : Bytes) (nonempty : bytes ≠ []) : Event :=
  .data fd ⟨[bytes], .wouldBlock, SpeedDaemon.atOnce_nonempty nonempty⟩
    .whole

/-- Two connections take turns. -/
def turns : List Event :=
  [.accept 5, .accept 6, .read 5 [1, 2] (by decide), .read 6 [3] (by decide),
    .read 5 [4] (by decide)]

theorem echoed_back_iff_turns :
    ∃ final, run eventStep (.init fun _ => 0) turns = some final ∧
      final.net 5 = [1, 2, 4] ∧ final.net 6 = [3] := by
  obtain ⟨final, ran⟩ := Option.isSome_iff_exists.mp
    (show (run eventStep (.init fun _ => 0) turns).isSome by decide +kernel)
  have transmits : ∀ event ∈ turns, event.Transmits := by
    simp [turns, Event.Transmits, Event.read, transmits_whole]
  have counted : ∀ event ∈ turns, event.Counted := by
    simp [turns, Event.Counted, Event.read, Arrival.bytes]
  have echoed := (echoed_back_iff _ transmits ran).mpr counted turns [] final
    (List.append_nil _).symm ran
  exact ⟨final, ran, echoed 5, echoed 6⟩

/-- Some bytes that are read one by one. -/
def Event.readSingles (fd : SocketFd) (bytes : Bytes) : Event :=
  .data fd
    ⟨bytes.map fun byte => [byte], .wouldBlock, SpeedDaemon.oneByOne_nonempty bytes⟩
    .whole

/-- The queue has room for every byte, and there is nothing to send where an `int` does not
count them. -/
theorem eventStep_readSingles (state : ServerState) {bytes : Bytes}
    (empty : Holds state.qu []) (live : fd ∈ state.live) (uncounted : ¬ toInt bytes.length > 0) :
    ∃ next, eventStep state (.readSingles fd bytes) = some next := by
  obtain ⟨qu, loop, holds⟩ := recvLoop_singletons empty bytes
  rw [List.nil_append] at holds
  obtain ⟨popped, pops, -, -⟩ := holds_pop holds
  have request : recvRequest state.qu
      ⟨bytes.map fun byte => [byte], .wouldBlock, SpeedDaemon.oneByOne_nonempty bytes⟩ =
        some (-1, qu) := by
    rw [recvRequest, loop]
    rfl
  refine ⟨{ state with qu := popped }, ?_⟩
  rw [Event.readSingles, eventStep, if_pos live, dataStep, request]
  simp [pops, uncounted, finishStep]

/-- In one event, 2^31 bytes. -/
def flood : List Event := [.accept 5, .readSingles 5 (List.replicate 2147483648 0)]

/-- The flood is received without an error and would be transmitted, but is not echoed. -/
theorem flood_not_echoed :
    (∀ event ∈ flood, event.Transmits) ∧
      ∃ final, run eventStep (.init fun _ => 0) flood = some final ∧ final.net 5 = [] ∧
        received 5 flood ≠ [] := by
  have length : (List.replicate 2147483648 (0 : UInt8)).length = 2147483648 :=
    List.length_replicate
  unfold flood
  generalize List.replicate 2147483648 (0 : UInt8) = bytes at length
  have uncounted : ¬ toInt bytes.length > 0 := by
    have missing : toInt bytes.length + 2 ^ 32 ≤ bytes.length := toInt_of_ge (by omega)
    omega
  have flattened : (bytes.map fun byte => [byte]).flatten = bytes := by
    rw [← List.flatMap_def, List.flatMap_singleton']
  have transmits : ∀ event ∈ [Event.accept 5, .readSingles 5 bytes], event.Transmits := by
    simp [Event.Transmits, Event.readSingles, transmits_whole]
  have due : ∀ part : Bytes → Bytes,
      handled part 5 [Event.accept 5, .readSingles 5 bytes] = part bytes := by
    intro part
    simp [handled, arrive, Event.readSingles, Arrival.bytes, recvResult, flattened]
  have accepted : eventStep (.init fun _ => 0) (.accept 5) =
      some ⟨queueInit (fun _ => 0) 65536, {5}, Function.update (fun _ => []) 5 []⟩ := by
    simp [eventStep, ServerState.init]
  obtain ⟨final, step⟩ := eventStep_readSingles ⟨queueInit (fun _ => 0) 65536, {5},
    Function.update (fun _ => []) 5 []⟩ (holds_init (fun _ => 0) (by decide : 0 < 65536))
    (Finset.mem_singleton_self 5) uncounted
  have ran : run eventStep (.init fun _ => 0) [.accept 5, .readSingles 5 bytes] = some final := by
    rw [run, accepted, Option.bind_eq_bind, Option.bind_some, run, step]
    rfl
  have serves := run_serves _ transmits ran
  refine ⟨transmits, final, ran, ?_, ?_⟩
  · rw [serves.echoed, due, given_eq_nil uncounted]
  · rw [received, due, id_eq]
    exact List.ne_nil_of_length_pos (by omega)

end Events

end NetworkExercises.SmokeTest
