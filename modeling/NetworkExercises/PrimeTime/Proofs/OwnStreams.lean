/-
Module: NetworkExercises.PrimeTime.Proofs.OwnStreams
Purpose: The C server reads all its connections into one queue.  A connection is answered for
  its own stream as long as every read finds there what the same connection has left.
Main exports: stream, Undisturbed, dataStep_spec, Serves, sent_own_responses
-/
import NetworkExercises.PrimeTime.Proofs.Requests

namespace NetworkExercises.PrimeTime.C

open Lib CUtils
open SpeedDaemon (SocketFd)

variable {parse : Parser} {state next : ServerState} {fd : SocketFd} {turn : Turn}

/-! ### The stream of a connection -/

/-- What an event adds to the stream of a connection; a new connection begins anew. -/
def arrive (fd : SocketFd) (past : Bytes) : Event → Bytes
  | .accept other => if other = fd then [] else past
  | .data other turn => if other = fd then past ++ turn.arrival.bytes else past

/-- The bytes of a connection since it was accepted. -/
def stream (fd : SocketFd) (events : List Event) : Bytes := events.foldl (arrive fd) []

theorem stream_concat (fd : SocketFd) (events : List Event) (event : Event) :
    stream fd (events ++ [event]) = arrive fd (stream fd events) event := by
  rw [stream, List.foldl_append]
  rfl

/-! ### One event -/

/-- A read finds the unfinished line of its own connection in the queue and nothing else, and
if it completes a line, what waits then can be answered and sent. -/
structure OwnRead (parse : Parser) (state : ServerState) (fd : SocketFd) (turn : Turn) :
    Prop where
  own : state.rcqu.contents = (splitLines newline (state.received fd)).2
  completes : newline ∈ state.rcqu.contents ++ turn.arrival.bytes →
    ¬ recvResult turn.arrival.ending < -1 ∧ Transmits turn.sends ∧
      Answerable parse (state.rcqu.contents ++ turn.arrival.bytes)

def Undisturbed (parse : Parser) (state : ServerState) : Event → Prop
  | .accept _ => True
  | .data fd turn => fd ∈ state.live → OwnRead parse state fd turn

/-- What an event does when `answered` are the responses to the lines it completes. -/
structure Dealt (state next : ServerState) (fd : SocketFd) (held bytes : Bytes)
    (answered : Option (Bytes × Bool)) : Prop where
  sent : ∃ sent malformed, answered = some (sent, malformed) ∧
    next.net = Function.update state.net fd (state.net fd ++ sent) ∧
    (malformed = true → fd ∉ next.live)
  received : next.received = Function.update state.received fd (state.received fd ++ bytes)
  live : next.live ⊆ state.live
  rcqu : Holds next.rcqu (if newline ∈ held ++ bytes then [] else held ++ bytes)
  sdqu : Holds next.sdqu []

/-- Without a complete line nothing is sent. -/
theorem dealt_nothing {held bytes : Bytes} {live : Finset SocketFd} {rcqu : Queue}
    (waits : Holds rcqu (held ++ bytes)) (unmarked : newline ∉ held ++ bytes)
    (empty : Holds state.sdqu []) (subset : live ⊆ state.live) :
    Dealt state
      ⟨rcqu, state.sdqu, live, state.net,
        Function.update state.received fd (state.received fd ++ bytes)⟩
      fd held bytes (some ([], false)) := by
  refine ⟨⟨[], false, rfl, ?_, nofun⟩, rfl, subset, ?_, empty⟩
  · rw [List.append_nil, Function.update_eq_self]
  · rwa [if_neg unmarked]

theorem dataStep_spec {held : Bytes} (holds : Holds state.rcqu held)
    (empty : Holds state.sdqu []) (ownRead : OwnRead parse state fd turn)
    (ran : dataStep parse state fd turn = some next) :
    Dealt state next fd held turn.arrival.bytes
      (responses parse (completeLines newline (held ++ turn.arrival.bytes))) := by
  have completes := ownRead.completes
  rw [holds.contents] at completes
  unfold dataStep at ran
  obtain ⟨⟨res, rcqu⟩, received, ran⟩ := Option.bind_eq_some_iff.mp ran
  obtain ⟨_, loop, pair⟩ := Option.map_eq_some_iff.mp received
  cases pair
  have waits : Holds rcqu (held ++ turn.arrival.bytes) := holds_recvLoop holds loop
  simp only [queuePeek_eq waits, load_given waits] at ran
  by_cases marked : newline ∈ held ++ turn.arrival.bytes
  · obtain ⟨ended, transmits, answerable⟩ := completes marked
    have positive : toInt (held ++ turn.arrival.bytes).length > 0 := by
      rw [toInt_of_lt answerable.counted]
      exact Int.natCast_pos.mpr (List.length_pos_of_mem marked)
    have found : (lastIndexOf newline (held ++ turn.arrival.bytes)).isSome := by
      rw [Option.isSome_iff_ne_none]
      exact fun none => notMem_of_lastIndexOf none marked
    rw [if_neg ended, given_of_lt answerable.counted, if_pos ⟨positive, found⟩] at ran
    obtain ⟨⟨open_, processed⟩, processes, ran⟩ := Option.bind_eq_some_iff.mp ran
    let filled : ServerState := { state with
      rcqu := rcqu
      received := Function.update state.received fd (state.received fd ++ turn.arrival.bytes) }
    have filledWaits : Holds filled.rcqu (held ++ turn.arrival.bytes) := waits
    obtain ⟨sent, malformed, answered, rfl, rcqu', sdqu, left, sdquEmpty, rfl⟩ :=
      processRequests_spec filledWaits empty marked answerable transmits processes
    rw [answered]
    have emptied : Holds rcqu' (if newline ∈ held ++ turn.arrival.bytes then []
        else held ++ turn.arrival.bytes) := by rwa [if_pos marked]
    cases malformed with
    | true =>
        cases ran
        exact ⟨⟨sent, true, rfl, rfl, fun _ => Finset.notMem_erase _ _⟩, rfl,
          Finset.erase_subset _ _, emptied, sdquEmpty⟩
    | false =>
        dsimp only at ran
        rw [if_neg (by decide)] at ran
        split at ran
        · cases ran
          exact ⟨⟨sent, false, rfl, rfl, nofun⟩, rfl, Finset.Subset.refl _, emptied, sdquEmpty⟩
        · cases ran
          exact ⟨⟨sent, false, rfl, rfl, nofun⟩, rfl, Finset.erase_subset _ _, emptied,
            sdquEmpty⟩
  · have absent : lastIndexOf newline (given (held ++ turn.arrival.bytes)) = none :=
      lastIndexOf_of_notMem fun member => marked (List.mem_of_mem_take member)
    have unfinished : ¬ (toInt (held ++ turn.arrival.bytes).length > 0 ∧
        (lastIndexOf newline (given (held ++ turn.arrival.bytes))).isSome) := by
      rw [absent]
      exact fun both => nomatch both.2
    rw [completeLines_of_notMem marked]
    rw [if_neg unfinished] at ran
    split at ran
    · cases ran
      exact dealt_nothing waits marked empty (Finset.erase_subset _ _)
    · split at ran
      · cases ran
        exact dealt_nothing waits marked empty (Finset.Subset.refl _)
      · cases ran
        exact dealt_nothing waits marked empty (Finset.erase_subset _ _)

/-! ### Every run -/

/-- The server after some events. -/
structure Serves (parse : Parser) (past : List Event) (state : ServerState) : Prop where
  rcqu : ∃ held, Holds state.rcqu held
  sdqu : Holds state.sdqu []
  received : ∀ fd, state.received fd = stream fd past
  net : ∀ fd, ∃ malformed,
    responses parse (completeLines newline (stream fd past)) = some (state.net fd, malformed) ∧
      (malformed = true → fd ∉ state.live)

theorem serves_init (memory sdMemory : Nat → UInt8) :
    Serves parse [] (.init memory sdMemory) :=
  have positive : 0 < 2048 := by decide
  ⟨⟨[], holds_init memory positive⟩, holds_init sdMemory positive, fun _ => rfl,
    fun _ => ⟨false, rfl, nofun⟩⟩

theorem serves_accept {past : List Event} (serves : Serves parse past state)
    (ran : eventStep parse state (.accept fd) = some next) :
    Serves parse (past ++ [.accept fd]) next := by
  simp only [eventStep] at ran
  split at ran
  · cases ran
  · cases ran
    have arrived : ∀ other, stream other (past ++ [.accept fd]) =
        Function.update (fun other => stream other past) fd [] other := by
      intro other
      rw [stream_concat, arrive, Function.update_apply]
      exact if_congr eq_comm rfl rfl
    refine ⟨serves.rcqu, serves.sdqu, ?_, ?_⟩
    · intro other
      rw [arrived, ← funext serves.received]
    · intro other
      rw [arrived]
      by_cases same : other = fd
      · subst same
        rw [Function.update_self]
        refine ⟨false, by simp [completeLines, splitLines, responses], ?_⟩
        exact fun closed => absurd closed Bool.false_ne_true
      · obtain ⟨malformed, answered, closed⟩ := serves.net other
        rw [Function.update_of_ne same]
        refine ⟨malformed, ?_, fun isMalformed member => ?_⟩
        · rw [answered]
          exact congrArg (fun sent => some (sent, malformed)) (Function.update_of_ne same _ _).symm
        · exact closed isMalformed (Finset.mem_of_mem_insert_of_ne member same)

theorem serves_data {past : List Event} (serves : Serves parse past state)
    (undisturbed : Undisturbed parse state (.data fd turn))
    (ran : eventStep parse state (.data fd turn) = some next) :
    Serves parse (past ++ [.data fd turn]) next := by
  simp only [eventStep] at ran
  split at ran
  · next isOpen =>
    obtain ⟨held, holds⟩ := serves.rcqu
    have ownRead := undisturbed isOpen
    have heldEq : held = (splitLines newline (stream fd past)).2 := by
      rw [← holds.contents, ownRead.own, serves.received]
    have dealt := dataStep_spec holds serves.sdqu ownRead ran
    obtain ⟨sent, malformed, now, net, nowClosed⟩ := dealt.sent
    have arrived : ∀ other, stream other (past ++ [.data fd turn]) =
        Function.update (fun other => stream other past) fd
          (stream fd past ++ turn.arrival.bytes) other := by
      intro other
      rw [stream_concat, arrive, Function.update_apply]
      by_cases same : fd = other
      · rw [if_pos same, if_pos same.symm, same]
      · rw [if_neg same, if_neg (Ne.symm same)]
    refine ⟨⟨_, dealt.rcqu⟩, dealt.sdqu, ?_, ?_⟩
    · intro other
      rw [arrived, dealt.received, funext serves.received]
    · intro other
      rw [arrived, net]
      by_cases same : other = fd
      · subst same
        obtain ⟨before, answered, closed⟩ := serves.net other
        have open_ : before = false := by
          cases before with
          | false => rfl
          | true => exact absurd isOpen (closed rfl)
        subst open_
        rw [responses] at answered now
        rw [Function.update_self, Function.update_self, completeLines_append, ← heldEq, responses,
          answerLines_append, answered, now]
        exact ⟨malformed, rfl, nowClosed⟩
      · obtain ⟨before, answered, closed⟩ := serves.net other
        rw [Function.update_of_ne same, Function.update_of_ne same]
        exact ⟨before, answered, fun isMalformed member => closed isMalformed (dealt.live member)⟩
  · cases ran

/-- In every run in which each read finds in the queue what its own connection has left, and
can be answered, every connection has been sent one response for each complete line of its own
stream, in order, up to the first malformed line, at which it was closed. -/
theorem sent_own_responses (parse : Parser) (memory sdMemory : Nat → UInt8) {events : List Event}
    {final : ServerState}
    (each : EachStep (Undisturbed parse) (eventStep parse) (.init memory sdMemory) events)
    (ran : run (eventStep parse) (.init memory sdMemory) events = some final) (fd : SocketFd) :
    ∃ malformed,
      responses parse (completeLines newline (stream fd events)) =
          some (final.net fd, malformed) ∧
        (malformed = true → fd ∉ final.live) := by
  have serves : Serves parse events final := by
    apply run_relates_when (Undisturbed parse) (Serves parse) ?_ [] (serves_init memory sdMemory)
      each ran
    intro past state event next serves undisturbed stepEq
    cases event with
    | accept fd => exact serves_accept serves stepEq
    | data fd turn => exact serves_data serves undisturbed stepEq
  exact serves.net fd

/-! ### Reads of whole lines -/

/-- A read that ends behind a newline, or reads nothing. -/
def WholeLines (parse : Parser) : Event → Prop
  | .accept _ => True
  | .data _ turn =>
      ¬ recvResult turn.arrival.ending < -1 ∧ Transmits turn.sends ∧
        Answerable parse turn.arrival.bytes ∧ (splitLines newline turn.arrival.bytes).2 = []

/-- No connection has an unfinished line. -/
structure Idle (state : ServerState) : Prop where
  rcqu : Holds state.rcqu []
  sdqu : Holds state.sdqu []
  finished : ∀ fd, (splitLines newline (state.received fd)).2 = []

theorem idle_init (memory sdMemory : Nat → UInt8) : Idle (.init memory sdMemory) :=
  have positive : 0 < 2048 := by decide
  ⟨holds_init memory positive, holds_init sdMemory positive, fun _ => rfl⟩

theorem Idle.undisturbed (idle : Idle state) {event : Event} (whole : WholeLines parse event) :
    Undisturbed parse state event := by
  cases event with
  | accept fd => trivial
  | data fd turn =>
      intro _
      obtain ⟨ended, transmits, answerable, -⟩ := whole
      have nothing := idle.rcqu.contents
      refine ⟨by rw [nothing, idle.finished], fun _ => ?_⟩
      rw [nothing, List.nil_append]
      exact ⟨ended, transmits, answerable⟩

theorem Idle.step (idle : Idle state) {event : Event} (whole : WholeLines parse event)
    (ran : eventStep parse state event = some next) : Idle next := by
  have undisturbed := idle.undisturbed whole
  cases event with
  | accept fd =>
      simp only [eventStep] at ran
      split at ran
      · cases ran
      · cases ran
        refine ⟨idle.rcqu, idle.sdqu, fun other => ?_⟩
        show (splitLines newline (Function.update state.received fd [] other)).2 = []
        rw [Function.update_apply]
        split
        · rfl
        · exact idle.finished other
  | data fd turn =>
      simp only [eventStep] at ran
      split at ran
      · next isOpen =>
        obtain ⟨-, -, -, finished⟩ := whole
        have dealt := dataStep_spec idle.rcqu idle.sdqu (undisturbed isOpen) ran
        refine ⟨?_, dealt.sdqu, fun other => ?_⟩
        · have rcqu := dealt.rcqu
          rw [List.nil_append] at rcqu
          split at rcqu
          · exact rcqu
          · next unmarked =>
            rw [splitLines_of_notMem unmarked] at finished
            rwa [show turn.arrival.bytes = [] from finished] at rcqu
        · rw [dealt.received, Function.update_apply]
          split
          · rw [splitLines_append, idle.finished, List.nil_append]
            exact finished
          · exact idle.finished other
      · cases ran

/-- Connections that send whole lines with each read do not disturb each other. -/
theorem undisturbed_of_wholeLines (memory sdMemory : Nat → UInt8) {events : List Event}
    (whole : ∀ event ∈ events, WholeLines parse event) :
    EachStep (Undisturbed parse) (eventStep parse) (.init memory sdMemory) events := by
  have each : EachStep (fun _ event => True ∧ WholeLines parse event) (eventStep parse)
      (.init memory sdMemory) events :=
    (eachStep_of_forall (fun _ _ => trivial) events).and_forall whole
  apply EachStep.of_invariant Idle ?_ ?_ (idle_init memory sdMemory) each
  · intro state event idle isWhole
    exact idle.undisturbed isWhole.2
  · intro state event next idle isWhole ran
    exact idle.step isWhole.2 ran

/-- A parser of one request. -/
def parseAskSeven : Parser := fun line => if line = askSeven then some sevenAsked else none

/-- A read of some bytes at once; all that is sent is taken. -/
def Turn.data (bytes : Bytes) (nonempty : bytes ≠ []) : Turn :=
  ⟨⟨[bytes], .wouldBlock, SpeedDaemon.atOnce_nonempty nonempty⟩, .whole,
    ⟨false, false, 0⟩⟩

theorem wholeLines_data {bytes sent : Bytes} {malformed : Bool} (nonempty : bytes ≠ [])
    (counted : bytes.length < 2 ^ 31)
    (tokens : ∀ line ∈ dueLines (checkLine parse) (completeLines newline bytes),
      line ≠ [] ∧ 0 ∉ line)
    (finished : (splitLines newline bytes).2 = [])
    (answered : responses parse (completeLines newline bytes) = some (sent, malformed))
    (small : sent.length < 2 ^ 31) : WholeLines parse (.data fd (.data bytes nonempty)) := by
  have read : (Turn.data bytes nonempty).arrival.bytes = bytes := List.flatten_singleton
  have ended : ¬ recvResult .wouldBlock < -1 := by decide
  refine ⟨ended, transmits_whole, ?_, by rwa [read]⟩
  rw [read]
  refine ⟨counted, tokens, .inr finished, fun _ _ same => ?_⟩
  rw [answered] at same
  cases same
  exact small

/-- Two connections that take turns, the second of which ends with a malformed request. -/
def turns : List Event :=
  [.accept 5, .accept 6, .data 5 (.data (askSeven ++ [newline]) (by decide +kernel)),
    .data 6 (.data (askSeven ++ [newline, 120, newline]) (by decide +kernel)),
    .data 5 (.data (askSeven ++ [newline]) (by decide +kernel))]

theorem sent_own_responses_turns :
    ∃ final, run (eventStep parseAskSeven) (.init (fun _ => 0) fun _ => 0) turns = some final ∧
      final.net 5 = formatResponse true ++ formatResponse true ∧
      final.net 6 = formatResponse true ++ illResponse := by
  obtain ⟨final, ran⟩ := Option.isSome_iff_exists.mp
    (show (run (eventStep parseAskSeven) (.init (fun _ => 0) fun _ => 0) turns).isSome by
      decide +kernel)
  have answerable : ∀ event ∈ turns, WholeLines parseAskSeven event := by
    intro event member
    simp only [turns, List.mem_cons, List.not_mem_nil, or_false] at member
    have asked : ∀ fd, WholeLines parseAskSeven
        (.data fd (.data (askSeven ++ [newline]) (by decide +kernel))) := by
      intro fd
      apply wholeLines_data _ (by decide +kernel) (by decide +kernel) (by decide +kernel)
        (show _ = some (formatResponse true, false) by decide +kernel) (by decide +kernel)
    rcases member with rfl | rfl | rfl | rfl | rfl
    · trivial
    · trivial
    · exact asked 5
    · apply wholeLines_data _ (by decide +kernel) (by decide +kernel) (by decide +kernel)
        (show _ = some (formatResponse true ++ illResponse, true) by decide +kernel)
        (by decide +kernel)
    · exact asked 5
  have each := undisturbed_of_wholeLines (fun _ => 0) (fun _ => 0) answerable
  obtain ⟨_, five, -⟩ := sent_own_responses parseAskSeven (fun _ => 0) (fun _ => 0) each ran 5
  obtain ⟨_, six, -⟩ := sent_own_responses parseAskSeven (fun _ => 0) (fun _ => 0) each ran 6
  have fiveDue : responses parseAskSeven (completeLines newline (stream 5 turns)) =
      some (formatResponse true ++ formatResponse true, false) := by decide +kernel
  have sixDue : responses parseAskSeven (completeLines newline (stream 6 turns)) =
      some (formatResponse true ++ illResponse, true) := by decide +kernel
  rw [fiveDue, Option.some.injEq, Prod.mk.injEq] at five
  rw [sixDue, Option.some.injEq, Prod.mk.injEq] at six
  exact ⟨final, ran, five.1.symm, six.1.symm⟩

/-! ### A line of two connections -/

/-- One connection begins a request and another sends a whole one. -/
def mixed : List Event :=
  [.accept 5, .accept 6, .data 5 (.data (askSeven.take 9) (by decide +kernel)),
    .data 6 (.data (askSeven ++ [newline]) (by decide +kernel))]

/-- The second connection is told that its request is malformed, which is not so. -/
theorem response_to_other :
    ∃ final, run (eventStep parseAskSeven) (.init (fun _ => 0) fun _ => 0) mixed = some final ∧
      final.net 6 = illResponse ∧
      ∀ malformed, responses parseAskSeven (completeLines newline (stream 6 mixed)) ≠
        some (final.net 6, malformed) := by
  have sent : (run (eventStep parseAskSeven) (.init (fun _ => 0) fun _ => 0) mixed).map
      (fun final => final.net 6) = some illResponse := by decide +kernel
  obtain ⟨final, ran, net⟩ := Option.map_eq_some_iff.mp sent
  have due : responses parseAskSeven (completeLines newline (stream 6 mixed)) =
      some (formatResponse true, false) := by decide +kernel
  refine ⟨final, ran, net, fun malformed same => ?_⟩
  rw [due, net, Option.some.injEq, Prod.mk.injEq] at same
  exact absurd same.1 (by decide +kernel)

end NetworkExercises.PrimeTime.C
