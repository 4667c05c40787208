/-
Module: NetworkExercises.MeansToAnEnd.Proofs.Timing
Purpose: After which reads the two servers of exercise 2 have processed every message that
  is complete.
Main exports: Zig.OnTime, Zig.Whole, C.OnTime, C.Whole, processed_on_time_iff
-/
import NetworkExercises.MeansToAnEnd.Proofs.Requests
import NetworkExercises.MeansToAnEnd.Zig

namespace NetworkExercises.MeansToAnEnd

open Lib

@[simp] theorem messages_length (data : Bytes) (numMsgs : Nat) :
    (messages data numMsgs).length = numMsgs := by
  simp [messages]

/-! ### The Zig server -/

namespace Zig

/-- A read that succeeds, and whose answers are all written. -/
def Turn.data (bytes : Bytes) : Turn := ⟨.ok bytes, .all⟩

/-- After the turn, every message that has arrived whole is processed. -/
def OnTime (connection : Connection) (turn : Turn) : Prop :=
  ∀ next, readTurn connection turn = some next →
    next.processed.length = next.received / messageSize

/-- The turn leaves less than a message waiting, or nothing but whole messages. -/
def Whole (connection : Connection) (turn : Turn) : Prop :=
  ∀ bytes, turn.read = .ok bytes →
    connection.recvFifo.length + bytes.length < messageSize ∨
      (connection.recvFifo.length + bytes.length) % messageSize = 0

/-- What holds of an open connection between two turns. -/
structure Kept (connection : Connection) : Prop where
  isOpen : connection.closed = false
  sendFifo : connection.sendFifo = []
  received : connection.processed.length * messageSize + connection.recvFifo.length =
    connection.received

/-- A read either waits for more, or processes all that has arrived. -/
theorem readTurn_kept {connection next : Connection} {bytes : Bytes} (kept : Kept connection)
    (nonempty : bytes ≠ []) (ran : readTurn connection (.data bytes) = some next) :
    Kept next ∧ next.received = connection.received + bytes.length ∧
      next.processed.length = connection.processed.length +
        if (connection.recvFifo.length + bytes.length) % messageSize = 0 then
          (connection.recvFifo.length + bytes.length) / messageSize
        else 0 := by
  have some_bytes : bytes.length ≠ 0 := fun zero => nonempty (List.length_eq_zero_iff.mp zero)
  have received := kept.received
  simp only [readTurn, kept.isOpen, Bool.false_eq_true, if_false, Turn.data, some_bytes,
    List.length_append] at ran
  split at ran
  · next part =>
    cases ran
    rw [if_neg part]
    refine ⟨⟨rfl, kept.sendFifo, ?_⟩, rfl, rfl⟩
    simp only [List.length_append]
    omega
  · next whole =>
    obtain ⟨⟨sendFifo, assets⟩, -, ran⟩ := Option.map_eq_some_iff.mp ran
    rw [not_not] at whole
    have all : ∀ connection : Connection, respond .all connection =
        { connection with
          sent := connection.sent ++ connection.sendFifo
          sendFifo := []
          recvFifo := [] } := by
      intro connection
      simp [respond]
    rw [all] at ran
    cases ran
    rw [if_pos whole]
    refine ⟨⟨rfl, rfl, ?_⟩, rfl, by simp⟩
    simp only [List.length_append, messages_length, messageSize, List.length_nil]
      at whole received ⊢
    omega

theorem onTime_iff_whole {connection next : Connection} {bytes : Bytes} (kept : Kept connection)
    (nonempty : bytes ≠ []) (ran : readTurn connection (.data bytes) = some next) :
    OnTime connection (.data bytes) ↔ Whole connection (.data bytes) := by
  obtain ⟨-, received, processed⟩ := readTurn_kept kept nonempty ran
  have before := kept.received
  have whole : Whole connection (.data bytes) ↔
      connection.recvFifo.length + bytes.length < messageSize ∨
        (connection.recvFifo.length + bytes.length) % messageSize = 0 := by
    simp [Whole, Turn.data]
  have onTime : OnTime connection (.data bytes) ↔
      next.processed.length = next.received / messageSize := by
    simp [OnTime, ran]
  rw [whole, onTime, processed, received, ← before]
  by_cases isWhole : (connection.recvFifo.length + bytes.length) % messageSize = 0
  · rw [if_pos isWhole]
    simp only [messageSize] at isWhole ⊢
    omega
  · rw [if_neg isWhole]
    simp only [messageSize] at isWhole ⊢
    omega

end Zig

/-! ### The C server -/

namespace C

open CUtils
open SpeedDaemon (SocketFd)

/-- A client that was just accepted. -/
def Client.init (fd : SocketFd) (memory sdMemory : Nat → UInt8) : Client :=
  ⟨clientsSessionInit fd memory, queueInit sdMemory 65536, [], false⟩

/-- After the event, every message that has arrived whole is processed. -/
def OnTime (client : Client) (turn : Turn) : Prop :=
  ∀ next, clientTurn client turn = some next →
    next.session.processed.length = next.session.received / messageSize

/-- The event leaves less than a message waiting, or nothing but whole messages, which are
fewer bytes than an `int` can count and arrive without an error. -/
def Whole (client : Client) (turn : Turn) : Prop :=
  let waiting := client.session.recvQu.size + turn.arrival.bytes.length
  waiting < messageSize ∨
    waiting % messageSize = 0 ∧ waiting < 2 ^ 31 ∧ ¬ recvResult turn.arrival.ending < -1

/-- What holds of an open client between two events. -/
structure Kept (client : Client) : Prop where
  recvQu : ∃ held, Holds client.session.recvQu held
  sdqu : Holds client.sdqu []
  received : client.session.processed.length * messageSize + client.session.recvQu.size =
    client.session.received

theorem kept_init (fd : SocketFd) (memory sdMemory : Nat → UInt8) :
    Kept (.init fd memory sdMemory) := by
  have recvQu := holds_init memory (by decide : 0 < 512)
  refine ⟨⟨[], recvQu⟩, holds_init sdMemory (by decide : 0 < 65536), ?_⟩
  have empty : (queueInit memory 512).size = 0 := recvQu.size_eq
  simp [Client.init, clientsSessionInit, empty]

theorem onTime_iff_whole {client next : Client} {turn : Turn} (kept : Kept client)
    (ran : clientTurn client turn = some next) :
    (OnTime client turn ↔ Whole client turn) ∧
      (Whole client turn → next.closed = true ∨ Kept next) := by
  obtain ⟨held, recvQu⟩ := kept.recvQu
  have before := kept.received
  have size := recvQu.size_eq
  have waiting : (held ++ turn.arrival.bytes).length =
      client.session.recvQu.size + turn.arrival.bytes.length := by
    rw [List.length_append, size]
  have onTime : OnTime client turn ↔
      next.session.processed.length = next.session.received / messageSize := by
    simp [OnTime, ran]
  rw [onTime, Whole, ← waiting]
  rcases clientTurn_cases recvQu kept.sdqu ran with fails | waits | ⟨data, processes⟩
  · refine ⟨?_, fun _ => .inl fails.closed⟩
    rw [fails.processed, fails.received]
    simp only [fails.failed, not_true_eq_false, and_false, or_false, messageSize] at before ⊢
    omega
  · have unready := waits.unready
    have ended := waits.ended
    have queued := waits.recvQu.size_eq
    refine ⟨?_, fun _ => .inr ⟨⟨_, waits.recvQu⟩, waits.sdqu, ?_⟩⟩
    · rw [waits.processed, waits.received]
      simp only [messageSize] at before unready ⊢
      constructor
      · intro onTime
        exact .inl (by omega)
      · rintro (few | ⟨whole, small, -⟩)
        · omega
        · rw [toInt_of_lt small] at unready
          omega
    · rw [waits.processed, waits.received, queued]
      omega
  · have ready := processes.ready
    have le := toInt_toNat_le (held ++ turn.arrival.bytes).length
    have parsed : data.length = (toInt (held ++ turn.arrival.bytes).length).toNat := by
      rw [processes.dataEq, List.length_take]
      exact Nat.min_eq_left le
    have queued := processes.recvQu.size_eq
    rw [processes.processed, processes.received, List.length_append, messages_length, parsed]
    rcases Nat.lt_or_ge (held ++ turn.arrival.bytes).length (2 ^ 31) with small | large
    · rw [toInt_of_lt small] at ready parsed ⊢
      simp only [messageSize, processes.ended, not_false_eq_true, and_true] at before ready ⊢
      refine ⟨by omega, fun _ => .inr ⟨⟨_, processes.recvQu⟩, processes.sdqu, ?_⟩⟩
      rw [processes.processed, processes.received, List.length_append, messages_length, queued,
        parsed]
      simp only [messageSize, List.length_nil]
      omega
    · have missing := toInt_of_ge large
      simp only [messageSize] at before ⊢
      constructor
      · omega
      · omega

end C

/-! ### Both servers -/

/-- In every run of either server, after every read event all messages that have arrived
whole are processed exactly if every event leaves less than a message waiting, or nothing
but whole messages (in the C server: of fewer than 2^31 bytes, that arrive without an
error). -/
theorem processed_on_time_iff {reads : List Bytes} (nonempty : ∀ bytes ∈ reads, bytes ≠ [])
    {connection : Zig.Connection}
    (ran : run Zig.readTurn .init (reads.map Zig.Turn.data) = some connection)
    (fd : SpeedDaemon.SocketFd) (memory sdMemory : Nat → UInt8) {turns : List C.Turn}
    {client : C.Client}
    (ranC : run C.clientTurn (.init fd memory sdMemory) turns = some client) :
    (EachStep Zig.OnTime Zig.readTurn .init (reads.map Zig.Turn.data) ↔
        EachStep Zig.Whole Zig.readTurn .init (reads.map Zig.Turn.data)) ∧
      (EachStep C.OnTime C.clientTurn (.init fd memory sdMemory) turns ↔
        EachStep C.Whole C.clientTurn (.init fd memory sdMemory) turns) := by
  constructor
  · apply eachStep_iff Zig.Kept (fun turn => ∃ bytes, bytes ≠ [] ∧ turn = .data bytes)
      ?_ ⟨rfl, rfl, rfl⟩ ?_ ran
    · rintro connection turn next kept ⟨bytes, some_bytes, rfl⟩ stepEq
      exact ⟨Zig.onTime_iff_whole kept some_bytes stepEq,
        fun _ => (Zig.readTurn_kept kept some_bytes stepEq).1⟩
    · intro turn member
      obtain ⟨bytes, isRead, rfl⟩ := List.mem_map.mp member
      exact ⟨bytes, nonempty bytes isRead, rfl⟩
  · apply eachStep_iff (fun client => client.closed = true ∨ C.Kept client) (fun _ => True)
      ?_ (.inr (C.kept_init fd memory sdMemory)) (fun _ _ => trivial) ranC
    rintro client turn next (closed | kept) - stepEq
    · simp [C.clientTurn, closed] at stepEq
    · exact C.onTime_iff_whole kept stepEq

/-- A query for the times 0 to 0. -/
def query : Bytes := [81, 0, 0, 0, 0, 0, 0, 0, 0]

/-- A query cut in two for the one server, and whole for the other. -/
theorem processed_on_time_query :
    EachStep Zig.OnTime Zig.readTurn .init ([query.take 4, query.drop 4].map Zig.Turn.data) ∧
      EachStep C.OnTime C.clientTurn (.init 5 (fun _ => 0) (fun _ => 0))
        [.data query (by decide)] := by
  obtain ⟨connection, ran⟩ := Option.isSome_iff_exists.mp (show (run Zig.readTurn .init
    ([query.take 4, query.drop 4].map Zig.Turn.data)).isSome by decide +kernel)
  obtain ⟨client, ranC⟩ := Option.isSome_iff_exists.mp (show (run C.clientTurn
    (.init 5 (fun _ => 0) (fun _ => 0)) [.data query (by decide)]).isSome by decide +kernel)
  have both := processed_on_time_iff (by decide) ran 5 (fun _ => 0) (fun _ => 0) ranC
  refine ⟨both.1.mpr ⟨?_, ?_⟩, both.2.mpr ⟨?_, fun _ _ => trivial⟩⟩
  · rintro bytes ⟨rfl⟩
    decide
  · rintro next ⟨rfl⟩
    refine ⟨?_, fun _ _ => trivial⟩
    rintro bytes ⟨rfl⟩
    decide
  · exact .inr (by decide)

/-- One byte behind the query withholds its answer, in both servers. -/
theorem query_withheld :
    ¬ EachStep Zig.OnTime Zig.readTurn .init [.data (query ++ [73])] ∧
      ¬ EachStep C.OnTime C.clientTurn (.init 5 (fun _ => 0) (fun _ => 0))
        [.data (query ++ [73]) (by decide)] := by
  constructor
  · rintro ⟨onTime, -⟩
    have processed := onTime _ rfl
    revert processed
    decide
  · rintro ⟨onTime, -⟩
    obtain ⟨client, ran⟩ := Option.isSome_iff_exists.mp (show (C.clientTurn
      (.init 5 (fun _ => 0) (fun _ => 0)) (.data (query ++ [73]) (by decide))).isSome by
        decide +kernel)
    have counts : (C.clientTurn (.init 5 (fun _ => 0) (fun _ => 0))
        (.data (query ++ [73]) (by decide))).map
          (fun client => (client.session.processed.length, client.session.received)) =
        some (0, 10) := by decide +kernel
    have processed := onTime client ran
    rw [ran, Option.map_some, Option.some.injEq, Prod.mk.injEq] at counts
    rw [counts.1, counts.2] at processed
    revert processed
    decide

end NetworkExercises.MeansToAnEnd
