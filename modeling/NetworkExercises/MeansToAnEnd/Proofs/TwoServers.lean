/-
Module: NetworkExercises.MeansToAnEnd.Proofs.TwoServers
Purpose: The C server among its other connections and the Zig handler on its own answer the
  queries of one stream from the same prices, however each of them gets to read it.
Main exports: askedIn, askedIn_begins, Zig.Follows, Zig.run_follows, C.answers_eq,
  servers_answer_prices
-/
import NetworkExercises.MeansToAnEnd.Proofs.Calls
import NetworkExercises.MeansToAnEnd.Proofs.Streams
import NetworkExercises.MeansToAnEnd.Proofs.Timing

namespace NetworkExercises.MeansToAnEnd

open Lib
open SpeedDaemon (SocketFd)
open C (allMessages lastWhole)

/-! ### The queries of a stream -/

section Queries

variable {front stream : Bytes}

theorem asked_append (before : List AssetPrice) (front back : List Message) :
    asked before (front ++ back) =
      asked before front ++ asked (before ++ inserted front) back := by
  rw [asked_eq, asked_eq, asked_eq, askedFrom_append]

/-- The messages of a beginning come first, whether or not it ends with a whole one. -/
theorem allMessages_begins (begins : front <+: stream) :
    allMessages front <+: allMessages stream := by
  let size := front.length / messageSize * messageSize
  have same : allMessages (front.take size) = allMessages front := messages_whole front
  have whole : (front.take size).length % messageSize = 0 := by
    rw [List.length_take_of_le (Nat.div_mul_le_self _ _), Nat.mul_mod_left]
  obtain ⟨back, rfl⟩ := (List.take_prefix size front).trans begins
  rw [← same, C.allMessages_append whole]
  exact List.prefix_append _ _

/-- The prices that the queries of a stream ask for. -/
def askedIn (stream : Bytes) : List (List Int32) := asked [] (allMessages stream)

/-- What the queries of a beginning ask for comes first. -/
theorem askedIn_begins (begins : front <+: stream) : askedIn front <+: askedIn stream := by
  obtain ⟨back, split⟩ := allMessages_begins begins
  rw [askedIn, askedIn, ← split, asked_append]
  exact List.prefix_append _ _

/-- Behind whole messages, the queries ask for what was inserted there as well. -/
theorem askedIn_append (whole : front.length % messageSize = 0) (back : Bytes) :
    askedIn (front ++ back) =
      askedIn front ++ asked (inserted (allMessages front)) (allMessages back) := by
  rw [askedIn, C.allMessages_append whole, asked_append, List.nil_append]
  rfl

/-- The sums of fewer than 2^31 prices can be kept. -/
theorem askedIn_inRange (few : stream.length / messageSize < 2 ^ 31) :
    ∀ prices ∈ askedIn stream, InRange prices := by
  intro prices member
  have fewer := asked_length member
  rw [allMessages, messages_length, List.length_nil] at fewer
  exact inRange_of_length (by omega)

end Queries

section Reads

variable {past : List Bytes}

theorem lastWhole_begins (past : List Bytes) : lastWhole past <+: past.flatten := by
  induction past using List.reverseRecOn with
  | nil => exact List.prefix_refl _
  | append_singleton past bytes ih =>
      rw [C.lastWhole_concat]
      split
      · exact List.prefix_refl _
      · rw [List.flatten_concat]
        exact ih.trans (List.prefix_append _ _)

theorem lastWhole_of_whole (whole : past.flatten.length % messageSize = 0) :
    lastWhole past = past.flatten := by
  induction past using List.reverseRecOn with
  | nil => rfl
  | append_singleton past bytes _ => rw [C.lastWhole_concat, if_pos whole]

end Reads

/-! ### The Zig handler -/

namespace Zig

/-- The responses of the Zig server to some queries. -/
def flooredAnswers (asks : List (List Int32)) : Bytes :=
  asks.flatMap fun prices => wordBytes (flooredAnswer prices)

theorem flooredAnswers_append (asks others : List (List Int32)) :
    flooredAnswers (asks ++ others) = flooredAnswers asks ++ flooredAnswers others :=
  List.flatMap_append

/-- The handler has answered its stream as far as a read made it whole, and keeps the rest. -/
structure Follows (past : List Bytes) (connection : Connection) : Prop where
  isOpen : connection.closed = false
  sendFifo : connection.sendFifo = []
  recvFifo : past.flatten = lastWhole past ++ connection.recvFifo
  assets : connection.assets = inserted (allMessages (lastWhole past))
  sent : connection.sent = flooredAnswers (askedIn (lastWhole past))

theorem follows_init : Follows [] .init := ⟨rfl, rfl, rfl, rfl, rfl⟩

/-- Everything that is due is written. -/
theorem respond_all (connection : Connection) :
    respond .all connection =
      { connection with
        sent := connection.sent ++ connection.sendFifo
        sendFifo := []
        recvFifo := [] } := by
  simp [respond]

variable {past : List Bytes} {connection : Connection} {bytes : Bytes}

/-- A read is answered when it makes the stream whole, and waits otherwise. -/
theorem readTurn_follows (follows : Follows past connection) (nonempty : bytes ≠ [])
    (inRange : ∀ prices ∈ askedIn (past ++ [bytes]).flatten, InRange prices) :
    ∃ next, readTurn connection (.data bytes) = some next ∧ Follows (past ++ [bytes]) next := by
  have some_bytes : bytes.length ≠ 0 := fun zero => nonempty (List.length_eq_zero_iff.mp zero)
  have multiple := C.lastWhole_length past
  have flattened : (past ++ [bytes]).flatten =
      lastWhole past ++ (connection.recvFifo ++ bytes) := by
    rw [List.flatten_concat, follows.recvFifo, List.append_assoc]
  have remainder : (past ++ [bytes]).flatten.length % messageSize =
      (connection.recvFifo ++ bytes).length % messageSize := by
    rw [flattened, List.length_append]
    simp only [messageSize] at multiple ⊢
    omega
  simp only [readTurn, follows.isOpen, Bool.false_eq_true, if_false, Turn.data, some_bytes]
  by_cases whole : (connection.recvFifo ++ bytes).length % messageSize = 0
  · have all : lastWhole (past ++ [bytes]) =
        lastWhole past ++ (connection.recvFifo ++ bytes) := by
      rw [C.lastWhole_concat, remainder, if_pos whole, flattened]
    have asks := askedIn_append multiple (connection.recvFifo ++ bytes)
    have parsed : messagesParse (connection.recvFifo ++ bytes) connection.sendFifo
        connection.assets = some
          (flooredAnswers (asked connection.assets (allMessages (connection.recvFifo ++ bytes))),
            connection.assets ++ inserted (allMessages (connection.recvFifo ++ bytes))) := by
      refine (foldlM_handleMessage_iff _).mpr ⟨fun prices member => ?_, ?_⟩
      · apply inRange prices
        rw [flattened, asks, ← follows.assets]
        exact List.mem_append_right _ member
      · rw [follows.sendFifo]
        rfl
    rw [if_neg (not_not_intro whole), parsed, Option.map_some, respond_all]
    refine ⟨_, rfl, rfl, rfl, ?_, ?_, ?_⟩
    · rw [all, flattened, List.append_nil]
    · rw [all, C.allMessages_append multiple, inserted_append, ← follows.assets]
    · rw [all, asks, flooredAnswers_append, ← follows.sent, ← follows.assets]
  · have same : lastWhole (past ++ [bytes]) = lastWhole past := by
      rw [C.lastWhole_concat, remainder, if_neg whole]
    rw [if_pos whole]
    refine ⟨_, rfl, rfl, follows.sendFifo, ?_, ?_, ?_⟩
    · rw [same, flattened]
    · rw [same]
      exact follows.assets
    · rw [same]
      exact follows.sent

/-- The handler never traps on a stream whose sums can be kept. -/
theorem run_follows {reads : List Bytes} (nonempty : ∀ bytes ∈ reads, bytes ≠ [])
    (inRange : ∀ prices ∈ askedIn reads.flatten, InRange prices) :
    ∃ connection, run readTurn .init (reads.map .data) = some connection ∧
      Follows reads connection := by
  induction reads using List.reverseRecOn with
  | nil => exact ⟨_, rfl, follows_init⟩
  | append_singleton past bytes ih =>
      obtain ⟨others, last⟩ := List.forall_mem_append.mp nonempty
      have begins : past.flatten <+: (past ++ [bytes]).flatten := by
        rw [List.flatten_concat]
        exact List.prefix_append _ _
      obtain ⟨connection, ran, follows⟩ := ih others fun prices member =>
        inRange prices ((askedIn_begins begins).subset member)
      obtain ⟨next, reads, followsNext⟩ :=
        readTurn_follows follows (last bytes (List.mem_singleton_self bytes)) inRange
      refine ⟨next, ?_, followsNext⟩
      rw [List.map_append, run_append, ran]
      exact run_cons_eq_some.mpr ⟨next, reads, rfl⟩

end Zig

/-! ### The C server -/

namespace C

/-- The responses of the C server to some queries. -/
def truncatedAnswers (asks : List (List Int32)) : Bytes :=
  asks.flatMap fun prices => wordBytes (truncatedAnswer prices)

/-- The answers to a stream with inserts at distinct times. -/
theorem answers_eq {data : Bytes} (few : data.length / messageSize < 2 ^ 31)
    (distinct : (insertTimestamps (allMessages data)).Nodup) :
    answers data = truncatedAnswers (askedIn data) := by
  have empty := CUtils.holds_init (fun _ => 0) (by decide : 0 < 65536)
  have parsed := @messageParse_answers (assetPricesInit 16) _ _ _ rfl empty few distinct
  rw [← messageParse_eq_answers few empty, parsed.contents]
  rfl

end C

/-! ### Both servers -/

/-- Rounding toward zero is one more than rounding down, for negative sums that are not divided
exactly. -/
theorem truncatedAnswer_sub_flooredAnswer (prices : List Int32) :
    (truncatedAnswer prices).toInt - (flooredAnswer prices).toInt =
      if total prices < 0 ∧ ¬ (prices.length : Int) ∣ total prices then 1 else 0 := by
  obtain ⟨lowC, highC⟩ := truncatedMean_bounds prices
  obtain ⟨lowZig, highZig⟩ := flooredMean_bounds prices
  rw [truncatedAnswer, flooredAnswer, Int32.toInt_ofInt_of_le lowC highC,
    Int32.toInt_ofInt_of_le lowZig highZig]
  exact truncated_sub_floored prices

/-- A stream of fewer than 2^31 messages with inserts at distinct times, which the C server reads
among other connections and the Zig handler in any reads, is answered by both from the same
prices: each of them has answered the first of its queries in order, and all of them when the
stream is whole messages; for a query that both have answered the answers differ by the rounding
only. -/
theorem servers_answer_prices (memory : Nat → UInt8) {events : List C.Event}
    {final : C.ServerState} (clean : ∀ event ∈ events, event.Clean)
    (each : EachStep C.Small C.eventStep (.init memory) events)
    (ran : run C.eventStep (.init memory) events = some final) (fd : SocketFd)
    {reads : List Bytes} (nonempty : ∀ bytes ∈ reads, bytes ≠ [])
    (same : reads.flatten = (C.arrivals fd events).flatten)
    (few : reads.flatten.length / messageSize < 2 ^ 31)
    (distinct : (insertTimestamps (allMessages reads.flatten)).Nodup) :
    ∃ asksC asksZig connection,
      run Zig.readTurn .init (reads.map .data) = some connection ∧
      final.net fd = C.truncatedAnswers asksC ∧ asksC <+: askedIn reads.flatten ∧
      connection.sent = Zig.flooredAnswers asksZig ∧ asksZig <+: askedIn reads.flatten ∧
      (reads.flatten.length % messageSize = 0 →
        asksC = askedIn reads.flatten ∧ asksZig = askedIn reads.flatten) ∧
      ∀ prices : List Int32, (truncatedAnswer prices).toInt - (flooredAnswer prices).toInt =
        if total prices < 0 ∧ ¬ (prices.length : Int) ∣ total prices then 1 else 0 := by
  obtain ⟨connection, went, follows⟩ := Zig.run_follows nonempty (askedIn_inRange few)
  have begins : lastWhole (C.arrivals fd events) <+: reads.flatten :=
    same ▸ lastWhole_begins _
  have fewC : (lastWhole (C.arrivals fd events)).length / messageSize < 2 ^ 31 :=
    lt_of_le_of_lt (Nat.div_le_div_right begins.length_le) few
  have distinctC : (insertTimestamps (allMessages (lastWhole (C.arrivals fd events)))).Nodup :=
    distinct.sublist (((allMessages_begins begins).filter _).map _).sublist
  have net := (C.run_serves memory clean each ran).net fd
  rw [C.answers_eq fewC distinctC] at net
  refine ⟨_, _, connection, went, net, askedIn_begins begins, follows.sent,
    askedIn_begins (lastWhole_begins reads), fun whole => ⟨?_, ?_⟩,
    truncatedAnswer_sub_flooredAnswer⟩
  · rw [lastWhole_of_whole (same ▸ whole), ← same]
  · rw [lastWhole_of_whole whole]

/-- The prices -1 and 0, and a query for both of them. -/
def minusHalf : Bytes :=
  [73, 0, 0, 0, 1, 255, 255, 255, 255, 73, 0, 0, 0, 2, 0, 0, 0, 0, 81, 0, 0, 0, 1, 0, 0, 0, 2]

/-- They come from one of two connections, in two pieces. -/
def minusHalfTwice : List C.Event :=
  [.accept 5 fun _ => 0, .accept 6 fun _ => 0,
    .data 6 (.data (minusHalf.take 10) (by decide)),
    .data 5 (.data (minusHalf.take 9) (by decide)),
    .data 6 (.data (minusHalf.drop 10) (by decide))]

theorem servers_answer_prices_minusHalf :
    ∃ final connection,
      run C.eventStep (.init fun _ => 0) minusHalfTwice = some final ∧
      run Zig.readTurn .init ([minusHalf.take 9, minusHalf.drop 9].map .data) = some connection ∧
      final.net 6 = [0, 0, 0, 0] ∧ connection.sent = [255, 255, 255, 255] := by
  obtain ⟨final, ran⟩ := Option.isSome_iff_exists.mp
    (show (run C.eventStep (.init fun _ => 0) minusHalfTwice).isSome by decide +kernel)
  have clean : ∀ event ∈ minusHalfTwice, event.Clean := by
    simp [minusHalfTwice, C.Event.Clean, C.Turn.data, CUtils.recvResult, CUtils.transmits_whole]
  have each := C.eachStep_small (C.serves_init fun _ => 0) clean (by decide)
  obtain ⟨asksC, asksZig, connection, went, net, -, sent, -, whole, -⟩ :=
    @servers_answer_prices (fun _ => 0) _ _ clean each ran 6 [minusHalf.take 9, minusHalf.drop 9]
      (by decide) (by decide) (by decide) (by decide +kernel)
  obtain ⟨rfl, rfl⟩ := whole (by decide)
  exact ⟨final, connection, ran, went, net.trans (by decide +kernel),
    sent.trans (by decide +kernel)⟩

end NetworkExercises.MeansToAnEnd
