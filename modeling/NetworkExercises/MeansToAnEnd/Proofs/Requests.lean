/-
Module: NetworkExercises.MeansToAnEnd.Proofs.Requests
Purpose: What an event of one client does to its session, its answers and the send queue of
  the C server.
Main exports: reply, foldl_handleMessage_reply, processRequest_spec, TurnFails, TurnWaits,
  TurnProcesses, clientTurn_cases
-/
import NetworkExercises.CUtils.Proofs.Queue
import NetworkExercises.MeansToAnEnd.C.Server

namespace NetworkExercises.MeansToAnEnd.C

open Lib CUtils
open SpeedDaemon (ReadEnd)

/-! ### Messages -/

/-- What a message does to the price table, and to the bytes of the answers. -/
def reply (state : AssetPrices × Bytes) (msg : Message) : AssetPrices × Bytes :=
  let (ps, out) := state
  if msg.type = messageQuery then
    (ps, out ++ wordBytes (assetPricesQuery ps ⟨msg.firstWord, msg.secondWord⟩))
  else if msg.type = messageInsert then
    if assetPricesDuplicateTimestampCheck ps msg.firstWord then state
    else (assetPricesPush ps ⟨msg.firstWord, msg.secondWord⟩, out)
  else state

/-- The table and the answers after some messages. -/
def replies (ps : AssetPrices) (msgs : List Message) : AssetPrices × Bytes :=
  msgs.foldl reply (ps, [])

/-- The answers are pushed behind what the queue holds. -/
theorem handleMessage_reply (ps : AssetPrices) {qu : Queue} {out : Bytes} (holds : Holds qu out)
    (msg : Message) :
    ∃ pushed, handleMessage (ps, qu) msg = ((reply (ps, out) msg).1, pushed) ∧
      Holds pushed (reply (ps, out) msg).2 := by
  unfold handleMessage reply
  by_cases isQuery : msg.type = messageQuery
  · simp only [if_pos isQuery]
    exact ⟨_, rfl, holds_push holds _⟩
  · simp only [if_neg isQuery]
    split
    · split
      · exact ⟨qu, rfl, holds⟩
      · exact ⟨qu, rfl, holds⟩
    · exact ⟨qu, rfl, holds⟩

theorem foldl_handleMessage_reply (ps : AssetPrices) {qu : Queue} {out : Bytes}
    (holds : Holds qu out) (msgs : List Message) :
    ∃ pushed, msgs.foldl handleMessage (ps, qu) = ((msgs.foldl reply (ps, out)).1, pushed) ∧
      Holds pushed (msgs.foldl reply (ps, out)).2 := by
  induction msgs generalizing ps qu out with
  | nil => exact ⟨qu, rfl, holds⟩
  | cons msg msgs ih =>
      obtain ⟨pushed, handled, answered⟩ := handleMessage_reply ps holds msg
      rw [List.foldl_cons, List.foldl_cons, handled]
      exact ih _ answered

/-- Earlier answers stay in front. -/
theorem foldl_reply_out (ps : AssetPrices) (out : Bytes) (msgs : List Message) :
    msgs.foldl reply (ps, out) = ((replies ps msgs).1, out ++ (replies ps msgs).2) := by
  have step : ∀ (ps : AssetPrices) (out : Bytes) (msg : Message),
      reply (ps, out) msg = ((reply (ps, []) msg).1, out ++ (reply (ps, []) msg).2) := by
    intro ps out msg
    simp only [reply]
    split
    · simp
    · split
      · split <;> simp
      · simp
  unfold replies
  induction msgs generalizing ps out with
  | nil => simp
  | cons msg msgs ih =>
      rw [List.foldl_cons, List.foldl_cons, step ps out, ih, ih _ (reply (ps, []) msg).2,
        List.append_assoc]

theorem replies_append (ps : AssetPrices) (front back : List Message) :
    replies ps (front ++ back) =
      ((replies (replies ps front).1 back).1,
        (replies ps front).2 ++ (replies (replies ps front).1 back).2) := by
  rw [replies, List.foldl_append]
  exact foldl_reply_out _ _ back

/-! ### Requests -/

/-- `message_parse` handles every message of less than 2^31 bytes. -/
theorem messageParse_replies (ps : AssetPrices) {qu : Queue} (empty : Holds qu [])
    {data : Bytes} (small : data.length < 2 ^ 31) :
    (toInt (data.length / messageSize)).toNat = data.length / messageSize ∧
      ∃ pushed, messageParse ps qu data =
          ((replies ps (messages data (data.length / messageSize))).1, pushed) ∧
        Holds pushed (replies ps (messages data (data.length / messageSize))).2 := by
  have fewer : data.length / messageSize < 2 ^ 31 :=
    Nat.lt_of_le_of_lt (Nat.div_le_self _ _) small
  have numMsgs : (toInt (data.length / messageSize)).toNat = data.length / messageSize := by
    rw [toInt_of_lt fewer, Int.toNat_natCast]
  rw [messageParse, numMsgs]
  exact ⟨rfl, foldl_handleMessage_reply ps empty _⟩

/-- The client after `parseRequest` has worked on some data. -/
structure Parsed (client next : Client) (data : Bytes) : Prop where
  recvQu : Holds next.session.recvQu []
  sdqu : Holds next.sdqu
    (replies client.session.asset (messages data (data.length / messageSize))).2
  clientId : next.session.clientId = client.session.clientId
  received : next.session.received = client.session.received
  processed : next.session.processed =
    client.session.processed ++ messages data (data.length / messageSize)
  asset : next.session.asset =
    (replies client.session.asset (messages data (data.length / messageSize))).1
  sent : next.sent = client.sent

/-- `parseRequest` works on the bytes whose number it was told. -/
theorem parseRequest_spec (client : Client) {held data : Bytes}
    (recv : Holds client.session.recvQu held) (empty : Holds client.sdqu [])
    (dataEq : data = held.take (toInt held.length).toNat) :
    Parsed client (parseRequest client) data := by
  obtain ⟨recvQu, pop, popped, -⟩ := holds_pop recv
  have loaded : load client.session.recvQu.data (toInt held.length).toNat = data := by
    rw [dataEq, ← recv.contents, Queue.contents, load_length]
    exact (take_load _ (toInt_toNat_le _)).symm
  have small : data.length < 2 ^ 31 := by
    rw [← loaded, load_length]
    exact toInt_toNat_lt _
  obtain ⟨numMsgs, pushed, parsed, answered⟩ :=
    messageParse_replies client.session.asset empty small
  unfold parseRequest
  rw [pop]
  dsimp only
  rw [loaded, numMsgs, parsed]
  exact ⟨popped, answered, rfl, rfl, rfl, rfl, rfl⟩

/-- One event that reads some bytes at once, and whose answers are all sent. -/
def Turn.data (bytes : Bytes) (nonempty : bytes ≠ []) : Turn :=
  ⟨⟨[bytes], .wouldBlock, SpeedDaemon.atOnce_nonempty nonempty⟩, .whole⟩

/-- `sendAnswers` leaves the send queue empty and the session as it was. -/
theorem sendAnswers_spec {client next : Client} {sends : Bytes → Sending}
    {answers : Bytes} {sentAll : Bool} (holds : Holds client.sdqu answers)
    (ran : sendAnswers client sends = some (sentAll, next)) :
    next.session = client.session ∧ Holds next.sdqu [] ∧
      (Transmits sends → sentAll = true ∧ next.sent = client.sent ++ given answers) := by
  obtain ⟨sdqu, pop, popped, -⟩ := holds_pop holds
  unfold sendAnswers at ran
  rw [pop] at ran
  dsimp only at ran
  simp only [load_given holds] at ran
  split at ran
  · next someAnswers =>
    obtain ⟨⟨handed, rs⟩, sent, ran⟩ := Option.map_eq_some_iff.mp ran
    cases ran
    refine ⟨rfl, popped, fun transmits => ?_⟩
    rw [transmits _ (given_ne_nil someAnswers)] at sent
    cases sent
    exact ⟨rfl, rfl⟩
  · next noAnswers =>
    cases ran
    refine ⟨rfl, popped, fun _ => ⟨rfl, ?_⟩⟩
    rw [given_eq_nil noAnswers, List.append_nil]

/-! ### Events -/

/-- The reads end with an error. -/
structure TurnFails (client next : Client) (turn : Turn) : Prop where
  failed : recvResult turn.arrival.ending < -1
  sdqu : Holds next.sdqu []
  closed : next.closed = true
  sent : next.sent = client.sent
  clientId : next.session.clientId = client.session.clientId
  received : next.session.received = client.session.received + turn.arrival.bytes.length
  processed : next.session.processed = client.session.processed

/-- The bytes that wait are not taken for whole messages. -/
structure TurnWaits (client next : Client) (turn : Turn) (waiting : Bytes) : Prop where
  ended : ¬ recvResult turn.arrival.ending < -1
  unready : ¬ (toInt waiting.length > 0 ∧ toInt waiting.length % messageSize = 0)
  recvQu : Holds next.session.recvQu waiting
  sdqu : Holds next.sdqu []
  closed : next.closed = (recvResult turn.arrival.ending != -1)
  sent : next.sent = client.sent
  clientId : next.session.clientId = client.session.clientId
  received : next.session.received = client.session.received + turn.arrival.bytes.length
  processed : next.session.processed = client.session.processed
  asset : next.session.asset = client.session.asset

/-- The bytes that wait are processed, as far as their number is an `int`. -/
structure TurnProcesses (client next : Client) (turn : Turn) (waiting data : Bytes) :
    Prop where
  ended : ¬ recvResult turn.arrival.ending < -1
  ready : toInt waiting.length > 0 ∧ toInt waiting.length % messageSize = 0
  dataEq : data = waiting.take (toInt waiting.length).toNat
  recvQu : Holds next.session.recvQu []
  sdqu : Holds next.sdqu []
  clientId : next.session.clientId = client.session.clientId
  received : next.session.received = client.session.received + turn.arrival.bytes.length
  processed : next.session.processed =
    client.session.processed ++ messages data (data.length / messageSize)
  asset : next.session.asset =
    (replies client.session.asset (messages data (data.length / messageSize))).1
  sends : Transmits turn.sends →
    next.closed = (recvResult turn.arrival.ending != -1) ∧
      next.sent = client.sent ++
        given (replies client.session.asset (messages data (data.length / messageSize))).2

theorem clientTurn_cases {client next : Client} {turn : Turn} {held : Bytes}
    (recv : Holds client.session.recvQu held) (empty : Holds client.sdqu [])
    (ran : clientTurn client turn = some next) :
    TurnFails client next turn ∨
      TurnWaits client next turn (held ++ turn.arrival.bytes) ∨
      ∃ data, TurnProcesses client next turn (held ++ turn.arrival.bytes) data := by
  unfold clientTurn at ran
  split at ran
  · cases ran
  · obtain ⟨⟨res, recvQu⟩, received, ran⟩ := Option.bind_eq_some_iff.mp ran
    obtain ⟨_, loop, pair⟩ := Option.map_eq_some_iff.mp received
    cases pair
    have holds : Holds recvQu (held ++ turn.arrival.bytes) := holds_recvLoop recv loop
    simp only [queuePeek_eq holds] at ran
    split at ran
    · next failed =>
      cases ran
      exact .inl ⟨failed, empty, rfl, rfl, rfl, rfl, rfl⟩
    · next ended =>
      split at ran
      · next ready =>
        obtain ⟨⟨sentAll, answered⟩, sends, ran⟩ := Option.bind_eq_some_iff.mp ran
        cases ran
        let filled : Client := { client with
          session := { client.session with
            recvQu := recvQu
            received := client.session.received + turn.arrival.bytes.length } }
        have parsed := parseRequest_spec filled holds empty rfl
        obtain ⟨session, sdqu, transmitted⟩ := sendAnswers_spec parsed.sdqu sends
        refine .inr (.inr ⟨_, ended, ready, rfl, session ▸ parsed.recvQu, sdqu,
          session ▸ parsed.clientId, session ▸ parsed.received, session ▸ parsed.processed,
          session ▸ parsed.asset, fun transmits => ?_⟩)
        obtain ⟨rfl, sent⟩ := transmitted transmits
        exact ⟨rfl, sent.trans (by rw [parsed.sent])⟩
      · next unready =>
        cases ran
        exact .inr (.inl ⟨ended, unready, holds, empty, rfl, rfl, rfl, rfl, rfl, rfl⟩)

end NetworkExercises.MeansToAnEnd.C
