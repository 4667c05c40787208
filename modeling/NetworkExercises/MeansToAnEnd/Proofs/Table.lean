/-
Module: NetworkExercises.MeansToAnEnd.Proofs.Table
Purpose: The price table of the C server after any calls of `message_parse`: the first price
  of every time, and what the queries answer from it.
Main exports: Keeps, askedFirst, foldl_handleMessage_keeps, first_prices_answered
-/
import NetworkExercises.Lib.FirstWins
import NetworkExercises.MeansToAnEnd.Proofs.Calls

namespace NetworkExercises.MeansToAnEnd

open Lib CUtils

/-- The prices that each query asks for, among the first ones of every time. -/
abbrev askedFirst (entered : List AssetPrice) (msgs : List Message) : List (List Int32) :=
  askedFrom (firsts AssetPrice.timestamp) entered msgs

namespace C

/-- The table keeps the first price of every time, in the order in which they were
inserted, and has room for one more. -/
structure Keeps (entered : List AssetPrice) (ps : AssetPrices) : Prop where
  data : ps.data = firsts AssetPrice.timestamp entered
  room : ps.size < ps.capacity

variable {entered : List AssetPrice} {ps : AssetPrices} {qu : Queue} {held : Bytes}
  {msg : Message} {msgs : List Message}

theorem Keeps.init {capacity : Nat} (positive : 0 < capacity) :
    Keeps [] (assetPricesInit capacity) := ⟨rfl, positive⟩

/-- The table grows before it is full. -/
theorem assetPricesPush_room (room : ps.size < ps.capacity) (price : AssetPrice) :
    (assetPricesPush ps price).size < (assetPricesPush ps price).capacity := by
  simp only [AssetPrices.size] at room ⊢
  rw [assetPricesPush_data, List.length_append, List.length_singleton]
  unfold assetPricesPush AssetPrices.size
  split
  · show ps.data.length + 1 < ps.capacity * 2
    omega
  · next fits => exact Nat.lt_of_not_le fits

/-- An insert at a time that is there is refused, and any other is added. -/
theorem Keeps.insert (keeps : Keeps entered ps) (price : AssetPrice) :
    Keeps (entered ++ [price])
      (if assetPricesDuplicateTimestampCheck ps price.timestamp then ps
        else assetPricesPush ps price) := by
  have check : assetPricesDuplicateTimestampCheck ps price.timestamp =
      (firsts AssetPrice.timestamp entered).any
        fun other => price.timestamp == other.timestamp := by
    rw [assetPricesDuplicateTimestampCheck, keeps.data]
    congr 1
    funext other
    rw [Bool.beq_comm]
    rfl
  have data := @firsts_concat _ _ _ AssetPrice.timestamp entered price
  rw [← check] at data
  constructor
  · rw [data]
    split
    · exact keeps.data
    · rw [assetPricesPush_data, keeps.data]
  · split
    · exact keeps.room
    · exact assetPricesPush_room keeps.room price

/-- The answers to the queries, to each the mean of the first prices, rounded toward zero. -/
def firstReplies (entered : List AssetPrice) (msgs : List Message) : Bytes :=
  (askedFirst entered msgs).flatMap fun prices => wordBytes (truncatedAnswer prices)

/-- One message. -/
theorem handleMessage_keeps (keeps : Keeps entered ps) (holds : Holds qu held)
    (few : ∀ prices ∈ askedFirst entered [msg], prices.length < 2 ^ 31) :
    Keeps (entered ++ inserted [msg]) (handleMessage (ps, qu) msg).1 ∧
      Holds (handleMessage (ps, qu) msg).2 (held ++ firstReplies entered [msg]) := by
  rw [firstReplies]
  simp only [askedFirst, askedFrom] at few ⊢
  by_cases isInsert : msg.type = messageInsert
  · have notQuery : msg.type ≠ messageQuery :=
      fun isQuery => messageQuery_ne_messageInsert (isQuery.symm.trans isInsert)
    have inserts : inserted [msg] = [⟨msg.firstWord, msg.secondWord⟩] := by
      simp [inserted, isInsert]
    have kept := keeps.insert ⟨msg.firstWord, msg.secondWord⟩
    rw [if_pos isInsert, List.flatMap_nil, List.append_nil, inserts]
    simp only [handleMessage, if_neg notQuery, if_pos isInsert]
    split at kept
    · next present =>
      rw [if_pos present]
      exact ⟨kept, holds⟩
    · next new =>
      rw [if_neg new]
      exact ⟨kept, holds⟩
  · have none : inserted [msg] = [] := by simp [inserted, isInsert]
    rw [none, List.append_nil]
    rw [if_neg isInsert] at few ⊢
    by_cases isQuery : msg.type = messageQuery
    · rw [if_pos isQuery] at few ⊢
      have answer : assetPricesQuery ps ⟨msg.firstWord, msg.secondWord⟩ = truncatedAnswer
          (matching (firsts AssetPrice.timestamp entered) ⟨msg.firstWord, msg.secondWord⟩) := by
        rw [← keeps.data] at few ⊢
        exact assetPricesQuery_eq (few _ List.mem_cons_self)
      simp only [handleMessage, if_pos isQuery, answer, List.flatMap_singleton]
      exact ⟨keeps, holds_push holds _⟩
    · rw [if_neg isQuery, List.flatMap_nil, List.append_nil]
      simp only [handleMessage, if_neg isQuery, if_neg isInsert]
      exact ⟨keeps, holds⟩

/-- Any messages, one after the other. -/
theorem foldl_handleMessage_keeps (keeps : Keeps entered ps) (holds : Holds qu held)
    (few : ∀ prices ∈ askedFirst entered msgs, prices.length < 2 ^ 31) :
    Keeps (entered ++ inserted msgs) (msgs.foldl handleMessage (ps, qu)).1 ∧
      Holds (msgs.foldl handleMessage (ps, qu)).2 (held ++ firstReplies entered msgs) := by
  induction msgs generalizing entered ps qu held with
  | nil =>
      rw [firstReplies, askedFirst, askedFrom, List.flatMap_nil, List.append_nil]
      exact ⟨by simpa [inserted] using keeps, holds⟩
  | cons msg msgs ih =>
      rw [← List.singleton_append, askedFirst, askedFrom_append] at few
      obtain ⟨now, later⟩ := List.forall_mem_append.mp few
      obtain ⟨keepsNow, holdsNow⟩ := handleMessage_keeps keeps holds now
      have rest := ih keepsNow holdsNow later
      rw [List.append_assoc, ← inserted_append, List.append_assoc, List.singleton_append] at rest
      rw [List.foldl_cons, firstReplies, ← List.singleton_append, askedFirst, askedFrom_append,
        List.flatMap_append]
      exact rest

/-! ### Calls -/

/-- All calls of `message_parse` on one table. -/
def messageParseAll (calls : List Bytes) (state : AssetPrices × Queue) : AssetPrices × Queue :=
  calls.foldl (fun state data => messageParse state.1 state.2 data) state

/-- They handle every message, as long as an `int` counts those of each call. -/
theorem messageParseAll_eq {calls : List Bytes}
    (counted : ∀ data ∈ calls, data.length / messageSize < 2 ^ 31)
    (state : AssetPrices × Queue) :
    messageParseAll calls state = (callMessages calls).foldl handleMessage state := by
  induction calls generalizing state with
  | nil => rfl
  | cons data calls ih =>
      obtain ⟨first, others⟩ := List.forall_mem_cons.mp counted
      have numMsgs : (toInt (data.length / messageSize)).toNat = data.length / messageSize := by
        rw [toInt_of_lt first, Int.toNat_natCast]
      rw [messageParseAll, List.foldl_cons, callMessages, List.flatMap_cons, List.foldl_append,
        messageParse, numMsgs]
      exact ih others _

/-- What is asked of the table after some inserts. -/
structure FirstPrices (entered : List AssetPrice) (ps : AssetPrices) : Prop where
  distinct : (ps.data.map AssetPrice.timestamp).Nodup
  first : ∀ timestamp, (ps.data.find? fun price => price.timestamp == timestamp) =
    entered.find? fun price => price.timestamp == timestamp
  order : ps.data.Sublist entered
  data : ps.data = firsts AssetPrice.timestamp entered
  room : ps.size < ps.capacity

theorem Keeps.firstPrices (keeps : Keeps entered ps) : FirstPrices entered ps where
  distinct := by
    rw [keeps.data]
    exact firsts_nodup entered
  first := fun timestamp => by
    rw [keeps.data]
    exact firsts_find? entered timestamp
  order := by
    rw [keeps.data]
    exact firsts_sublist entered
  data := keeps.data
  room := keeps.room

/-- After every message of any calls the table has the first price of each time, in the order
of the inserts, and room for another one; and every query so far is answered with the mean of
those of them that it asks for, rounded toward zero.  An `int` has to count the messages of each
call, and the prices that a query asks for. -/
theorem first_prices_answered {capacity : Nat} (positive : 0 < capacity) (holds : Holds qu held)
    {calls : List Bytes} (counted : ∀ data ∈ calls, data.length / messageSize < 2 ^ 31)
    (few : ∀ prices ∈ askedFirst [] (callMessages calls), prices.length < 2 ^ 31) :
    messageParseAll calls (assetPricesInit capacity, qu) =
        (callMessages calls).foldl handleMessage (assetPricesInit capacity, qu) ∧
      ∀ front, front <+: callMessages calls →
        FirstPrices (inserted front) (front.foldl handleMessage (assetPricesInit capacity, qu)).1 ∧
          Holds (front.foldl handleMessage (assetPricesInit capacity, qu)).2
            (held ++ firstReplies [] front) := by
  refine ⟨messageParseAll_eq counted _, ?_⟩
  rintro front ⟨back, split⟩
  rw [← split, askedFirst, askedFrom_append] at few
  obtain ⟨keeps, answered⟩ := foldl_handleMessage_keeps (.init positive) holds
    (List.forall_mem_append.mp few).1
  exact ⟨keeps.firstPrices, answered⟩

/-- The prices 100 and 200 at time 1, one for each call, and a query for that time. -/
def insertedTwice : List Bytes :=
  [messageBytes ⟨messageInsert, 1, 100⟩,
    messageBytes ⟨messageInsert, 1, 200⟩ ++ messageBytes ⟨messageQuery, 0, 2⟩]

theorem first_prices_answered_twice :
    (messageParseAll insertedTwice
      (assetPricesInit 1, queueInit (fun _ => 0) 65536)).2.contents = [0, 0, 0, 100] := by
  obtain ⟨handles, keeps⟩ := @first_prices_answered _ _ 1 (by decide)
    (holds_init (fun _ => 0) (by decide : 0 < 65536)) insertedTwice (by decide +kernel)
    (by decide +kernel)
  rw [handles, (keeps _ (List.prefix_refl _)).2.contents]
  decide +kernel

/-! ### Too many prices -/

/-- The price 1 at each of the first times. -/
def ones (times : Nat) : List AssetPrice := (List.range times).map fun i => ⟨Int32.ofNat i, 1⟩

variable {times : Nat}

theorem ones_nodup (few : times ≤ 2 ^ 31) : ((ones times).map AssetPrice.timestamp).Nodup := by
  rw [ones, List.map_map]
  refine List.Nodup.map_on ?_ List.nodup_range
  intro i iMember j jMember same
  have iSmall := (List.mem_range.mp iMember).trans_le few
  have jSmall := (List.mem_range.mp jMember).trans_le few
  have values := congrArg Int32.toInt same
  simp only [Function.comp_apply] at values
  rw [Int32.toInt_ofNat_of_lt iSmall, Int32.toInt_ofNat_of_lt jSmall] at values
  exact_mod_cast values

theorem matching_ones (few : times ≤ 2 ^ 31) :
    matching (ones times) ⟨0, Int32.maxValue⟩ = List.replicate times 1 := by
  have all : (ones times).filter (AssetPriceQuery.within ⟨0, Int32.maxValue⟩) = ones times := by
    rw [List.filter_eq_self]
    intro price member
    obtain ⟨i, inside, rfl⟩ := List.mem_map.mp member
    have small := (List.mem_range.mp inside).trans_le few
    simp only [AssetPriceQuery.within, Bool.and_eq_true, decide_eq_true_eq,
      Int32.le_iff_toInt_le, Int32.toInt_ofNat_of_lt small]
    constructor
    · exact Int.natCast_nonneg i
    · show (i : Int) ≤ 2147483647
      omega
  rw [matching, all, ones, List.map_map, List.eq_replicate_iff]
  refine ⟨by simp, ?_⟩
  intro price member
  obtain ⟨i, -, rfl⟩ := List.mem_map.mp member
  rfl

/-- With 2^31 prices the counter is negative, and so is the mean. -/
theorem assetPricesQuery_ones {ps : AssetPrices} (data : ps.data = ones (2 ^ 31)) :
    assetPricesQuery ps ⟨0, Int32.maxValue⟩ = -1 := by
  have size : ps.size = 2 ^ 31 := by
    rw [AssetPrices.size, data, ones, List.length_map, List.length_range]
  have counted := foldl_countPrice ⟨0, Int32.maxValue⟩ ps.data 0 0
  have sum : total (List.replicate (2 ^ 31) 1) = 2 ^ 31 := by
    rw [total, List.map_replicate, List.sum_replicate]
    rfl
  rw [data, matching_ones le_rfl, sum, List.length_replicate, ← data] at counted
  rw [assetPricesQuery, size, if_neg (by decide),
    show ((0 : Int64), (0 : Int32)) = (Int64.ofInt 0, Int32.ofInt 0) from rfl, counted]
  decide

/-- A price at each of 2^31 times, and a query for all of them. -/
def crowded : List Message := inserts (ones (2 ^ 31)) ++ [⟨messageQuery, 0, Int32.maxValue⟩]

theorem crowded_misanswered : ¬ ∀ calls : List Bytes,
    Holds (messageParseAll calls (assetPricesInit 16, queueInit (fun _ => 0) 65536)).2
      (firstReplies [] (callMessages calls)) := by
  intro always
  have answered := always (crowded.map messageBytes)
  have counted : ∀ data ∈ crowded.map messageBytes, data.length / messageSize < 2 ^ 31 := by
    intro data member
    obtain ⟨msg, -, rfl⟩ := List.mem_map.mp member
    rw [messageBytes_length]
    decide
  obtain ⟨keeps, silent⟩ := @foldl_handleMessage_keeps [] (assetPricesInit 16)
    (queueInit (fun _ => 0) 65536) [] (inserts (ones (2 ^ 31))) (.init (by decide))
    (holds_init _ (by decide)) (by rw [askedFirst, askedFrom_of_no_query inserts_no_query]; nofun)
  -- Up to the query all is well.
  rw [inserted_inserts, List.nil_append] at keeps
  rw [firstReplies, askedFirst, askedFrom_of_no_query inserts_no_query, List.flatMap_nil,
    List.append_nil] at silent
  have data := keeps.data
  rw [firsts_of_nodup (ones_nodup le_rfl)] at data
  rw [messageParseAll_eq counted, callMessages_messageBytes, crowded, List.foldl_concat] at answered
  generalize (inserts (ones (2 ^ 31))).foldl handleMessage
    (assetPricesInit 16, queueInit (fun _ => 0) 65536) = state at answered keeps silent data
  obtain ⟨ps, qu⟩ := state
  have pushed := holds_push silent (wordBytes (-1))
  rw [handleMessage, if_pos rfl, assetPricesQuery_ones data] at answered
  have bytes := answered.contents.symm.trans pushed.contents
  rw [firstReplies, askedFirst, askedFrom_append, askedFrom_of_no_query inserts_no_query,
    inserted_inserts, askedFrom_query, List.nil_append, List.nil_append,
    firsts_of_nodup (ones_nodup le_rfl), matching_ones le_rfl, List.flatMap_singleton,
    List.nil_append] at bytes
  have words := congrArg readWord bytes
  rw [readWord_wordBytes, readWord_wordBytes, truncatedAnswer, truncatedMean, total,
    List.map_replicate, List.sum_replicate, List.length_replicate] at words
  exact absurd words (by decide)

end C

end NetworkExercises.MeansToAnEnd
