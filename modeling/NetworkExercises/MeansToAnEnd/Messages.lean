/-
Module: NetworkExercises.MeansToAnEnd.Messages
Purpose: What the two servers of exercise 2 share: the messages of nine bytes, prices and
  queries.
Main exports: AssetPrice, AssetPriceQuery, Message, messages, wordBytes, messageAt_append,
  messages_messageBytes
-/
import NetworkExercises.Lib.BigEndian

namespace NetworkExercises.MeansToAnEnd

open Lib

def messageSize : Nat := 9
def messageInsert : UInt8 := 73
def messageQuery : UInt8 := 81

structure AssetPrice where
  timestamp : Int32
  price : Int32
deriving DecidableEq

structure AssetPriceQuery where
  mintime : Int32
  maxtime : Int32
deriving DecidableEq

/-- The timestamp lies within the two times, which are both included. -/
def AssetPriceQuery.within (query : AssetPriceQuery) (asset : AssetPrice) : Bool :=
  query.mintime ≤ asset.timestamp && asset.timestamp ≤ query.maxtime

/-- A message: its type and its two words. -/
structure Message where
  type : UInt8
  firstWord : Int32
  secondWord : Int32
deriving DecidableEq

/-- A word in network byte order. -/
def readWord (bytes : Bytes) : Int32 := (UInt32.ofNat (ofBigEndian bytes)).toInt32

/-- The bytes of a word, in network byte order. -/
def wordBytes (word : Int32) : Bytes := bigEndian 4 word.toUInt32.toNat

/-- Message number `k`. -/
def messageAt (data : Bytes) (k : Nat) : Message :=
  let message := data.drop (k * messageSize)
  ⟨message.headD 0, readWord ((message.drop 1).take 4), readWord ((message.drop 5).take 4)⟩

/-- The first messages of some data. -/
def messages (data : Bytes) (numMsgs : Nat) : List Message :=
  (List.range numMsgs).map (messageAt data)

/-- A message depends on its own bytes only. -/
theorem messageAt_append {front : Bytes} {k : Nat}
    (inside : (k + 1) * messageSize ≤ front.length) (back : Bytes) :
    messageAt (front ++ back) k = messageAt front k := by
  have nine : (front.drop (k * messageSize)).length ≥ 9 := by
    rw [List.length_drop]
    simp only [messageSize] at inside ⊢
    omega
  have start : k * messageSize ≤ front.length := by
    simp only [messageSize] at inside ⊢
    omega
  unfold messageAt
  rw [List.drop_append_of_le_length start]
  generalize front.drop (k * messageSize) = message at nine
  dsimp only
  have one : 1 ≤ message.length := by omega
  have five : 5 ≤ message.length := by omega
  have first : (message ++ back).headD 0 = message.headD 0 := by
    cases message with
    | nil => simp at nine
    | cons byte message => rfl
  rw [first, List.drop_append_of_le_length one, List.drop_append_of_le_length five,
    List.take_append_of_le_length (by rw [List.length_drop]; omega),
    List.take_append_of_le_length (by rw [List.length_drop]; omega)]

/-! ### Round trips -/

theorem readWord_wordBytes (word : Int32) : readWord (wordBytes word) = word := by
  rw [readWord, wordBytes, uint32_bigEndian]
  exact Int32.toInt32_toUInt32 word

/-- The bytes of a message. -/
def messageBytes (msg : Message) : Bytes :=
  msg.type :: (wordBytes msg.firstWord ++ wordBytes msg.secondWord)

@[simp] theorem messageBytes_length (msg : Message) : (messageBytes msg).length = messageSize := by
  simp [messageBytes, wordBytes, messageSize]

theorem messageAt_messageBytes (msg : Message) : messageAt (messageBytes msg) 0 = msg := by
  have four : ∀ word, (wordBytes word).length = 4 := fun word => bigEndian_length 4 _
  have first : (wordBytes msg.firstWord ++ wordBytes msg.secondWord).take 4 =
      wordBytes msg.firstWord := List.take_left' (four _)
  have second : (wordBytes msg.firstWord ++ wordBytes msg.secondWord).drop 4 =
      wordBytes msg.secondWord := List.drop_left' (four _)
  have all : (wordBytes msg.secondWord).take 4 = wordBytes msg.secondWord :=
    List.take_of_length_le (four _).le
  simp only [messageAt, messageBytes, Nat.zero_mul, List.drop_zero, List.headD_cons,
    List.drop_succ_cons, first, second, all, readWord_wordBytes]

/-- Messages are read from their bytes. -/
theorem messages_messageBytes (msg : Message) :
    messages (messageBytes msg) ((messageBytes msg).length / messageSize) = [msg] := by
  rw [messageBytes_length, Nat.div_self (by decide), messages, List.range_one, List.map_singleton,
    messageAt_messageBytes]

end NetworkExercises.MeansToAnEnd
