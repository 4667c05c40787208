/-
Module: NetworkExercises.MeansToAnEnd.C.MessageParse
Purpose: The price table of `means-to-an-end/asset-prices.c`, and `message_parse` of
  `means-to-an-end/messages.c`.
Main exports: AssetPrices, assetPricesInit, assetPricesPush, assetPricesQuery, messageParse
-/
import NetworkExercises.CUtils.Queue
import NetworkExercises.MeansToAnEnd.Messages

namespace NetworkExercises.MeansToAnEnd.C

open Lib CUtils

/-! ### The price table -/

/-- `struct asset_prices`; `size` is the length of the data. -/
structure AssetPrices where
  data : List AssetPrice
  capacity : Nat

namespace AssetPrices

def size (ps : AssetPrices) : Nat := ps.data.length

end AssetPrices

/-- `asset_prices_init`. -/
def assetPricesInit (capacity : Nat) : AssetPrices := ⟨[], capacity⟩

/-- `asset_prices_push`. -/
def assetPricesPush (ps : AssetPrices) (price : AssetPrice) : AssetPrices :=
  let ps := if ps.size + 1 ≥ ps.capacity then { ps with capacity := ps.capacity * 2 } else ps
  { ps with data := ps.data ++ [price] }

/-- `asset_prices_duplicate_timestamp_check`. -/
def assetPricesDuplicateTimestampCheck (ps : AssetPrices) (timestamp : Int32) : Bool :=
  ps.data.any fun price => price.timestamp = timestamp

/-- One turn of the loop of `asset_prices_query`, on the sum and the number of prices; both
wrap around. -/
def countPrice (query : AssetPriceQuery) (total : Int64 × Int32) (price : AssetPrice) :
    Int64 × Int32 :=
  if query.within price then (total.1 + price.price.toInt64, total.2 + 1) else total

/-- `asset_prices_query`; the division truncates. -/
def assetPricesQuery (ps : AssetPrices) (query : AssetPriceQuery) : Int32 :=
  if ps.size = 0 then 0
  else
    let (mean, numPrices) := ps.data.foldl (countPrice query) (0, 0)
    if numPrices = 0 then 0 else (mean / numPrices.toInt64).toInt32

/-! ### Messages -/

/-- The `switch` of `message_parse`. -/
def handleMessage (state : AssetPrices × Queue) (msg : Message) : AssetPrices × Queue :=
  let (ps, sdqu) := state
  if msg.type = messageQuery then
    (ps, queuePush sdqu (wordBytes (assetPricesQuery ps ⟨msg.firstWord, msg.secondWord⟩)))
  else if msg.type = messageInsert then
    if assetPricesDuplicateTimestampCheck ps msg.firstWord then state
    else (assetPricesPush ps ⟨msg.firstWord, msg.secondWord⟩, sdqu)
  else state

/-- `message_parse` on `dsize` bytes of data; the number of messages is an `int`. -/
def messageParse (ps : AssetPrices) (sdqu : Queue) (data : Bytes) : AssetPrices × Queue :=
  let numMsgs := toInt (data.length / messageSize)
  (messages data numMsgs.toNat).foldl handleMessage (ps, sdqu)

end NetworkExercises.MeansToAnEnd.C
