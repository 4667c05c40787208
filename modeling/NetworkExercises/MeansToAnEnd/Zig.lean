/-
Module: NetworkExercises.MeansToAnEnd.Zig
Purpose: `2-means-to-an-end/main.zig`: `messages_parse`, and the turns of the read loop of
  a connection.
Main exports: messagesParse, Connection, readTurn
-/
import NetworkExercises.MeansToAnEnd.Messages
import NetworkExercises.Lib.Run
import NetworkExercises.SpeedDaemon.Dispatch

namespace NetworkExercises.MeansToAnEnd.Zig

open Lib

-- A write ends as it does in the speed daemon.
open SpeedDaemon (WriteResult)

/-! ### Messages -/

/-- The result of a signed operation at `width` bits: the program traps when the value does
not fit. -/
def fitsSigned (width : Nat) (value : Int) : Option Int :=
  if -2 ^ (width - 1) ≤ value ∧ value < 2 ^ (width - 1) then some value else none

/-- One turn of the loop over the prices, on `avg` and `count`. -/
def countPrice (query : AssetPriceQuery) (total : Int × Int) (asset : AssetPrice) :
    Option (Int × Int) :=
  if query.within asset then do
    let avg ← fitsSigned 64 (total.1 + asset.price.toInt)
    let count ← fitsSigned 64 (total.2 + 1)
    return (avg, count)
  else some total

/-- The result of a query; the division rounds down. -/
def queryResult (assets : List AssetPrice) (query : AssetPriceQuery) : Option Int32 := do
  let (avg, count) ← assets.foldlM (countPrice query) (0, 0)
  if count = 0 then return 0
  else
    let result ← fitsSigned 32 (avg.fdiv count)
    return Int32.ofInt result

/-- The `switch` of `messages_parse`, on the response and the prices. -/
def handleMessage (state : Bytes × List AssetPrice) (msg : Message) :
    Option (Bytes × List AssetPrice) :=
  let (response, assets) := state
  if msg.type = messageInsert then
    some (response, assets ++ [⟨msg.firstWord, msg.secondWord⟩])
  else if msg.type = messageQuery then
    (queryResult assets ⟨msg.firstWord, msg.secondWord⟩).map fun result =>
      (response ++ wordBytes result, assets)
  else some state

/-- `messages_parse`; nothing where it traps. -/
def messagesParse (data response : Bytes) (assets : List AssetPrice) :
    Option (Bytes × List AssetPrice) :=
  (messages data (data.length / messageSize)).foldlM handleMessage (response, assets)

/-! ### A connection -/

/-- The state of `handle_connection` between two reads, and what it has sent.  A fifo is read
as a flat queue of bytes: of a `LinearFifo` that has wrapped around, `readableSlice(0)` is only
the contiguous part.  `received` is the number of bytes that were read and `processed` are the
messages that were handled; the program does not keep them. -/
structure Connection where
  recvFifo : Bytes
  sendFifo : Bytes
  assets : List AssetPrice
  sent : Bytes
  closed : Bool
  received : Nat
  processed : List Message
deriving DecidableEq

namespace Connection

def init : Connection := ⟨[], [], [], [], false, 0, []⟩

/-- `return`, with the deferred `stream.close`. -/
def close (connection : Connection) : Connection := { connection with closed := true }

end Connection

/-- How one turn of the loop comes out of the system: its read, and its write if there
is one. -/
structure Turn where
  read : Except String Bytes
  written : WriteResult

/-- The part of a turn behind `messages_parse`. -/
def respond (written : WriteResult) (connection : Connection) : Connection :=
  let resp := connection.sendFifo
  match (if resp.length > 0 then written else .all) with
  | .failed count _ => { connection with sent := connection.sent ++ resp.take count }.close
  | .all =>
      { connection with
        sent := connection.sent ++ resp
        sendFifo := connection.sendFifo.drop resp.length
        recvFifo := connection.recvFifo.drop connection.recvFifo.length }

/-- One turn of the loop of `handle_connection`; a connection that is closed has left
the loop. -/
def readTurn (connection : Connection) (turn : Turn) : Option Connection :=
  if connection.closed then some connection
  else
    match turn.read with
    | .error _ => some connection.close
    | .ok data =>
        if data.length = 0 then some connection.close
        else
          let connection : Connection :=
            { connection with
              recvFifo := connection.recvFifo ++ data
              received := connection.received + data.length }
          if connection.recvFifo.length % messageSize ≠ 0 then some connection
          else
            (messagesParse connection.recvFifo connection.sendFifo connection.assets).map
              fun (sendFifo, assets) =>
                respond turn.written
                  { connection with
                    sendFifo := sendFifo
                    assets := assets
                    processed := connection.processed ++
                      messages connection.recvFifo (connection.recvFifo.length / messageSize) }

end NetworkExercises.MeansToAnEnd.Zig
