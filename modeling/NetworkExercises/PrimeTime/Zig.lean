/-
Module: NetworkExercises.PrimeTime.Zig
Purpose: `1-prime-time/main.zig`: the check of a request, the loop over the lines of a
  read, and the turns of the read loop of a connection.
Main exports: parseRequest, processMessages, Connection, readTurn
-/
import NetworkExercises.PrimeTime.Json
import NetworkExercises.Lib.Lines
import NetworkExercises.Lib.Run
import NetworkExercises.SpeedDaemon.Dispatch

namespace NetworkExercises.PrimeTime.Zig

open Lib

-- A write ends as it does in the speed daemon.
open SpeedDaemon (WriteResult)

def needle : UInt8 := 10

def malformedResp : Bytes := ascii "\x7b\"malformed request received!!!!\"\x7d\n"

/-! ### Requests -/

inductive JsonReqParseError where
  | emptyRequest
  | invalidRequest
  | missingMethod
  | invalidMethod
  | missingNumber
  | invalidNumber
deriving DecidableEq, Repr

/-- What `parse_request` fails with: an error of its own, or one of the parser. -/
inductive RequestError where
  | request (error : JsonReqParseError)
  | parser (errorName : String)
deriving DecidableEq, Repr

/-- `std.json.parseFromSlice(std.json.Value, ..)`. -/
abbrev Parser := Bytes → Except String Json

/-- The part of `parse_request` on a value that was parsed. -/
def checkRequest (value : Json) : Except JsonReqParseError Int64 :=
  match value with
  | .object fields =>
      match Json.get fields (ascii "method") with
      | none => .error .missingMethod
      | some (.string method) =>
          if method.length ≠ (ascii "isPrime").length then .error .invalidMethod
          else if method ≠ ascii "isPrime" then .error .invalidMethod
          else
            match Json.get fields (ascii "number") with
            | none => .error .missingNumber
            | some (.numberString _) | some (.float _) => .ok 0
            | some (.integer number) => .ok number
            | some _ => .error .invalidNumber
      | some _ => .error .invalidMethod
  | _ => .error .invalidRequest

/-- `parse_request`. -/
def parseRequest (parse : Parser) (req : Bytes) : Except RequestError Int64 :=
  if req.length = 0 then .error (.request .emptyRequest)
  else
    match parse req with
    | .error errorName => .error (.parser errorName)
    | .ok value => (checkRequest value).mapError .request

/-! ### The messages of a read -/

/-- The `while` loop of `processMessages`, from `start` on: whether a request was
malformed, and the send fifo; nothing when `is_prime` overflows. -/
def processLoop (parse : Parser) (messages : Bytes) :
    (turns start : Nat) → (sendFifo : Bytes) → Option (Bool × Bytes)
  | 0, _, sendFifo => some (false, sendFifo)
  | turns + 1, start, sendFifo =>
      match (messages.drop start).findIdx? (· == needle) with
      | none => some (false, sendFifo)
      | some idx =>
          let idx := idx + start
          match parseRequest parse ((messages.take idx).drop start) with
          | .error _ => some (true, sendFifo ++ malformedResp)
          | .ok number =>
              isPrime number >>= fun prime =>
                let sendFifo := sendFifo ++ formatResponse prime
                let start := idx + 1
                if start ≥ messages.length then some (false, sendFifo)
                else processLoop parse messages turns start sendFifo

/-- `processMessages`.  Every turn of the loop moves `start` on. -/
def processMessages (parse : Parser) (messages sendFifo : Bytes) : Option (Bool × Bytes) :=
  processLoop parse messages (messages.length + 1) 0 sendFifo

/-! ### A connection -/

/-- The state of `handle_connection` between two reads, and what it has sent.  A fifo is read
as a flat queue of bytes: of a `LinearFifo` that has wrapped around, `readableSlice(0)` is only
the contiguous part. -/
structure Connection where
  recvFifo : Bytes
  sendFifo : Bytes
  sent : Bytes
  closed : Bool
deriving DecidableEq

namespace Connection

def init : Connection := ⟨[], [], [], false⟩

/-- `return`, with the deferred `stream.close`. -/
def close (connection : Connection) : Connection := { connection with closed := true }

end Connection

/-- How one turn of the loop comes out of the system: its read, and its write if there
is one. -/
structure Turn where
  read : Except String Bytes
  written : WriteResult

/-- The part of a turn behind `processMessages`. -/
def respond (malformed : Bool) (idx : Nat) (written : WriteResult) (connection : Connection) :
    Connection :=
  let resp := connection.sendFifo
  match (if resp.length > 0 then written else .all) with
  | .failed count _ =>
      { connection with sent := connection.sent ++ resp.take count }.close
  | .all =>
      let connection := { connection with sent := connection.sent ++ resp }
      -- The fifos are not advanced on this way out.
      if malformed then connection.close
      else
        { connection with
          sendFifo := connection.sendFifo.drop resp.length
          recvFifo := connection.recvFifo.drop idx }

/-- One turn of the loop of `handle_connection`; a connection that is closed has left
the loop. -/
def readTurn (parse : Parser) (connection : Connection) (turn : Turn) : Option Connection :=
  if connection.closed then some connection
  else
    match turn.read with
    | .error _ => some connection.close
    | .ok data =>
        if data.length = 0 then some connection.close
        else
          let connection := { connection with recvFifo := connection.recvFifo ++ data }
          match lastIndexOf needle connection.recvFifo with
          | none => some connection
          | some idx =>
              let idx := idx + 1
              (processMessages parse (connection.recvFifo.take idx) connection.sendFifo).map
                fun (malformed, sendFifo) =>
                  respond malformed idx turn.written { connection with sendFifo := sendFifo }

end NetworkExercises.PrimeTime.Zig
