/-
Module: NetworkExercises.SmokeTest.Zig
Purpose: `0-smoke-test/main.zig`: the turns of the loop of a connection, which is sent back
  what it sends.
Main exports: Turn, Connection, readTurn
-/
import NetworkExercises.SpeedDaemon.Dispatch

namespace NetworkExercises.SmokeTest.Zig

open Lib

-- A write ends as it does in the speed daemon.
open SpeedDaemon (WriteResult)

def buffSize : Nat := 1048576

/-- How one turn of the loop comes out of the system: its read, which fits into the buffer, and
its write if there is one. -/
structure Turn where
  read : Except String Bytes
  written : WriteResult
  fits : ∀ data, read = .ok data → data.length ≤ buffSize

/-- The bytes of a turn; a read that fails has none. -/
def Turn.data (turn : Turn) : Bytes :=
  match turn.read with
  | .ok data => data
  | .error _ => []

/-- What `handle_connection` has sent, and whether it has returned. -/
structure Connection where
  sent : Bytes
  closed : Bool

namespace Connection

def init : Connection := ⟨[], false⟩

/-- `return`, with the deferred `stream.close`. -/
def close (connection : Connection) : Connection := { connection with closed := true }

end Connection

/-- One turn of the loop of `handle_connection`; a connection that is closed has left
the loop. -/
def readTurn (connection : Connection) (turn : Turn) : Connection :=
  if connection.closed then connection
  else if turn.data.length = 0 then connection.close
  else
    match turn.written with
    | .all => { connection with sent := connection.sent ++ turn.data }
    | .failed count _ =>
        { connection with sent := connection.sent ++ turn.data.take count }.close

end NetworkExercises.SmokeTest.Zig
