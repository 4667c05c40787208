/-
Module: NetworkExercises.BudgetChat.Zig.Clients
Purpose: The members of the room of `3-budget-chat/main.zig`, and what is written to them.
Main exports: Client, Client.validateUsername, Write, writeAll, Clients
-/
import NetworkExercises.Lib.ArrayMap
import NetworkExercises.Lib.BigEndian
import NetworkExercises.Lib.Checked
import NetworkExercises.SpeedDaemon.Dispatch

namespace NetworkExercises.BudgetChat.Zig

open Lib

-- Descriptors, and the ways a write can end, are those of the speed daemon.
open SpeedDaemon (SocketFd WriteResult)

/-! ### A client -/

/-- `Client`; a stream is its descriptor. -/
structure Client where
  stream : SocketFd
  joined : Bool
  username : BoundedArray UInt8 32
deriving DecidableEq

namespace Client

/-- The name as text. -/
def name (self : Client) : Bytes := self.username.items

def init (stream : SocketFd) : Client := ⟨stream, false, .clear⟩

/-- `std.ascii.isAlphanumeric`. -/
def isAlphanumeric (c : UInt8) : Bool :=
  (48 ≤ c && c ≤ 57) || (65 ≤ c && c ≤ 90) || (97 ≤ c && c ≤ 122)

/-- Whether `validate_username` finds nothing wrong with a name. -/
def isValidUsername (username : Bytes) : Bool :=
  !(32 < username.length) && !(username.length < 1) && username.all isAlphanumeric

/-- `validate_username`; nothing where the name does not fit behind the one that is there. -/
def validateUsername (self : Client) (username : Bytes) : Option (Bool × Client) :=
  if isValidUsername username then
    (self.username.appendSlice username).map fun appended =>
      (true, { self with username := appended, joined := true })
  else some (false, self)

end Client

/-! ### Writing -/

/-- A message that was written to a stream, and how that ended. -/
structure Write where
  stream : SocketFd
  message : Bytes
  written : WriteResult
deriving DecidableEq

/-- How the system ends a write of a message to a stream. -/
abbrev Writes := SocketFd → Bytes → WriteResult

/-- `try stream.writeAll(message)` for one stream after the other: what was written, and
whether all of it was. -/
def writeAll (writes : Writes) (message : Bytes) : List SocketFd → List Write × Bool
  | [] => ([], true)
  | stream :: streams =>
      match writes stream message with
      | .all =>
          let (others, all) := writeAll writes message streams
          (⟨stream, message, .all⟩ :: others, all)
      | .failed count errorName => ([⟨stream, message, .failed count errorName⟩], false)

/-! ### The members -/

/-- `Clients`, whose map is keyed by name. -/
abbrev Clients := ArrayMap Bytes Client

namespace Clients

/-- `exists`. -/
def exists_ (self : Clients) (client : Client) : Bool := self.contains client.name

/-- `add`; nothing where the client exists already. -/
def add (self : Clients) (client : Client) : Option Clients :=
  if self.contains client.name then none else some (self.put client.name client)

/-- `get_usernames`. -/
def getUsernames (self : Clients) : List Bytes := self.keys

def remove (self : Clients) (client : Client) : Clients := self.swapRemove client.name

/-- `send_message`. -/
def sendMessage (self : Clients) (writes : Writes) (message : Bytes) : List Write × Bool :=
  writeAll writes message ((self.values.filter Client.joined).map Client.stream)

/-- `send_message_from`; it fails where the client is not found. -/
def sendMessageFrom (self : Clients) (writes : Writes) (sender : Client) (message : Bytes) :
    List Write × Bool :=
  match self.getIndex sender.name with
  | none => ([], false)
  | some idx =>
      writeAll writes message
        (((self.values.eraseIdx idx).filter Client.joined).map Client.stream)

end Clients

end NetworkExercises.BudgetChat.Zig
