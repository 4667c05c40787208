/-
Module: NetworkExercises.BudgetChat.Zig.Handler
Purpose: `handle_connection` of `3-budget-chat/main.zig`, one turn of its loop at a time.
Main exports: MsgBuffer, format, roomListing, Handler, Room, leave, joinRoom, speak, Event,
  chatStep
-/
import NetworkExercises.BudgetChat.Zig.Clients
import NetworkExercises.Lib.Lines

namespace NetworkExercises.BudgetChat.Zig

open Lib
open SpeedDaemon (SocketFd WriteResult)

def needle : UInt8 := 10

/-! ### Messages -/

/-- `msg_buffer`, which is empty at the start of every turn and where the handler returns. -/
abbrev MsgBuffer := BoundedArray UInt8 1024

/-- `std.fmt.format` into the buffer, piece by piece, and whether everything fitted. -/
def format (buffer : MsgBuffer) : List Bytes → MsgBuffer × Bool
  | [] => (buffer, true)
  | piece :: pieces =>
      match buffer.appendSlice piece with
      | none => (buffer, false)
      | some buffer => format buffer pieces

def welcome : Bytes := ascii "Welcome to budgetchat! What shall I call you?\n"

def invalidUsername : Bytes := ascii "Invalid username. Please try again.\n"

def usernameTaken : Bytes := ascii "Username already taken. Please try again.\n"

/-- The pieces of `"* {s} has entered the room\n"`. -/
def enteredPieces (username : Bytes) : List Bytes :=
  [ascii "* ", username, ascii " has entered the room\n"]

/-- The pieces of `"* {s} has left the room\n"`. -/
def leftPieces (username : Bytes) : List Bytes :=
  [ascii "* ", username, ascii " has left the room\n"]

/-- The pieces of `"[{s}] {s}\n"`. -/
def messagePieces (username msg : Bytes) : List Bytes :=
  [ascii "[", username, ascii "] ", msg, ascii "\n"]

/-- The loop over the usernames; nothing where the buffer overflows. -/
def listingLoop (first : Bool) (buffer : MsgBuffer) : List Bytes → Option MsgBuffer
  | [] => some buffer
  | username :: usernames => do
      let buffer ← if first then buffer.appendSlice (ascii ", ") else some buffer
      let buffer ← buffer.appendSlice username
      listingLoop true buffer usernames

/-- The message with the friends in the chat. -/
def roomListing (usernames : List Bytes) : Option MsgBuffer := do
  let buffer ← BoundedArray.clear.appendSlice (ascii "* The room contains: ")
  let buffer ← listingLoop false buffer usernames
  buffer.appendSlice (ascii "\n")

/-! ### The room -/

/-- The state of a `handle_connection` between two turns of its loop.  `received` are the
bytes that it has read; the program does not keep them. -/
structure Handler where
  client : Client
  recvFifo : Bytes
  received : Bytes

/-- The members, the handlers that are running, and every write with the connection whose
handler made it. -/
structure Room where
  clients : Clients
  handlers : SocketFd → Option Handler
  history : List (SocketFd × Write)

namespace Room

def init : Room := ⟨.empty, fun _ => none, []⟩

/-- What the handler of a connection writes. -/
def log (room : Room) (fd : SocketFd) (made : List Write) : Room :=
  { room with history := room.history ++ made.map fun write => (fd, write) }

def setHandler (room : Room) (fd : SocketFd) (handler : Option Handler) : Room :=
  { room with handlers := Function.update room.handlers fd handler }

end Room

/-- `return` from `handle_connection`, with its deferred blocks. -/
def leave (room : Room) (fd : SocketFd) (client : Client) (writes : Writes) : Room :=
  if client.joined then
    let (msgBuffer, _) := format .clear (leftPieces client.name)
    let (made, _) := room.clients.sendMessageFrom writes client msgBuffer.items
    { (room.log fd made).setHandler fd none with clients := room.clients.remove client }
  else room.setHandler fd none

/-- A message to the stream of the handler itself, and whether it was written. -/
def tell (room : Room) (fd : SocketFd) (message : Bytes) (writes : Writes) : Room × Bool :=
  let (made, all) := writeAll writes message [fd]
  (room.log fd made, all)

/-- The turn of a handler whose client has not joined, with a message; nothing where it
reaches `unreachable`. -/
def joinRoom (room : Room) (fd : SocketFd) (handler : Handler) (msg : Bytes)
    (writes : Writes) : Option Room :=
  match handler.client.validateUsername msg with
  | none => none
  | some (false, client) =>
      let (room, _) := tell room fd invalidUsername writes
      some (leave room fd client writes)
  | some (true, client) =>
      if room.clients.exists_ client then
        let (room, _) := tell room fd usernameTaken writes
        some (leave room fd client writes)
      else
        match roomListing room.clients.getUsernames with
        | none => none
        | some listing =>
            let (room, told) := tell room fd listing.items writes
            if !told then some (leave room fd client writes)
            else
              let (msgBuffer, formatted) := format .clear (enteredPieces client.name)
              if !formatted then some (leave room fd client writes)
              else
                let (made, sent) := room.clients.sendMessage writes msgBuffer.items
                let room := room.log fd made
                if !sent then some (leave room fd client writes)
                else
                  match room.clients.add client with
                  | none => some (leave room fd client writes)
                  | some clients =>
                      some
                        ({ room with clients := clients }.setHandler fd
                          (some { handler with client := client, recvFifo := [] }))

/-- The turn of a handler whose client has joined, with a message. -/
def speak (room : Room) (fd : SocketFd) (handler : Handler) (msg : Bytes) (writes : Writes) :
    Room :=
  let client := handler.client
  let (msgBuffer, formatted) := format .clear (messagePieces client.name msg)
  if !formatted then leave room fd client writes
  else
    let (made, sent) := room.clients.sendMessageFrom writes client msgBuffer.items
    let room := room.log fd made
    if !sent then leave room fd client writes
    else room.setHandler fd (some { handler with recvFifo := [] })

/-- What the system does next: it accepts a connection, or a read of one returns. -/
inductive Event where
  | connect (fd : SocketFd) (writes : Writes)
  | read (fd : SocketFd) (result : Except String Bytes) (writes : Writes)

/-- The connection that an event is about. -/
def Event.fd : Event → SocketFd
  | .connect fd _ => fd
  | .read fd _ _ => fd

/-- How the writes of an event end. -/
def Event.writes : Event → Writes
  | .connect _ writes => writes
  | .read _ _ writes => writes

/-- A turn of the loop with some data. -/
def readTurn (room : Room) (fd : SocketFd) (handler : Handler) (data : Bytes)
    (writes : Writes) : Option Room :=
  let handler :=
    { handler with
      recvFifo := handler.recvFifo ++ data
      received := handler.received ++ data }
  match lastIndexOf needle handler.recvFifo with
  | none => some (room.setHandler fd (some handler))
  | some idx =>
      let msg := handler.recvFifo.take idx
      if !handler.client.joined then joinRoom room fd handler msg writes
      else some (speak room fd handler msg writes)

/-- The handlers take turns.  A descriptor is not given to a second connection while its
handler runs. -/
def chatStep (room : Room) : Event → Option Room
  | .connect fd writes =>
      match room.handlers fd with
      | some _ => none
      | none =>
          let client := Client.init fd
          let (room, told) := tell room fd welcome writes
          if !told then some room
          else some (room.setHandler fd (some ⟨client, [], []⟩))
  | .read fd result writes =>
      match room.handlers fd with
      | none => none
      | some handler =>
          match result with
          | .error _ => some (leave room fd handler.client writes)
          | .ok data =>
              if data.length = 0 then some (leave room fd handler.client writes)
              else readTurn room fd handler data writes

end NetworkExercises.BudgetChat.Zig
