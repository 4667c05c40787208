/-
Module: NetworkExercises.BudgetChat.Zig.JoinRace
Purpose: Two clients that join the room of `3-budget-chat/main.zig` at the same time, each in
  its own thread.
Main exports: Phase, Joiner, joinStep, JoinRace, RaceAction, raceStep
-/
import NetworkExercises.BudgetChat.Zig.Handler

namespace NetworkExercises.BudgetChat.Zig

open Lib
open SpeedDaemon (SocketFd)

/-- What a handler does next for a client whose name is valid.  Each step is one block under
the mutex of the clients, with what the handler does alone around it. -/
inductive Phase where
  | check
  | list
  | announce
  | add
  | finished
  | failed
deriving DecidableEq, Repr

/-- A handler that lets a client join, and the usernames that it was given. -/
structure Joiner where
  handler : Handler
  client : Client
  phase : Phase
  listed : List Bytes

/-- `return` from the handler. -/
def Joiner.fail (joiner : Joiner) (room : Room) (writes : Writes) : Room × Joiner :=
  (leave room joiner.client.stream joiner.client writes, { joiner with phase := .failed })

/-- The next step of a joining client; nothing where it reaches `unreachable`, or has no
more steps. -/
def joinStep (room : Room) (joiner : Joiner) (writes : Writes) : Option (Room × Joiner) :=
  let client := joiner.client
  match joiner.phase with
  | .check =>
      -- `if (clients.exists(&client))`
      if room.clients.exists_ client then
        let (room, _) := tell room client.stream usernameTaken writes
        some (joiner.fail room writes)
      else some (room, { joiner with phase := .list })
  | .list =>
      -- `const usernames = clients.get_usernames()`
      let usernames := room.clients.getUsernames
      match roomListing usernames with
      | none => none
      | some listing =>
          let (room, told) := tell room client.stream listing.items writes
          if !told then some (joiner.fail room writes)
          else some (room, { joiner with phase := .announce, listed := usernames })
  | .announce =>
      -- `clients.send_message(msg_buffer.constSlice())`
      let (msgBuffer, formatted) := format .clear (enteredPieces client.name)
      if !formatted then some (joiner.fail room writes)
      else
        let (made, sent) := room.clients.sendMessage writes msgBuffer.items
        let room := room.log client.stream made
        if !sent then some (joiner.fail room writes)
        else some (room, { joiner with phase := .add })
  | .add =>
      -- `clients.add(&client)`
      match room.clients.add client with
      | none => some (joiner.fail room writes)
      | some clients =>
          let room :=
            { room with clients := clients }.setHandler client.stream
              (some { joiner.handler with client := client, recvFifo := [] })
          some (room, { joiner with phase := .finished })
  | .finished | .failed => none

/-- Two joining clients, told apart by a Boolean. -/
structure JoinRace where
  room : Room
  joiners : Bool → Joiner

namespace JoinRace

def name (race : JoinRace) (who : Bool) : Bytes := (race.joiners who).client.name

def stream (race : JoinRace) (who : Bool) : SocketFd := (race.joiners who).client.stream

def phase (race : JoinRace) (who : Bool) : Phase := (race.joiners who).phase

end JoinRace

/-- A step of one of the two, or what other clients do to the map in the meantime. -/
inductive RaceAction where
  | join (who : Bool) (writes : Writes)
  | others (clients : Clients)

/-- One step.  Other clients have names and streams of their own. -/
def raceStep (race : JoinRace) : RaceAction → Option JoinRace
  | .join who writes =>
      (joinStep race.room (race.joiners who) writes).map fun (room, joiner) =>
        ⟨room, Function.update race.joiners who joiner⟩
  | .others clients =>
      if (∀ who, ∀ entry ∈ clients.entries,
            entry.1 = race.name who ∨ entry.2.stream = race.stream who →
              entry ∈ race.room.clients.entries) ∧
          (∀ who, ∀ entry ∈ race.room.clients.entries,
            entry.1 = race.name who ∨ entry.2.stream = race.stream who →
              entry ∈ clients.entries) then
        some { race with room := { race.room with clients := clients } }
      else none

end NetworkExercises.BudgetChat.Zig
