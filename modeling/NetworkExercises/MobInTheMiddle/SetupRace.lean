/-
Module: NetworkExercises.MobInTheMiddle.SetupRace
Purpose: `handle_connection` of `5-mob-in-the-middle/main.zig` cut into its steps, beside the
  threads that handle the edge-triggered events of the two descriptors.
Main exports: Pair, Phase, Stage, Handling, SetupRace, SetupAction, setupStep
-/
import NetworkExercises.MobInTheMiddle.Proxy

namespace NetworkExercises.MobInTheMiddle

open Lib
open SpeedDaemon (SocketFd Net WriteResult Arrival)

/-- The two ends of a pair. -/
inductive Endpoint where
  | client
  | upstream
deriving DecidableEq, Repr

def Endpoint.other : Endpoint → Endpoint
  | .client => .upstream
  | .upstream => .client

/-- The descriptors that `accept` and `socket` have returned. -/
structure Pair where
  client : SocketFd
  upstream : SocketFd
  distinct : client ≠ upstream

def Pair.fd (pair : Pair) : Endpoint → SocketFd
  | .client => pair.client
  | .upstream => pair.upstream

/-- What `handle_connection` does next. -/
inductive Phase where
  | addClient
  | connect
  | addUpstream
  | addPair
  | finished
deriving DecidableEq, Repr

namespace Phase

def next : Phase → Phase
  | .addClient => .connect
  | .connect => .addUpstream
  | .addUpstream => .addPair
  | .addPair | .finished => .finished

/-- The descriptor has been added to the epoll instance. -/
def inEpoll (phase : Phase) : Endpoint → Bool
  | .client => phase ≠ .addClient
  | .upstream => phase = .addPair ∨ phase = .finished

/-- There is a connection, on which bytes can arrive. -/
def connected (phase : Phase) : Endpoint → Bool
  | .client => true
  | .upstream => phase ≠ .addClient ∧ phase ≠ .connect

end Phase

/-- What a thread that runs `handle_messge` does next, with what it has looked up, and the
number of bytes that it read last. -/
inductive Stage where
  | getStream
  | getFifo (upstream : SocketFd)
  | read (upstream : SocketFd) (bytes : Nat)
deriving DecidableEq, Repr

/-- A call of `handle_messge` that has not returned. -/
structure Handling where
  endpoint : Endpoint
  stage : Stage
deriving DecidableEq, Repr

/-- The set-up of a pair, what waits on its descriptors, and the threads that handle their
events.  `ready` are the descriptors for which the epoll instance has an event, `ended` are
those whose peer sends no more. -/
structure SetupRace where
  proxy : Proxy
  phase : Phase
  failed : Bool
  closed : Bool
  unread : Endpoint → Bytes
  ended : Endpoint → Bool
  ready : Endpoint → Bool
  handlers : List Handling

/-- After `accept`, for a client that has perhaps sent something already. -/
def SetupRace.start (proxy : Proxy) (sent : Bytes) : SetupRace where
  proxy := proxy
  phase := .addClient
  failed := false
  closed := false
  unread := Function.update (fun _ => []) .client sent
  ended := fun _ => false
  ready := fun _ => false
  handlers := []

/-- The steps of the set-up, of the two peers, of the main loop, and of the threads. -/
inductive SetupAction where
  | setUp
  | fail
  | arrive (endpoint : Endpoint) (bytes : Bytes)
  | hangUp (endpoint : Endpoint)
  | spawn (endpoint : Endpoint)
  | handle (index : Nat) (count : Nat) (written : WriteResult)

namespace SetupRace

/-- An edge: an event is queued where the descriptor is in the epoll instance. -/
def wake (race : SetupRace) (endpoint : Endpoint) : SetupRace :=
  { race with
    ready := Function.update race.ready endpoint
      (race.ready endpoint || race.phase.inEpoll endpoint) }

/-- The next step of `handle_connection`.  A descriptor on which something waits is ready as
soon as it is added. -/
def setUp (pair : Pair) (race : SetupRace) : SetupRace :=
  let waits := fun endpoint => race.unread endpoint ≠ [] ∨ race.ended endpoint = true
  let race : SetupRace :=
    match race.phase with
    | .addClient => { race with ready := Function.update race.ready .client (waits .client) }
    | .addUpstream =>
        { race with ready := Function.update race.ready .upstream (waits .upstream) }
    | .addPair =>
        -- `map.add(client, upstream)`
        { race with
          proxy := { race.proxy with
            connections := race.proxy.connections.add pair.client pair.upstream } }
    | .connect | .finished => race
  { race with phase := race.phase.next }

/-- The thread goes on, or returns. -/
def setStage (race : SetupRace) (index : Nat) (endpoint : Endpoint) (stage : Stage) :
    SetupRace :=
  { race with handlers := race.handlers.set index ⟨endpoint, stage⟩ }

def return_ (race : SetupRace) (index : Nat) : SetupRace :=
  { race with handlers := race.handlers.eraseIdx index }

/-- `bytes == 0`: the pair is removed and closed, which takes both out of the epoll
instance. -/
def closePair (race : SetupRace) (client : SocketFd) : SetupRace :=
  { race with
    proxy := { race.proxy with connections := race.proxy.connections.remove client }
    closed := true
    ready := fun _ => false }

/-- `client.read(buf)`, and what `handle_messge` does behind its loop. -/
def readStep (pair : Pair) (race : SetupRace) (index : Nat) (endpoint : Endpoint)
    (upstream : SocketFd) (bytes count : Nat) (written : WriteResult) : Option SetupRace :=
  let client := pair.fd endpoint
  -- The descriptor of a closed pair cannot be read.
  if race.closed then some (race.return_ index)
  else
    match race.proxy.connections.streamfifomap client with
    | none => none
    | some recvFifo =>
        let unread := race.unread endpoint
        if unread = [] then
          if race.ended endpoint ∨ bytes = 0 then
            some ((race.closePair client).return_ index)
          else
            some ({ race with
              proxy := forward client upstream recvFifo written race.proxy }.return_ index)
        else if 0 < count ∧ count ≤ unread.length then
          let connections :=
            race.proxy.connections.setFifo client (recvFifo ++ unread.take count)
          some ({ race with
            proxy := { race.proxy with connections := connections }
            unread := Function.update race.unread endpoint (unread.drop count)
            }.setStage index endpoint (.read upstream count))
        else none

/-- The next step of a thread that runs `handle_messge`. -/
def handleStep (pair : Pair) (race : SetupRace) (index : Nat) (handling : Handling)
    (count : Nat) (written : WriteResult) : Option SetupRace :=
  let endpoint := handling.endpoint
  match handling.stage with
  | .getStream =>
      match race.proxy.connections.map (pair.fd endpoint) with
      | none => some (race.return_ index)
      | some upstream => some (race.setStage index endpoint (.getFifo upstream))
  | .getFifo upstream =>
      match race.proxy.connections.streamfifomap (pair.fd endpoint) with
      | none => some (race.return_ index)
      | some _ => some (race.setStage index endpoint (.read upstream 0))
  | .read upstream bytes => readStep pair race index endpoint upstream bytes count written

end SetupRace

/-- One step of any of them. -/
def setupStep (pair : Pair) (race : SetupRace) (action : SetupAction) : Option SetupRace :=
  match action with
  | .setUp =>
      if race.failed = false ∧ race.phase ≠ .finished then some (race.setUp pair) else none
  | .fail =>
      if race.phase ≠ .finished then some { race with failed := true } else none
  | .arrive endpoint bytes =>
      if bytes ≠ [] ∧ race.phase.connected endpoint ∧ race.ended endpoint = false ∧
          race.closed = false then
        some ({ race with
          unread := Function.update race.unread endpoint (race.unread endpoint ++ bytes)
          }.wake endpoint)
      else none
  | .hangUp endpoint =>
      if race.phase.connected endpoint ∧ race.ended endpoint = false ∧
          race.closed = false then
        some ({ race with ended := Function.update race.ended endpoint true }.wake endpoint)
      else none
  | .spawn endpoint =>
      if race.ready endpoint then
        some { race with
          ready := Function.update race.ready endpoint false
          handlers := race.handlers ++ [⟨endpoint, .getStream⟩] }
      else none
  | .handle index count written =>
      match race.handlers[index]? with
      | none => none
      | some handling => race.handleStep pair index handling count written

end NetworkExercises.MobInTheMiddle
