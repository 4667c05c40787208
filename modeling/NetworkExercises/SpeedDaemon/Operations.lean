/-
Module: NetworkExercises.SpeedDaemon.Operations
Purpose: Which operations on the shared state the messages and the events of the server
  of `6-speed-daemon/main.zig` stand for.
Main exports: messageOperations, loopOperations, arrivalOperations, eventOperations,
  serverOperations
-/
import NetworkExercises.Lib.Refinement
import NetworkExercises.SpeedDaemon.Events

namespace NetworkExercises.SpeedDaemon

open Lib

/-- A client that is removed takes its dispatcher with it. -/
def Client.removal (self : Client) : List Operation :=
  match self.data with
  | .dispatcher disp => [.removeDispatcher disp]
  | _ => []

/-- A connection that cannot be added removes the client that the old pointer points to. -/
def acceptOperations (sys : Sys) (state : ServerState) : List Operation :=
  match sys.accepted, sys.epollAdd with
  | .ok _, some _ =>
      match sys.stale.bind state.clients.map with
      | some client => client.removal
      | none => []
  | _, _ => []

/-- A timer removes its client when it cannot be read or the heartbeat cannot be sent. -/
def timerOperations (event : Event) (timer : Timer) (state : ServerState) : List Operation :=
  match state.clients.map timer.clientfd with
  | none => []
  | some client =>
      match event.sys.timerRead with
      | some _ => client.removal
      | none =>
          match client.sendHeartbeat BoundedArray.clear event.sys.heartbeat state.world.net with
          | .raised _ _ => client.removal
          | _ => []

section Arithmetic

variable (F : Type) [F64 F]

/-- A plate is an observation, with a pass when it leads to tickets; a dispatcher is
registered, with a pass. -/
def messageOperations (calls : Calls) (msg : Message) (session : Session) : List Operation :=
  match msg with
  | .dispatcher roads =>
      if session.client.type = .unidentified then
        [.addDispatcher ⟨session.client.fd, roads⟩, .dispatchTicketsQueue calls.sends]
      else []
  | .plate seen =>
      match session.client.data with
      | .camera camera =>
          .addObservation seen camera ::
            match observe F session.world.cars session.world.tickets seen camera with
            | .ok (_, _, ntickets) =>
                if ntickets > 0 then [.dispatchTicketsQueue calls.sends] else []
            | .error _ => []
      | _ => []
  | _ => []

/-- The messages of an event, up to the first that is refused. -/
def loopOperations (calls : Nat → Calls) (i : Nat) (msgs : List Message) (session : Session) :
    List Operation :=
  match msgs with
  | [] => []
  | msg :: msgs =>
      messageOperations F (calls i) msg session ++
        match handleMessage F (calls i) msg session with
        | .done session => loopOperations calls (i + 1) msgs session
        | _ => []

/-- What has arrived, and was decoded without an error. -/
def arrivalOperations (arrival : Arrival) (calls : Nat → Calls) (session : Session) :
    List Operation :=
  match session.client.fifo with
  | none => []
  | some fifo =>
      match receive fifo arrival with
      | .messages msgs _ fifo => loopOperations F calls 0 msgs (session.withFifo fifo)
      | _ => []

/-- A client whose connection ends or whose messages are refused is removed. -/
def clientOperations (event : Event) (client : Client) (state : ServerState) :
    List Operation :=
  if event.rdhup then client.removal
  else
    arrivalOperations F event.sys.arrival event.sys.calls (state.session client) ++
      match handleMessages F event.sys.arrival event.sys.calls (state.session client) with
      | .raised _ session => session.client.removal
      | _ => []

/-- The operations of one event. -/
def eventOperations (serverfd : SocketFd) (state : ServerState) (event : Event) :
    List Operation :=
  if event.socket = serverfd then acceptOperations event.sys state
  else
    match state.timers.map event.socket with
    | some timer => timerOperations event timer state
    | none =>
        match state.clients.map event.socket with
        | none => []
        | some client => clientOperations F event client state

/-- The operations of a run of the server. -/
def serverOperations (serverfd : SocketFd) (events : List Event) : List Operation :=
  emissions (eventStep F serverfd) (eventOperations F serverfd) .init events

end Arithmetic

end NetworkExercises.SpeedDaemon
