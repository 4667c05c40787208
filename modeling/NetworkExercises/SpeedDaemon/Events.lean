/-
Module: NetworkExercises.SpeedDaemon.Events
Purpose: The event loop `handle_events` of `6-speed-daemon/main.zig` in one thread:
  new connections, timers, closed connections and messages.
Main exports: Sys, ServerState, removeFd, eventStep
-/
import NetworkExercises.SpeedDaemon.Handler

namespace NetworkExercises.SpeedDaemon

open Lib

/-! ### What the program does not determine -/

/-- The results of the system calls of one event.  `stale` is the client whose
place in the map the pointer of the last event points to by now, `none` when it
points nowhere; `timerDel` and `clientDel` tell whether a timer and a client are
taken out of the epoll instance. -/
structure Sys where
  accepted : Except String SocketFd
  epollAdd : Option String
  stale : Option SocketFd
  timerRead : Option String
  heartbeat : WriteResult
  errorWrite : WriteResult
  timerDel : Bool
  clientDel : Bool
  arrival : Arrival
  calls : Nat → Calls

/-- A ready socket, with the flag `RDHUP`. -/
structure Event where
  socket : SocketFd
  rdhup : Bool
  sys : Sys

/-- The state of the server between two events; `fd` is `thr_ctx.fd`. -/
structure ServerState where
  world : World
  clients : Clients
  timers : Timers
  fd : SocketFd

def ServerState.init : ServerState := ⟨.empty, .empty, .empty, 0⟩

/-! ### Errors to the client -/

/-- The bytes of a text. -/
def text (string : String) : Bytes := string.toUTF8.toList

/-- `@errorName`. -/
def ServerError.errorName : ServerError → String
  | .clientClosedConnection => "ClientClosedConnection"
  | .unexpectedMessageType => "UnexpectedMessageType"
  | .clientAlreadyIdentified => "ClientAlreadyIdentified"
  | .timerAlreadyExists => "TimerAlreadyExists"
  | .clientNotIdentifiedAsCamera => "ClientNotIdentifiedAsCamera"
  | .typeAlreadySet => "TypeAlreadySet"
  | .emptyPlate => "EmptyPlate"
  | .messageWrongType => "MessageWrongType"
  | .alreadyHasTimer => "AlreadyHasTimer"
  | .plateMismatch => "PlateMismatch"
  | .noSpaceLeft => "NoSpaceLeft"
  | .overflow => "Overflow"
  | .notEnoughBytes => "NotEnoughBytes"
  | .invalidMessageType => "InvalidMessageType"
  | .unexpectedMessage => "UnexpectedMessage"
  | .system errorName => errorName

/-- The pieces that `std.fmt.format` writes for an error of `handleMessages`. -/
def errorPieces (fd : SocketFd) (error : ServerError) : List Bytes :=
  [text "Error while handleMessages with client: ", text (toString fd), text ". Error: ",
    text "error.", text error.errorName]

/-- `buf.writer()`: write piece after piece, until one does not fit. -/
def writePieces (buf : U8BoundedArray) : List Bytes → U8BoundedArray × Bool
  | [] => (buf, true)
  | piece :: pieces =>
      match buf.appendSlice piece with
      | some buf => writePieces buf pieces
      | none => (buf, false)

/-- The buffer after formatting an error into it, and the message for the client:
the buffer itself, unless it is too small. -/
def formatError (fd : SocketFd) (error : ServerError) : U8BoundedArray × Bytes :=
  let (buf, fits) := writePieces BoundedArray.clear (errorPieces fd error)
  if fits then (buf, buf.items) else (buf, text "Error while handleMessages")

/-- `Client.sendError`.  The buffer is not cleared before. -/
def Client.sendError (self : Client) (msg : Bytes) (buf : U8BoundedArray)
    (written : WriteResult) (net : Net) : Outcome ServerError Net :=
  match hostToNetwork (.errorM msg) buf with
  | .error error => .raised error.toServerError net
  | .ok buf => writeAll self.fd buf.items written net

/-- `Client.sendHeartbeat`: the buffer and the sockets after it. -/
def Client.sendHeartbeat (self : Client) (buf : U8BoundedArray) (written : WriteResult)
    (net : Net) : Outcome ServerError (U8BoundedArray × Net) :=
  match hostToNetwork .heartbeat buf with
  | .error error => .raised error.toServerError (buf, net)
  | .ok buf => (writeAll self.fd buf.items written net).map fun net => (buf, net)

/-- The call of `sendError` in `removeFd`, when there is an error message; a failure is
only logged. -/
def Client.sendErrorMsg (self : Client) (errorMsg : Option Bytes) (buf : U8BoundedArray)
    (written : WriteResult) (net : Net) : Net :=
  match errorMsg with
  | none => net
  | some msg =>
      match self.sendError msg buf written net with
      | .done net => net
      | .raised _ net => net
      | .trap => net

/-! ### The event loop -/

/-- `removeFd`, for `thr_ctx.fd` and the client that `thr_ctx.client` points to; `none` is a
trap. -/
def removeFd (sys : Sys) (fd : SocketFd) (client : Client) (errorMsg : Option Bytes)
    (buf : U8BoundedArray) (state : ServerState) : Option ServerState :=
  let net := client.sendErrorMsg errorMsg buf sys.errorWrite state.world.net
  let roads :=
    match client.data with
    | .dispatcher disp => state.world.roads.removeDispatcher disp
    | _ => state.world.roads
  (state.clients.del fd state.timers sys.timerDel sys.clientDel).map fun (clients, timers) =>
    { state with
      world := { state.world with net := net, roads := roads }
      clients := clients
      timers := timers }

theorem removeFd_world {sys : Sys} {fd : SocketFd} {client : Client} {errorMsg : Option Bytes}
    {buf : U8BoundedArray} {state next : ServerState}
    (removed : removeFd sys fd client errorMsg buf state = some next) :
    next.world.cars = state.world.cars ∧ next.world.tickets = state.world.tickets ∧
      next.world.net = client.sendErrorMsg errorMsg buf sys.errorWrite state.world.net := by
  obtain ⟨deleted, -, rfl⟩ := Option.map_eq_some_iff.mp removed
  exact ⟨rfl, rfl, rfl⟩

/-- A new connection.  When the client cannot be added, the pointer and the
descriptor of the last event are used; there may be none. -/
def acceptClient (sys : Sys) (state : ServerState) : Option ServerState :=
  match sys.accepted with
  | .error _ => some state
  | .ok clientfd =>
      -- A new socket has not been written to.
      let net := Function.update state.world.net clientfd []
      let state := { state with world := { state.world with net := net } }
      match sys.epollAdd with
      | none => some { state with clients := state.clients.put clientfd (.init clientfd) }
      | some _ =>
          match sys.stale.bind state.clients.map with
          | none => none
          | some client =>
              removeFd sys state.fd client (some (text "Failed to add client"))
                BoundedArray.clear state

/-- A timer that has fired. -/
def handleTimer (event : Event) (timer : Timer) (state : ServerState) :
    Option ServerState :=
  match state.clients.map timer.clientfd with
  | none => some { state with timers := state.timers.del event.socket }
  | some client =>
      let state := { state with fd := client.fd }
      match event.sys.timerRead with
      | some _ =>
          removeFd event.sys client.fd client
            (some (text "Failed to posix.read timer")) BoundedArray.clear state
      | none =>
          match client.sendHeartbeat BoundedArray.clear event.sys.heartbeat
              state.world.net with
          | .trap => none
          | .done (_, net) => some { state with world := { state.world with net := net } }
          | .raised _ (buf, net) =>
              removeFd event.sys client.fd client
                (some (text "Failed to sendHeartbeat")) buf
                { state with world := { state.world with net := net } }

/-- The session of a client with an empty buffer. -/
def ServerState.session (state : ServerState) (client : Client) : Session :=
  ⟨state.world, state.timers, client, BoundedArray.clear⟩

/-- Keep what a session has changed. -/
def ServerState.afterSession (state : ServerState) (fd : SocketFd) (session : Session) :
    ServerState :=
  { state with
    world := session.world
    timers := session.timers
    clients := state.clients.put fd session.client }

section Arithmetic

variable (F : Type) [F64 F]

/-- Bytes, or the end of a connection, of a known client. -/
def handleClient (event : Event) (client : Client) (state : ServerState) :
    Option ServerState :=
  let state := { state with fd := event.socket }
  if event.rdhup then
    removeFd event.sys event.socket client none BoundedArray.clear state
  else
    match handleMessages F event.sys.arrival event.sys.calls (state.session client) with
    | .trap => none
    | .done session => some (state.afterSession event.socket session)
    | .raised error session =>
        let state := state.afterSession event.socket session
        if error = .clientClosedConnection then
          removeFd event.sys event.socket session.client none session.buf state
        else
          let (buf, msg) := formatError event.socket error
          removeFd event.sys event.socket session.client (some msg) buf state

/-- The body of the loop of `handle_events` for one ready socket; `none` is a trap. -/
def eventStep (serverfd : SocketFd) (state : ServerState) (event : Event) :
    Option ServerState :=
  if event.socket = serverfd then acceptClient event.sys state
  else
    match state.timers.map event.socket with
    | some timer => handleTimer event timer state
    | none =>
        match state.clients.map event.socket with
        | none => some state
        | some client => handleClient F event client state

end Arithmetic

end NetworkExercises.SpeedDaemon
