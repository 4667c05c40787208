/-
Module: NetworkExercises.SpeedDaemon.Epoll
Purpose: `EpollManager` of `6-speed-daemon/logic.zig`, and the calls that the event
  loop makes on it: every descriptor is registered ONESHOT.
Main exports: Epoll, eventEpoll, Polled, PollAction, pollStep
-/
import NetworkExercises.SpeedDaemon.Events

namespace NetworkExercises.SpeedDaemon

open Lib

/-! ### The epoll instance -/

/-- The descriptors that are registered; each is armed, or disarmed by the delivery of
its last event. -/
structure Epoll where
  armed : SocketFd → Option Bool

namespace Epoll

def empty : Epoll := ⟨fun _ => none⟩

/-- `EpollManager.add`. -/
def add (self : Epoll) (fd : SocketFd) : Epoll :=
  ⟨Function.update self.armed fd (some true)⟩

/-- `EpollManager.mod`; of a descriptor that is not registered it fails, which is only
logged. -/
def mod (self : Epoll) (fd : SocketFd) : Epoll :=
  match self.armed fd with
  | none => self
  | some _ => ⟨Function.update self.armed fd (some true)⟩

/-- `EpollManager.del`, or the closing of a registered descriptor. -/
def del (self : Epoll) (fd : SocketFd) : Epoll :=
  ⟨Function.update self.armed fd none⟩

/-- ONESHOT: the delivery of an event disarms its descriptor. -/
def deliver (self : Epoll) (fd : SocketFd) : Epoll :=
  ⟨Function.update self.armed fd (some false)⟩

end Epoll

/-! ### The calls of the handlers -/

/-- `Client.addTimer`. -/
def Client.addTimerEpoll (self : Client) (timerfd : Except String SocketFd)
    (epollAdd : Option String) (epoll : Epoll) : Epoll :=
  if self.heartbeatRequested = true then epoll
  else if self.timer.isSome then epoll
  else
    match timerfd with
    | .error _ => epoll
    | .ok timerfd =>
        match epollAdd with
        | some _ => epoll
        | none => epoll.add timerfd

/-- `Client.deinit`.  The descriptor of the client is closed on every path. -/
def Client.deinitEpoll (self : Client) (timerDel : Bool) (epoll : Epoll) : Epoll :=
  match self.timer with
  | some timer =>
      if timerDel then (epoll.del timer.timerfd).del self.fd else epoll.del self.fd
  | none => epoll.del self.fd

/-- `Clients.del`. -/
def Clients.delEpoll (self : Clients) (fd : SocketFd) (timerDel : Bool) (epoll : Epoll) :
    Epoll :=
  match self.map fd with
  | none => epoll
  | some client => client.deinitEpoll timerDel epoll

/-- The `switch` of `handleMessages`: only the prong `.WantHeartbeat` adds a
descriptor. -/
def handleMessageEpoll (calls : Calls) (msg : Message) (session : Session) (epoll : Epoll) :
    Epoll :=
  match msg with
  | .wantHeartbeat interval =>
      if session.client.heartbeatRequested = true ∨ session.client.timer.isSome then epoll
      else if interval.toNat = 0 then epoll
      else session.client.addTimerEpoll calls.timerfd calls.epollAdd epoll
  | _ => epoll

section Arithmetic

variable (F : Type) [F64 F]

/-- The `while` loop of `handleMessages`. -/
def handleLoopEpoll (calls : Nat → Calls) (i : Nat) (msgs : List Message)
    (session : Session) (epoll : Epoll) : Epoll :=
  match msgs with
  | [] => epoll
  | msg :: msgs =>
      let epoll := handleMessageEpoll (calls i) msg session epoll
      match handleMessage F (calls i) msg session with
      | .done session => handleLoopEpoll calls (i + 1) msgs session epoll
      | _ => epoll

/-- `handleMessages`. -/
def handleMessagesEpoll (arrival : Arrival) (calls : Nat → Calls) (session : Session)
    (epoll : Epoll) : Epoll :=
  match session.client.fifo with
  | none => epoll
  | some fifo =>
      match receive fifo arrival with
      | .messages msgs _ fifo => handleLoopEpoll F calls 0 msgs (session.withFifo fifo) epoll
      | _ => epoll

end Arithmetic

/-- A new connection.  When it cannot be accepted, the loop goes on without `mod`. -/
def acceptClientEpoll (serverfd : SocketFd) (sys : Sys) (state : ServerState)
    (epoll : Epoll) : Epoll :=
  match sys.accepted with
  | .error _ => epoll
  | .ok clientfd =>
      match sys.epollAdd with
      | none => (epoll.add clientfd).mod serverfd
      | some _ => (state.clients.delEpoll state.fd sys.timerDel epoll).mod serverfd

/-- A timer that has fired.  Without its client, the client's descriptor is taken out
of the epoll instance, not the timer's. -/
def handleTimerEpoll (event : Event) (timer : Timer) (state : ServerState) (epoll : Epoll) :
    Epoll :=
  match state.clients.map timer.clientfd with
  | none => epoll.del timer.clientfd
  | some client =>
      match event.sys.timerRead with
      | some _ => state.clients.delEpoll client.fd event.sys.timerDel epoll
      | none =>
          match client.sendHeartbeat BoundedArray.clear event.sys.heartbeat
              state.world.net with
          | .trap => epoll
          | .done _ => epoll.mod event.socket
          | .raised _ _ => state.clients.delEpoll client.fd event.sys.timerDel epoll

section Arithmetic

variable (F : Type) [F64 F]

/-- Bytes, or the end of a connection, of a known client. -/
def handleClientEpoll (event : Event) (client : Client) (state : ServerState)
    (epoll : Epoll) : Epoll :=
  if event.rdhup then state.clients.delEpoll event.socket event.sys.timerDel epoll
  else
    let handled := handleMessagesEpoll F event.sys.arrival event.sys.calls
      (state.session client) epoll
    match handleMessages F event.sys.arrival event.sys.calls (state.session client) with
    | .trap => handled
    | .done _ => handled.mod event.socket
    | .raised _ session =>
        (state.afterSession event.socket session).clients.delEpoll event.socket
          event.sys.timerDel handled

/-- The calls of the body of the loop of `handle_events`. -/
def eventEpoll (serverfd : SocketFd) (state : ServerState) (event : Event) (epoll : Epoll) :
    Epoll :=
  if event.socket = serverfd then acceptClientEpoll serverfd event.sys state epoll
  else
    match state.timers.map event.socket with
    | some timer => handleTimerEpoll event timer state epoll
    | none =>
        match state.clients.map event.socket with
        | none => epoll.del event.socket
        | some client => handleClientEpoll F event client state epoll

/-! ### Waiting and handling -/

/-- The server with its epoll instance; `ready` are the events that `epoll_wait` has
returned and the loop has still to handle. -/
structure Polled where
  state : ServerState
  epoll : Epoll
  ready : List SocketFd

/-- Before the loop the listening socket is added. -/
def Polled.init (serverfd : SocketFd) : Polled :=
  ⟨.init, Epoll.empty.add serverfd, []⟩

/-- What `handle_events` does next: wait for events, or handle the next of them. -/
inductive PollAction where
  | wait (ready : List SocketFd)
  | handle (event : Event)

/-- One turn of either loop of `handle_events`.  Only armed descriptors become ready,
each with one event. -/
def pollStep (serverfd : SocketFd) (polled : Polled) (action : PollAction) : Option Polled :=
  match action with
  | .wait ready =>
      if polled.ready = [] ∧ ready.Nodup ∧ ∀ fd ∈ ready, polled.epoll.armed fd = some true then
        some { polled with epoll := ready.foldl Epoll.deliver polled.epoll, ready := ready }
      else none
  | .handle event =>
      match polled.ready with
      | [] => none
      | fd :: ready =>
          if event.socket = fd then
            (eventStep F serverfd polled.state event).map fun state =>
              ⟨state, eventEpoll F serverfd polled.state event polled.epoll, ready⟩
          else none

end Arithmetic

end NetworkExercises.SpeedDaemon
