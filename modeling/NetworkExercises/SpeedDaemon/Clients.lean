/-
Module: NetworkExercises.SpeedDaemon.Clients
Purpose: Clients and their timers of `6-speed-daemon/logic.zig`.
Main exports: Timer, Timers, Client, setAsCamera, setAsDispatcher, addTimer, Clients
-/
import NetworkExercises.SpeedDaemon.World

namespace NetworkExercises.SpeedDaemon

open Lib

/-! ### Timers -/

structure Timer where
  timerfd : SocketFd
  clientfd : SocketFd
  interval : Nat
deriving DecidableEq, Repr

structure Timers where
  map : SocketFd → Option Timer

namespace Timers

def empty : Timers := ⟨fun _ => none⟩

def add (self : Timers) (timer : Timer) : Timers :=
  ⟨Function.update self.map timer.timerfd timer⟩

def del (self : Timers) (fd : SocketFd) : Timers :=
  ⟨Function.update self.map fd none⟩

end Timers

/-! ### Clients -/

inductive ClientType where
  | camera
  | dispatcher
  | unidentified
deriving DecidableEq, Repr

/-- The union `data` of a client. -/
inductive ClientData where
  | camera (camera : Camera)
  | dispatcher (dispatcher : Dispatcher)
  | unidentified
deriving DecidableEq, Repr

/-- `Client`.  The fifo is `none` once it has been freed.  It is read as a flat queue of bytes:
of a `LinearFifo` that has wrapped around, `readableSlice(0)` is only the contiguous part. -/
structure Client where
  fd : SocketFd
  fifo : Option Bytes
  timer : Option Timer
  heartbeatRequested : Bool
  data : ClientData
deriving DecidableEq, Repr

namespace Client

/-- The field `type`, which the program always sets together with `data`. -/
def type (self : Client) : ClientType :=
  match self.data with
  | .camera _ => .camera
  | .dispatcher _ => .dispatcher
  | .unidentified => .unidentified

/-- `Client.init`, after the descriptor has been added to the epoll instance. -/
def init (fd : SocketFd) : Client :=
  { fd := fd
    fifo := some []
    timer := none
    heartbeatRequested := false
    data := .unidentified }

/-- `Client.setAsCamera`. -/
def setAsCamera (self : Client) (msg : Message) : Except ServerError Client :=
  if self.type ≠ .unidentified then .error .typeAlreadySet
  else
    match msg with
    | .camera camera =>
        .ok { self with
          data := .camera
            { fd := self.fd
              road := camera.road
              mile := camera.mile
              speedLimit := camera.limit } }
    | _ => .error .messageWrongType

/-- `Dispatcher.initFromMessage`. -/
def initDispatcher (fd : SocketFd) (msg : Message) : Except ServerError Dispatcher :=
  match msg with
  | .dispatcher roads => .ok ⟨fd, roads⟩
  | _ => .error .messageWrongType

/-- `Client.setAsDispatcher`; it also hands the dispatcher to the caller. -/
def setAsDispatcher (self : Client) (msg : Message) :
    Except ServerError (Client × Dispatcher) :=
  if self.type ≠ .unidentified then .error .typeAlreadySet
  else if msg.type ≠ .iAmDispatcher then .error .messageWrongType
  else do
    let disp ← initDispatcher self.fd msg
    .ok ({ self with data := .dispatcher disp }, disp)

/-- `Client.addTimer`.  `timerfd` is what the system calls for a new timer give,
and `epollAdd` the error of adding it to the epoll instance, if any. -/
def addTimer (self : Client) (interval : Nat) (timerfd : Except String SocketFd)
    (epollAdd : Option String) : Outcome ServerError Client :=
  if self.heartbeatRequested = true then .raised .alreadyHasTimer self
  else if self.timer.isSome then .raised .alreadyHasTimer self
  else
    match timerfd with
    | .error errorName => .raised (.system errorName) self
    | .ok timerfd =>
        let self := { self with timer := some ⟨timerfd, self.fd, interval⟩ }
        match epollAdd with
        | some errorName => .raised (.system errorName) self
        | none => .done self

/-- `Client.deinit` behind the freeing of the fifo, with the success of taking the timer and the
client out of the epoll instance.  The last component tells whether it returns without an
error. -/
def unregister (self : Client) (timers : Timers) (timerDel clientDel : Bool) :
    Client × Timers × Bool :=
  let self := { self with fifo := none }
  match self.timer with
  | some timer =>
      if timerDel then
        ({ self with timer := none }, timers.del timer.timerfd, clientDel)
      else (self, timers, false)
  | none => (self, timers, clientDel)

/-- `Client.deinit`.  A client that was removed in vain has no fifo and a closed descriptor: to
free and to close them again is a trap. -/
def deinit (self : Client) (timers : Timers) (timerDel clientDel : Bool) :
    Option (Client × Timers × Bool) :=
  match self.fifo with
  | none => none
  | some _ => some (self.unregister timers timerDel clientDel)

end Client

structure Clients where
  map : SocketFd → Option Client

namespace Clients

def empty : Clients := ⟨fun _ => none⟩

/-- `self.map.put`. -/
def put (self : Clients) (fd : SocketFd) (client : Client) : Clients :=
  ⟨Function.update self.map fd client⟩

/-- `Clients.del`: a client whose `deinit` fails stays in the map. -/
def del (self : Clients) (fd : SocketFd) (timers : Timers) (timerDel clientDel : Bool) :
    Option (Clients × Timers) :=
  match self.map fd with
  | none => some (self, timers)
  | some client =>
      (client.deinit timers timerDel clientDel).map fun (client, timers, removed) =>
        if removed then (⟨Function.update self.map fd none⟩, timers)
        else (self.put fd client, timers)

end Clients

end NetworkExercises.SpeedDaemon
