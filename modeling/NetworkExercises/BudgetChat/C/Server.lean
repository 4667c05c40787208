/-
Module: NetworkExercises.BudgetChat.C.Server
Purpose: The loop of `budget-chat/main.c`: what one event does to the server.
Main exports: ServerState, Event, acceptStep, dataStep, eventStep
-/
import NetworkExercises.BudgetChat.C.Client

namespace NetworkExercises.BudgetChat.C

open Lib CUtils

-- Reads and descriptors are those of the speed daemon.
open SpeedDaemon (SocketFd Arrival)

/-- `MESSAGE_DELIMETER`. -/
def messageDelimeter : UInt8 := 10

/-- The clients, the descriptors of the connections that are open, and what has been
sent. -/
structure ServerState where
  clients : Clients
  live : Finset SocketFd
  log : Log

def ServerState.init : ServerState := ⟨Clients.empty, ∅, []⟩

/-- `fd_poll_del_and_close`. -/
def ServerState.close (state : ServerState) (fd : SocketFd) : ServerState :=
  { state with live := state.live.erase fd }

/-- An event of the loop: a new connection, which `accept` gives a descriptor, or something
to read. -/
inductive Event where
  | accept (fd : SocketFd) (memory : Malloc) (sends : Sends)
  | data (fd : SocketFd) (arrival : Arrival) (sends : Sends)

/-- A new connection.  The client is opened for the descriptor of the event, which is that
of the listening socket. -/
def acceptStep (listenFd : SocketFd) (state : ServerState) (connSock : SocketFd)
    (memory : Malloc) (sends : Sends) : Option ServerState :=
  (clientOpen sends state.clients listenFd memory state.log).map fun (clients, log) =>
    { clients := clients, live := insert connSock state.live, log := log }

/-- The end of an event: the socket is still open, or a closing request was received. -/
def finishStep (state : ServerState) (fd : SocketFd) (res : Int) (sends : Sends) :
    Option ServerState :=
  if res = -1 then some state
  else
    (clientClose sends state.clients state.log).map fun (clients, log) =>
      { state with clients := clients, log := log }.close fd

/-- Something to read; there is no next state when an assertion fails. -/
def dataStep (state : ServerState) (fd : SocketFd) (arrival : Arrival) (sends : Sends) :
    Option ServerState := do
  let (clientFound, clients) ← clientFind state.clients fd
  if !clientFound then none
  let c ← clients.c
  let node ← clients.heap.node c
  let (res, recvQu) ← recvRequest node.item.recvQu arrival
  let heap := clients.heap.setItem c { node.item with recvQu := recvQu }
  let state := { state with clients := ⟨heap, some c⟩ }
  if res < -1 then return state.close fd
  else
    let size := queuePeek recvQu
    let data := load recvQu.data size.toNat
    if size > 0 ∧ messageDelimeter ∈ data then
      let (rs, heap, log) ← clientHandleRequest sends heap c state.log
      let state := { state with clients := ⟨heap, some c⟩, log := log }
      if rs < 0 then return state.close fd
      else finishStep state fd res sends
    else finishStep state fd res sends

/-- The body of the loop.  The system gives a new connection a descriptor that is not open,
and reports reads only of open ones. -/
def eventStep (listenFd : SocketFd) (state : ServerState) : Event → Option ServerState
  | .accept fd memory sends =>
      if fd ∈ state.live ∨ fd = listenFd then none
      else acceptStep listenFd state fd memory sends
  | .data fd arrival sends => if fd ∈ state.live then dataStep state fd arrival sends else none

end NetworkExercises.BudgetChat.C
