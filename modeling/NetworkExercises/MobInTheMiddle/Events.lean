/-
Module: NetworkExercises.MobInTheMiddle.Events
Purpose: The event loop of `5-mob-in-the-middle/main.zig` with its two handlers, each run to
  its end: `handle_connection` for a new client, and `handle_messge` for every other event.
Main exports: Attempt, Connecting, Connecting.pair, handleConnection, ProxyEvent, proxyStep
-/
import NetworkExercises.MobInTheMiddle.Proxy

namespace NetworkExercises.MobInTheMiddle

open SpeedDaemon (SocketFd Net WriteResult Arrival)

/-- The system calls for one address of the upstream server. -/
structure Attempt where
  socket : Except String SocketFd
  connect : Option String
  setfl : Option String
deriving DecidableEq

/-- The results of the system calls of `handle_connection`. -/
structure Connecting where
  accepted : Except String SocketFd
  clientAdd : Option String
  addresses : Except String (List Attempt)
  upstreamAdd : Option String

/-- The loop over the addresses: the first socket that is connected and does not block. -/
def connectUpstream : List Attempt → Option SocketFd
  | [] => none
  | addr :: addrs =>
      match addr.socket with
      | .error _ => connectUpstream addrs
      | .ok sockfd =>
          match addr.connect with
          | some _ => connectUpstream addrs
          | none =>
              match addr.setfl with
              | some _ => connectUpstream addrs
              | none => some sockfd

/-- The client and the upstream of a new pair; `none` is one of the early returns. -/
def Connecting.pair (calls : Connecting) : Option (SocketFd × SocketFd) :=
  match calls.accepted with
  | .error _ => none
  | .ok client =>
      match calls.clientAdd with
      | some _ => none
      | none =>
          match calls.addresses with
          | .error _ => none
          | .ok list =>
              if list.length = 0 then none
              else
                match connectUpstream list with
                | none => none
                | some upstream =>
                    match calls.upstreamAdd with
                    | some _ => none
                    | none => some (client, upstream)

/-- `handle_connection`.  Nothing has been written to the two new sockets. -/
def handleConnection (calls : Connecting) (proxy : Proxy) : Proxy :=
  match calls.pair with
  | none => proxy
  | some (client, upstream) =>
      { connections := proxy.connections.add client upstream
        net := Function.update (Function.update proxy.net client []) upstream [] }

/-- A ready socket: the server's, with a new connection, or one with something to read. -/
inductive ProxyEvent where
  | connection (calls : Connecting)
  | message (client : SocketFd) (arrival : Arrival) (written : WriteResult)

/-- The body of the event loop for one ready socket, when the handlers run one after the
other. -/
def proxyStep (proxy : Proxy) : ProxyEvent → Option Proxy
  | .connection calls => some (handleConnection calls proxy)
  | .message client arrival written => some (handleMessge client arrival written proxy)

/-- No pairs, and nothing written. -/
def Proxy.init : Proxy := ⟨.init, fun _ => []⟩

end NetworkExercises.MobInTheMiddle
