/-
Module: NetworkExercises.MeansToAnEnd.C.Server
Purpose: The loop of `means-to-an-end/main.c`: what one event does to the client it is
  about, and to the server.
Main exports: Client, clientTurn, ServerState, Event, eventStep
-/
import NetworkExercises.CUtils.Sockets
import NetworkExercises.Lib.Run
import NetworkExercises.MeansToAnEnd.C.ClientSession

namespace NetworkExercises.MeansToAnEnd.C

open Lib CUtils

-- Reads and descriptors are those of the speed daemon.
open SpeedDaemon (SocketFd Net Arrival ReadEnd)

/-! ### One client -/

/-- What an event of a client works on: its session, the send queue, which all clients
share, and the bytes that were handed to `send` for it. -/
structure Client where
  session : Session
  sdqu : Queue
  sent : Bytes
  closed : Bool

/-- What one event comes out of the system with: its reads, and what `sendall` meets, for
whatever is sent. -/
structure Turn where
  arrival : Arrival
  sends : Bytes → Sending

/-- Handling a complete request: `queue_pop_no_copy` and `message_parse`. -/
def parseRequest (client : Client) : Client :=
  let popped := queuePopNoCopy client.session.recvQu
  let data := load client.session.recvQu.data popped.1.toNat
  let parsed := messageParse client.session.asset client.sdqu data
  { client with
    session :=
      { client.session with
        asset := parsed.1
        recvQu := popped.2
        processed := client.session.processed ++
          messages data (toInt (data.length / messageSize)).toNat }
    sdqu := parsed.2 }

/-- Sending the answers: `queue_pop_no_copy` and `sendall`; and whether that went well. -/
def sendAnswers (client : Client) (sends : Bytes → Sending) : Option (Bool × Client) :=
  let popped := queuePopNoCopy client.sdqu
  let sddata := load client.sdqu.data popped.1.toNat
  let client := { client with sdqu := popped.2 }
  if popped.1 > 0 then
    (sendall sddata (sends sddata)).map fun result =>
      (decide (result.2 = 0), { client with sent := client.sent ++ result.1 })
  else some (true, client)

/-- An event of a client, from `recv_request` on; a client that is closed has no more
events. -/
def clientTurn (client : Client) (turn : Turn) : Option Client :=
  if client.closed then none
  else do
    let (res, recvQu) ← recvRequest client.session.recvQu turn.arrival
    let client : Client :=
      { client with
        session :=
          { client.session with
            recvQu := recvQu
            received := client.session.received + turn.arrival.bytes.length } }
    if res < -1 then return { client with closed := true }
    else
      let size := queuePeek recvQu
      if size > 0 ∧ size % messageSize = 0 then
        let (sentAll, client) ← sendAnswers (parseRequest client) turn.sends
        return { client with closed := !sentAll || res != -1 }
      else return { client with closed := res != -1 }

/-! ### The server -/

/-- The sessions, the send queue, the descriptors that are open, and the bytes handed to
each connection since it was accepted. -/
structure ServerState where
  clients : Clients
  sdqu : Queue
  live : Finset SocketFd
  net : Net

namespace ServerState

def init (memory : Nat → UInt8) : ServerState :=
  ⟨Clients.empty, queueInit memory 65536, ∅, fun _ => []⟩

/-- The session that `clients_session_find` leads to. -/
def session (state : ServerState) (fd : SocketFd) : Option Session :=
  match clientsSessionFind state.clients fd with
  | some (true, clients) => (clients.ca >>= clients.heap.node).map Node.item
  | _ => none

end ServerState

/-- An event of the loop: a new connection, with the memory its queue is allocated over, or
something to read. -/
inductive Event where
  | accept (fd : SocketFd) (memory : Nat → UInt8)
  | data (fd : SocketFd) (turn : Turn)

/-- A new connection. -/
def acceptStep (state : ServerState) (fd : SocketFd) (memory : Nat → UInt8) :
    Option ServerState :=
  (clientsSessionAdd state.clients fd memory).map fun clients =>
    { state with
      clients := clients
      live := insert fd state.live
      net := Function.update state.net fd [] }

/-- Something to read; there is no next state when an assertion fails. -/
def dataStep (state : ServerState) (fd : SocketFd) (turn : Turn) : Option ServerState := do
  let (clientFound, clients) ← clientsSessionFind state.clients fd
  if !clientFound then none
  let ca ← clients.ca
  let node ← clients.heap.node ca
  let client ← clientTurn ⟨node.item, state.sdqu, state.net fd, false⟩ turn
  let clients : Clients := { clients with heap := clients.heap.setItem ca client.session }
  let state : ServerState :=
    { state with
      clients := clients
      sdqu := client.sdqu
      net := Function.update state.net fd client.sent }
  if client.closed then
    let (_, clients) ← clientsSessionRemove clients fd
    return { state with clients := clients, live := state.live.erase fd }
  else return state

/-- The body of the loop.  The system gives a new connection a descriptor that is not
open, and reports reads only of open ones. -/
def eventStep (state : ServerState) : Event → Option ServerState
  | .accept fd memory => if fd ∈ state.live then none else acceptStep state fd memory
  | .data fd turn => if fd ∈ state.live then dataStep state fd turn else none

end NetworkExercises.MeansToAnEnd.C
