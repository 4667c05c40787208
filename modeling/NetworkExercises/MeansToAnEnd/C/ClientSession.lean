/-
Module: NetworkExercises.MeansToAnEnd.C.ClientSession
Purpose: The sessions of `means-to-an-end/client-session.c`: a doubly linked list behind a
  handle that moves.
Main exports: Session, Clients, clientsSessionAdd, clientsSessionFind, clientsSessionRemove,
  clientsSessionFreeAll
-/
import NetworkExercises.Lib.LinkedList
import NetworkExercises.MeansToAnEnd.C.MessageParse

namespace NetworkExercises.MeansToAnEnd.C

open Lib CUtils

-- Descriptors are those of the speed daemon.
open SpeedDaemon (SocketFd)

/-- `struct clients_session`, without its links.  `received` is the number of bytes
that were read and `processed` are the messages that were handled; the program does not
keep them. -/
structure Session where
  clientId : SocketFd
  asset : AssetPrices
  recvQu : Queue
  received : Nat
  processed : List Message

/-- The sessions, and the handle, which is `NULL` when there is none. -/
structure Clients where
  heap : Heap Session
  ca : Option Ptr

namespace Clients

def empty : Clients := ⟨Heap.empty, none⟩

end Clients

/-- `clients_session_init`; `memory` is what the queue is allocated over. -/
def clientsSessionInit (clientId : SocketFd) (memory : Nat → UInt8) : Session :=
  ⟨clientId, assetPricesInit 16, queueInit memory 512, 0, []⟩

/-- `clients_session_get_beg`. -/
def clientsSessionGetBeg (heap : Heap Session) (ca : Ptr) : Option Ptr :=
  walk Node.prev heap heap.fresh ca

/-- `clients_session_get_end`. -/
def clientsSessionGetEnd (heap : Heap Session) (ca : Ptr) : Option Ptr :=
  walk Node.next heap heap.fresh ca

/-- `clients_session_add`.  The handle moves to the node that was the last one. -/
def clientsSessionAdd (clients : Clients) (id : SocketFd) (memory : Nat → UInt8) :
    Option Clients :=
  if id = 0 then none
  else
    let session := clientsSessionInit id memory
    match clients.ca with
    | none => some ⟨clients.heap.alloc ⟨session, none, none⟩, some clients.heap.fresh⟩
    | some ca =>
        (clientsSessionGetEnd clients.heap ca).map fun last =>
          ⟨append clients.heap last session, some last⟩

/-- `clients_session_find`.  The handle moves to the session, or to the first one. -/
def clientsSessionFind (clients : Clients) (id : SocketFd) : Option (Bool × Clients) :=
  match clients.ca with
  | none => some (false, clients)
  | some ca =>
      if id = 0 then none
      else do
        let beg ← clientsSessionGetBeg clients.heap ca
        let found ← findNode (fun session => session.clientId == id) clients.heap
          clients.heap.fresh beg
        match found with
        | some session => return (true, { clients with ca := some session })
        | none => return (false, { clients with ca := some beg })

/-- `clients_session_free`. -/
def clientsSessionFree (clients : Clients) : Option Clients := do
  let ca ← clients.ca
  let curr ← clients.heap.node ca
  let heap ← unlink clients.heap ca
  return ⟨heap, curr.prev.or curr.next⟩

/-- The loop of `clients_session_free_all`, with the nodes that it has freed. -/
def freeAllLoop : (turns : Nat) → (freed : List Ptr) → Clients → Option (List Ptr × Clients)
  | 0, _, _ => none
  | turns + 1, freed, clients =>
      match clients.ca with
      | none => some (freed, clients)
      | some ca => do
          let clients ← clientsSessionFree clients
          freeAllLoop turns (freed ++ [ca]) clients

/-- `clients_session_free_all`; a node that is gone would end it without a result. -/
def clientsSessionFreeAll (clients : Clients) : Option (List Ptr × Clients) := do
  let ca ← clients.ca
  let beg ← clientsSessionGetBeg clients.heap ca
  freeAllLoop (clients.heap.fresh + 1) [] { clients with ca := some beg }

/-- `clients_session_remove`. -/
def clientsSessionRemove (clients : Clients) (id : SocketFd) : Option (Bool × Clients) := do
  if clients.ca.isNone then none
  let (found, clients) ← clientsSessionFind clients id
  if found then
    let clients ← clientsSessionFree clients
    return (true, clients)
  else return (false, clients)

end NetworkExercises.MeansToAnEnd.C
