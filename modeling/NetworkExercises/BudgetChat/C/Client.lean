/-
Module: NetworkExercises.BudgetChat.C.Client
Purpose: `budget-chat/client.c`: the clients of the C server, and what is done with their
  requests.
Main exports: Client, Clients, Log, sendAsserted, clientOpen, clientFind, clientClose,
  clientBroadcastMessageFrom, clientBroadcastMessageToAll, clientValidateUsername,
  clientHandleRequest
-/
import NetworkExercises.CUtils.Queue
import NetworkExercises.CUtils.Sockets
import NetworkExercises.Lib.LinkedList

namespace NetworkExercises.BudgetChat.C

open Lib CUtils

-- Descriptors are those of the speed daemon.
open SpeedDaemon (SocketFd)

/-! ### Text in memory -/

/-- `CLIENT_MAX_NAME`. -/
def clientMaxName : Nat := 32

/-- `CLIENT_MAX_MESSAGE_SIZE`. -/
def clientMaxMessageSize : Nat := 1024

/-- `CLIENT_MAX_COMPOSED_MESSAGE_SIZE`. -/
def clientMaxComposedMessageSize : Nat := clientMaxMessageSize + clientMaxName + 2

/-- The text that begins at an address, up to its NUL; none where there is no NUL in the
bytes that belong to it. -/
def cString (memory : Nat → UInt8) (size : Nat) : Option Bytes :=
  let bytes := load memory size
  if 0 ∈ bytes then some (bytes.takeWhile (· ≠ 0)) else none

/-- `strncmp(s1, s2, size) == 0`: the first place where the texts differ or end decides. -/
def strncmpEqual (s1 s2 : Nat → UInt8) (size : Nat) : Bool :=
  match (List.range size).find? fun i => s1 i ≠ s2 i ∨ s1 i = 0 with
  | none => true
  | some i => s1 i = s2 i

/-- `isalnum`. -/
def isalnum (byte : UInt8) : Bool :=
  (48 ≤ byte && byte ≤ 57) || (65 ≤ byte && byte ≤ 90) || (97 ≤ byte && byte ≤ 122)

/-- `(size_t)`. -/
def toSizeT (value : Int) : Nat := (value % 2 ^ 64).toNat

/-! ### The clients -/

/-- `struct client`, without its links.  `name` is the memory from its array on. -/
structure Client where
  id : SocketFd
  name : Nat → UInt8
  nameSize : Nat
  recvQu : Queue

namespace Client

/-- `name[0] != 0`. -/
def named (client : Client) : Bool := client.name 0 ≠ 0

/-- The name as text. -/
def text (client : Client) : Option Bytes := cString client.name (clientMaxName + 1)

end Client

/-- The clients, and the pointer of the loop, which is `NULL` when there is none. -/
structure Clients where
  heap : Heap Client
  c : Option Ptr

def Clients.empty : Clients := ⟨Heap.empty, none⟩

/-- What `malloc` gives for a client and its queue. -/
structure Malloc where
  name : Nat → UInt8
  nameSize : Nat
  data : Nat → UInt8

/-- `client_first`. -/
def clientFirst (heap : Heap Client) (c : Ptr) : Option Ptr := walk Node.prev heap heap.fresh c

/-! ### Sending -/

/-- The calls of `sendall` so far: the descriptor of each, and the bytes that it handed
over. -/
abbrev Log := List (SocketFd × Bytes)

/-- What each call of `sendall` meets. -/
abbrev Sends := Nat → Sending

/-- `sendall`, and the assertion that it returns 0. -/
def sendAsserted (sends : Sends) (log : Log) (fd : SocketFd) (buf : Bytes) : Option Log :=
  if fd = 0 ∨ buf = [] then none
  else
    match sendall buf (sends log.length) with
    | some (handed, 0) => some (log ++ [(fd, handed)])
    | _ => none

/-- The other clients that have a name. -/
def isOtherNamed (me : SocketFd) (client : Client) : Bool := client.id ≠ me && client.named

/-- `client_broadcast_message_from`.  The message is handed to the descriptor of the first
client, once for every other client with a name. -/
def clientBroadcastMessageFrom (sends : Sends) (heap : Heap Client) (c : Ptr) (msg : Bytes)
    (log : Log) : Option Log := do
  let me ← heap.node c
  let first ← clientFirst heap c
  let c ← heap.node first
  visit (fun log last =>
      if isOtherNamed me.item.id last then sendAsserted sends log c.item.id msg else some log)
    heap heap.fresh first log

/-- `client_broadcast_message_to_all`, which does the same for all clients with a name. -/
def clientBroadcastMessageToAll (sends : Sends) (heap : Heap Client) (c : Ptr) (msg : Bytes)
    (log : Log) : Option Log := do
  let first ← clientFirst heap c
  let c ← heap.node first
  visit (fun log last =>
      if last.named then sendAsserted sends log c.item.id msg else some log)
    heap heap.fresh first log

/-! ### Opening, finding, closing -/

/-- `CLIENT_WELCOME_PROMPT`. -/
def clientWelcomePrompt : Bytes := ascii "Welcome to budgetchat! What shall I call you?"

/-- `client_open`.  The pointer moves to the new client, which is linked to no other. -/
def clientOpen (sends : Sends) (clients : Clients) (fd : SocketFd) (memory : Malloc)
    (log : Log) : Option (Clients × Log) :=
  let client : Client :=
    ⟨fd, Function.update memory.name 0 0, memory.nameSize, queueInit memory.data 1024⟩
  let opened : Clients :=
    ⟨clients.heap.alloc ⟨client, none, none⟩, some clients.heap.fresh⟩
  (sendAsserted sends log fd clientWelcomePrompt).map fun log => (opened, log)

/-- `client_find`.  The pointer moves to the client, or to the first one. -/
def clientFind (clients : Clients) (id : SocketFd) : Option (Bool × Clients) :=
  match clients.c with
  | none => some (false, clients)
  | some c =>
      if id = 0 then none
      else do
        let first ← clientFirst clients.heap c
        let found ← findNode (fun client => client.id == id) clients.heap clients.heap.fresh first
        match found with
        | some client => return (true, { clients with c := some client })
        | none => return (false, { clients with c := some first })

/-- `client_close`. -/
def clientClose (sends : Sends) (clients : Clients) (log : Log) : Option (Clients × Log) := do
  let c ← clients.c
  let curr ← clients.heap.node c
  let name ← curr.item.text
  let newuser := ascii "* '" ++ name ++ ascii "' has left the chat"
  let log ← clientBroadcastMessageFrom sends clients.heap c newuser log
  let heap ← unlink clients.heap c
  return (⟨heap, curr.prev.or curr.next⟩, log)

/-! ### Requests -/

/-- `client_name_exists`. -/
def clientNameExists (heap : Heap Client) (c : Ptr) (name : Nat → UInt8) (size : Nat) :
    Option Bool := do
  let me ← heap.node c
  let first ← clientFirst heap c
  let found ← findNode (fun last => isOtherNamed me.item.id last &&
    strncmpEqual last.name name size) heap heap.fresh first
  return found.isSome

/-- `memcpy(c->name, name, size)` and `c->name[size + 1] = 0`. -/
def copyName (memory name : Nat → UInt8) (size : Nat) : Nat → UInt8 := fun i =>
  if i < size then name i else if i = size + 1 then 0 else memory i

/-- `client_validate_username`: nothing, or the response to an invalid name. -/
def clientValidateUsername (heap : Heap Client) (c : Ptr) :
    Option (Option Bytes × Heap Client) := do
  let node ← heap.node c
  let popped := queuePopNoCopy node.item.recvQu
  let name := popped.2.data
  let client := { node.item with recvQu := popped.2 }
  let heap := heap.setItem c client
  -- Loose the /r
  let size := toSizeT (popped.1 - 1)
  if size < 1 then return (some (ascii "Empty username provided"), heap)
  else if size ≥ clientMaxName then
    return (some (ascii "Name provided exceeds limit for number of characters: 32"), heap)
  else if !(load name size).all isalnum then
    return (some (ascii "Username must only contain alphanumeric characters"), heap)
  else
    let exists_ ← clientNameExists heap c name size
    if exists_ then return (some (ascii "Username is already taken"), heap)
    else
      let client := { client with name := copyName client.name name size, nameSize := size }
      return (none, heap.setItem c client)

/-- `CLIENT_MEMBERS`. -/
def clientMembers : Bytes := ascii "* The room contains: "

/-- `client_collect_list_of_names_other_names`; `first` is never set. -/
def clientCollectListOfNamesOtherNames (heap : Heap Client) (c : Ptr) :
    Option (Heap Client) := do
  let me ← heap.node c
  let first ← clientFirst heap c
  let recvQu ← visit (fun recvQu last =>
      if isOtherNamed me.item.id last then
        some (queuePush (queuePush recvQu (ascii ", ")) (load last.name last.nameSize))
      else some recvQu)
    heap heap.fresh first (queuePush me.item.recvQu clientMembers)
  return heap.setItem c { me.item with recvQu := recvQu }

/-- `client_handle_newclient`. -/
def clientHandleNewclient (sends : Sends) (heap : Heap Client) (c : Ptr) (log : Log) :
    Option (Int × Heap Client × Log) := do
  let (invalid, heap) ← clientValidateUsername heap c
  let node ← heap.node c
  match invalid with
  | some response =>
      let log ← sendAsserted sends log node.item.id response
      return (-1, heap, log)
  | none =>
      -- Send new client list of all names in chat
      let heap ← clientCollectListOfNamesOtherNames heap c
      let node ← heap.node c
      let popped := queuePopNoCopy node.item.recvQu
      let heap := heap.setItem c { node.item with recvQu := popped.2 }
      let log ← sendAsserted sends log node.item.id (load popped.2.data popped.1.toNat)
      -- Send all users name of the new user
      let name ← node.item.text
      let newuser := ascii "* '" ++ name ++ ascii "' has joined the chat"
      let log ← clientBroadcastMessageFrom sends heap c newuser log
      return (1, heap, log)

/-- What `snprintf` leaves in `mesg`, of which its result is broadcast; nothing where this
is more than the buffer has. -/
def composed (text : Bytes) : Option Bytes :=
  if text.length < clientMaxComposedMessageSize then some text
  else if text.length = clientMaxComposedMessageSize then
    some (text.take (clientMaxComposedMessageSize - 1) ++ [0])
  else none

/-- `client_handle_request`. -/
def clientHandleRequest (sends : Sends) (heap : Heap Client) (c : Ptr) (log : Log) :
    Option (Int × Heap Client × Log) := do
  let node ← heap.node c
  if !node.item.named then clientHandleNewclient sends heap c log
  else
    let popped := queuePopNoCopy node.item.recvQu
    let heap := heap.setItem c { node.item with recvQu := popped.2 }
    -- Loose the /r
    let size := toSizeT (popped.1 - 1)
    if size = 0 then return (0, heap, log)
    else if size > clientMaxMessageSize then return (0, heap, log)
    else
      -- The message is what the memory of the queue holds up to a NUL.
      let name ← node.item.text
      let msg ← cString popped.2.data popped.2.capacity
      let mesg ← composed (ascii "[" ++ name ++ ascii "] " ++ msg)
      let log ← clientBroadcastMessageFrom sends heap c mesg log
      return (1, heap, log)

end NetworkExercises.BudgetChat.C
