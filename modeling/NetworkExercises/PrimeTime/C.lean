/-
Module: NetworkExercises.PrimeTime.C
Purpose: `prime-time/is-prime-request.c` and the loop of `prime-time/main.c`: all
  connections are read into one queue, whose complete lines are requests.
Main exports: isPrimeRequestMalformed, isPrimeRequestBuilder, handleRequest, ServerState,
  Event, eventStep
-/
import NetworkExercises.CUtils.Queue
import NetworkExercises.CUtils.Sockets
import NetworkExercises.Lib.Lines
import NetworkExercises.Lib.Run
import NetworkExercises.PrimeTime.Json

namespace NetworkExercises.PrimeTime.C

open Lib CUtils

-- Reads and descriptors are those of the speed daemon.
open SpeedDaemon (SocketFd Net Arrival ReadEnd)

def newline : UInt8 := 10

/-- `PRIME_RESPONSE_ILL_RESPONSE`. -/
def illResponse : Bytes := ascii "\x7b\"response to malformed request\"\x7d\n"

/-! ### Requests -/

/-- `json_tokener_parse`; `NULL` where the text is not JSON. -/
abbrev Parser := Bytes → Option Json

/-- `struct is_prime_request`. -/
structure IsPrimeRequest where
  isPrime : Bool
  isMalformed : Bool
  number : Int64

/-- `json_object_object_get`: `NULL` also for the JSON value `null`, and for a value that is
no object. -/
def jsonObjectObjectGet (root : Json) (key : Bytes) : Option Json :=
  match root with
  | .object fields =>
      match Json.get fields key with
      | some .null => none
      | value => value
  | _ => none

/-- `strncmp` with `isPrime`, of seven bytes. -/
def isPrimeMethod (method : Bytes) : Bool := method.take 7 == ascii "isPrime"

/-- The number of a request, when it is not malformed.  A number that does not fit 64 bits is
out of the range of `json_object_get_int64`. -/
def requestNumber (root : Json) : Option Int64 :=
  match jsonObjectObjectGet root (ascii "method") with
  | some (.string method) =>
      if isPrimeMethod method then
        match jsonObjectObjectGet root (ascii "number") with
        | some (.float _) => some (-1)
        | some (.integer number) => some number
        | _ => none
      else none
  | _ => none

/-- `is_prime_request_malformed`.  The root is `NULL` also for the JSON value `null`. -/
def isPrimeRequestMalformed (parse : Parser) (request : IsPrimeRequest) (req : Bytes) :
    Bool × IsPrimeRequest :=
  match parse req with
  | none | some .null => (true, { request with isMalformed := true })
  | some root =>
      match requestNumber root with
      | none => (true, { request with isMalformed := true })
      | some number => (false, { request with isMalformed := false, number := number })

/-- `is_prime_beget_response`: the bytes of the response; `sprintf` ends its text with a NUL,
which it does not count. -/
def isPrimeBegetResponse (request : IsPrimeRequest) : Bytes × Nat :=
  if request.isMalformed then (illResponse, illResponse.length)
  else (formatResponse request.isPrime ++ [0], (formatResponse request.isPrime).length)

/-! ### Tokens -/

/-- `strtok_r` from `start` on, in memory that a NUL ends: the token, where it is, where to go
on, and the memory, with a NUL in the place of the newline behind the token.  Memory that
ends without a NUL is read no further. -/
def strtokR (memory : Bytes) (start : Nat) : Option (Bytes × Nat × Nat × Bytes) :=
  let token := start + ((memory.drop start).takeWhile (· == newline)).length
  match memory.drop token with
  | [] => none
  | first :: behind =>
      if first = 0 then none
      else
        let text := (first :: behind).takeWhile fun byte => byte != newline && byte != 0
        let stop := token + text.length
        if memory[stop]? = some newline then some (text, token, stop + 1, memory.set stop 0)
        else some (text, token, stop, memory)

/-- What the builder has got to: the number of requests, whether the last one was malformed,
the send queue and the memory of the requests. -/
structure Builder where
  requests : Nat
  malformed : Bool
  sdq : Queue
  memory : Bytes

/-- Write a response at the head of the queue, and push it. -/
def pushResponse (sdq : Queue) (request : IsPrimeRequest) : Queue :=
  let (response, size) := isPrimeBegetResponse request
  queuePushEx { sdq with data := store sdq.data sdq.head response } size

/-- The loop of `is_prime_request_builder`, from `start` on; nothing where `is_prime_f`
overflows.  `curr` keeps what the request before has left in it. -/
def builderLoop (parse : Parser) (reqSize : Nat) :
    (turns start : Nat) → (curr : IsPrimeRequest) → Builder → Option Builder
  | 0, _, _, builder => some builder
  | turns + 1, start, curr, builder =>
      match strtokR builder.memory start with
      | none => some builder
      | some (text, token, next, memory) =>
          if token ≥ reqSize then some { builder with memory := memory }
          else do
            let (malformed, curr) := isPrimeRequestMalformed parse curr text
            let prime ← isPrime curr.number
            let curr := { curr with isPrime := prime }
            let builder : Builder :=
              ⟨builder.requests + 1, malformed, pushResponse builder.sdq curr, memory⟩
            if malformed then return builder
            else builderLoop parse reqSize turns next curr builder

/-- `is_prime_request_builder` on the memory of a queue. -/
def isPrimeRequestBuilder (parse : Parser) (curr : IsPrimeRequest) (sdq : Queue)
    (rawRequest : Bytes) (reqSize : Nat) : Option Builder :=
  builderLoop parse reqSize (rawRequest.length + 1) 0 curr ⟨0, false, sdq, rawRequest⟩

/-- `handle_request`: its result, beside what the builder has done. -/
def handleRequest (parse : Parser) (curr : IsPrimeRequest) (sdq : Queue) (rawReq : Bytes)
    (size : Nat) : Option (Int × Builder) :=
  if size = 0 then some (1, ⟨0, false, sdq, rawReq⟩)
  else
    (isPrimeRequestBuilder parse curr sdq rawReq size).map fun builder =>
      if builder.requests = 0 then (-1, builder)
      else (if builder.malformed then 0 else 1, builder)

/-! ### The server -/

/-- The two queues, the descriptors that are open, and the bytes handed to each connection
since it was accepted.  `received` are the bytes read from each of them; the program does
not keep them. -/
structure ServerState where
  rcqu : Queue
  sdqu : Queue
  live : Finset SocketFd
  net : Net
  received : Net

def ServerState.init (memory sdMemory : Nat → UInt8) : ServerState :=
  ⟨queueInit memory 2048, queueInit sdMemory 2048, ∅, fun _ => [], fun _ => []⟩

/-- What one event comes out of the system with: its reads, what `sendall` meets, for whatever
is sent, and what the stack holds where the request is built. -/
structure Turn where
  arrival : Arrival
  sends : Bytes → Sending
  curr : IsPrimeRequest

/-- An event of the loop: a new connection, or something to read. -/
inductive Event where
  | accept (fd : SocketFd)
  | data (fd : SocketFd) (turn : Turn)

/-- `fd_poll_del_and_close`. -/
def ServerState.close (state : ServerState) (fd : SocketFd) : ServerState :=
  { state with live := state.live.erase fd }

/-- What `sendall` hands over. -/
def ServerState.hand (state : ServerState) (fd : SocketFd) (bytes : Bytes) : ServerState :=
  { state with net := Function.update state.net fd (state.net fd ++ bytes) }

/-- The answers of a request: `queue_pop_no_copy` and `sendall`; and whether that went
well. -/
def sendResponses (state : ServerState) (fd : SocketFd) (sends : Bytes → Sending) :
    Option (Bool × ServerState) :=
  let popped := queuePopNoCopy state.sdqu
  let sddata := load state.sdqu.data popped.1.toNat
  let state := { state with sdqu := popped.2 }
  if popped.1 > 0 then
    (sendall sddata (sends sddata)).map fun result =>
      (decide (result.2 = 0), state.hand fd result.1)
  else some (true, state)

/-- What is done with a queue that holds a complete request: whether the connection stays
open. -/
def processRequests (parse : Parser) (state : ServerState) (fd : SocketFd) (turn : Turn) :
    Option (Bool × ServerState) := do
  let popped := queuePopNoCopy state.rcqu
  let memory := load state.rcqu.data state.rcqu.capacity
  let (result, builder) ← handleRequest parse turn.curr state.sdqu memory popped.1.toNat
  let rcqu := { popped.2 with data := store popped.2.data 0 builder.memory }
  let (sentAll, state) ←
    sendResponses { state with rcqu := rcqu, sdqu := builder.sdq } fd turn.sends
  return (decide (result > 0) && sentAll, state)

/-- Something to read. -/
def dataStep (parse : Parser) (state : ServerState) (fd : SocketFd) (turn : Turn) :
    Option ServerState := do
  let (res, rcqu) ← recvRequest state.rcqu turn.arrival
  let state : ServerState :=
    { state with
      rcqu := rcqu
      received := Function.update state.received fd (state.received fd ++ turn.arrival.bytes) }
  if res < -1 then return state.close fd
  else
    let size := queuePeek rcqu
    let peeked := load rcqu.data size.toNat
    if size > 0 ∧ (lastIndexOf newline peeked).isSome then
      let (open_, state) ← processRequests parse state fd turn
      if !open_ then return state.close fd
      else if res = -1 then return state
      else return state.close fd
    else if res = -1 then return state
    else return state.close fd

/-- The body of the loop.  The system gives a new connection a descriptor that is not open,
and reports reads only of open ones. -/
def eventStep (parse : Parser) (state : ServerState) : Event → Option ServerState
  | .accept fd =>
      if fd ∈ state.live then none
      else
        some { state with
          live := insert fd state.live
          net := Function.update state.net fd []
          received := Function.update state.received fd [] }
  | .data fd turn => if fd ∈ state.live then dataStep parse state fd turn else none

end NetworkExercises.PrimeTime.C
