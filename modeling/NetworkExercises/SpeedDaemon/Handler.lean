/-
Module: NetworkExercises.SpeedDaemon.Handler
Purpose: `handleMessages` of `6-speed-daemon/main.zig`: reading into the fifo of a
  client, decoding, and one prong for each type of message.
Main exports: Arrival, receive, Session, handleMessage, handleLoop, handleMessages
-/
import NetworkExercises.SpeedDaemon.Clients
import NetworkExercises.SpeedDaemon.Decode

namespace NetworkExercises.SpeedDaemon

open Lib

/-! ### Reading and decoding -/

/-- How the read loop ends. -/
inductive ReadEnd where
  | wouldBlock
  | closed
  | failed (errorName : String)
deriving DecidableEq, Repr

/-- What the reads of one event give: some chunks of bytes, then the end. -/
structure Arrival where
  chunks : List Bytes
  ending : ReadEnd
  nonempty : ∀ chunk ∈ chunks, chunk ≠ []
deriving DecidableEq

/-- The bytes of an event. -/
def Arrival.bytes (arrival : Arrival) : Bytes := arrival.chunks.flatten

theorem atOnce_nonempty {bytes : Bytes} (nonempty : bytes ≠ []) : ∀ chunk ∈ [bytes], chunk ≠ [] :=
  List.forall_mem_singleton.mpr nonempty

theorem oneByOne_nonempty (bytes : Bytes) :
    ∀ chunk ∈ bytes.map fun byte => [byte], chunk ≠ [] :=
  List.forall_mem_map.mpr fun byte _ => List.cons_ne_nil byte []

/-- The successful turns of the read loop: the fifo and the last `bytes`. -/
def readLoop (fifo : Bytes) (bytes : Nat) : List Bytes → Bytes × Nat
  | [] => (fifo, bytes)
  | chunk :: chunks => readLoop (fifo ++ chunk) chunk.length chunks

/-- The errors of the decoder, returned by `handleMessages`. -/
def DecodeError.toServerError : DecodeError → ServerError
  | .invalidMessageType => .invalidMessageType
  | .unexpectedMessage => .unexpectedMessage
  | .emptyPlate => .emptyPlate
  | .overflow => .overflow

/-- What the part of `handleMessages` before its loop comes to. -/
inductive Received where
  | failed (error : ServerError) (fifo : Bytes)
  | messages (messages : List Message) (len : Nat) (fifo : Bytes)
  | trap
deriving DecidableEq

/-- Read into the fifo and decode what it holds.  An event that reads nothing
counts as a closed connection. -/
def receive (fifo : Bytes) (arrival : Arrival) : Received :=
  let (fifo, bytes) := readLoop fifo 0 arrival.chunks
  match arrival.ending with
  | .failed errorName => .failed (.system errorName) fifo
  | .closed => .failed .clientClosedConnection fifo
  | .wouldBlock =>
      if bytes = 0 then .failed .clientClosedConnection fifo
      else
        match decode fifo [] with
        | .error (.error error) => .failed error.toServerError fifo
        | .error .trap => .trap
        | .ok (len, msgs) =>
            if len = 0 ∨ msgs.length = 0 then .messages [] 0 fifo
            else .messages msgs len fifo

/-! ### Handling the messages -/

/-- What the program does not determine about one message: its sends, and the
system calls for a new timer. -/
structure Calls where
  sends : Nat → Sending
  timerfd : Except String SocketFd
  epollAdd : Option String

/-- The state that the handler of one client works on. -/
structure Session where
  world : World
  timers : Timers
  client : Client
  buf : U8BoundedArray

/-- `ctx.tickets.dispatchTicketsQueue(ctx.roads, thr_ctx.buf)`. -/
def Session.dispatch (session : Session) (sends : Nat → Sending) :
    Outcome ServerError Session :=
  (dispatchTicketsQueue session.world.roads sends
    ⟨session.world.tickets, session.buf, session.world.net⟩).map fun pass =>
      { session with world := session.world.afterPass pass, buf := pass.buf }

section Arithmetic

variable (F : Type) [F64 F]

/-- The prong `.IAmCamera`. -/
def handleIAmCamera (msg : Message) (session : Session) : Outcome ServerError Session :=
  if session.client.type ≠ .unidentified then .raised .clientAlreadyIdentified session
  else
    match session.client.setAsCamera msg with
    | .error error => .raised error session
    | .ok client => .done { session with client := client }

/-- The prong `.IAmDispatcher`. -/
def handleIAmDispatcher (calls : Calls) (msg : Message) (session : Session) :
    Outcome ServerError Session :=
  if session.client.type ≠ .unidentified then .raised .clientAlreadyIdentified session
  else
    match session.client.setAsDispatcher msg with
    | .error error => .raised error session
    | .ok (client, disp) =>
        let world := { session.world with roads := session.world.roads.addDispatcher disp }
        Session.dispatch { session with client := client, world := world } calls.sends

/-- The prong `.WantHeartbeat`. -/
def handleWantHeartbeat (calls : Calls) (interval : UInt32) (session : Session) :
    Outcome ServerError Session :=
  let client := session.client
  if client.heartbeatRequested = true ∨ client.timer.isSome then
    .raised .timerAlreadyExists session
  else if interval.toNat = 0 then
    .done { session with client := { client with heartbeatRequested := true } }
  else
    ((client.addTimer interval.toNat calls.timerfd calls.epollAdd).map fun client =>
      { session with client := client }).andThen fun session =>
        match session.client.timer with
        | some timer => .done { session with timers := session.timers.add timer }
        | none => .done session

/-- The prong `.Plate`. -/
def handlePlate (calls : Calls) (seen : Plate) (session : Session) :
    Outcome ServerError Session :=
  match session.client.data with
  | .camera camera =>
      match observe F session.world.cars session.world.tickets seen camera with
      | .error .trap => .trap
      | .error (.error error) => .raised error session
      | .ok (cars, tickets, ntickets) =>
          let session :=
            { session with world := { session.world with cars := cars, tickets := tickets } }
          if ntickets > 0 then session.dispatch calls.sends else .done session
  | _ => .raised .clientNotIdentifiedAsCamera session

/-- The `switch` of `handleMessages`. -/
def handleMessage (calls : Calls) (msg : Message) (session : Session) :
    Outcome ServerError Session :=
  match msg with
  | .heartbeat | .errorM _ | .ticket _ => .raised .unexpectedMessageType session
  | .camera _ => handleIAmCamera msg session
  | .dispatcher _ => handleIAmDispatcher calls msg session
  | .wantHeartbeat interval => handleWantHeartbeat calls interval session
  | .plate seen => handlePlate F calls seen session

/-- The `while` loop of `handleMessages`, from message number `i` on. -/
def handleLoop (calls : Nat → Calls) (i : Nat) (msgs : List Message) (session : Session) :
    Outcome ServerError Session :=
  match msgs with
  | [] => .done session
  | msg :: msgs =>
      (handleMessage F (calls i) msg session).andThen (handleLoop calls (i + 1) msgs)

/-- Give the client another fifo. -/
def Session.withFifo (session : Session) (fifo : Bytes) : Session :=
  { session with client := { session.client with fifo := some fifo } }

/-- `fifo.discard(len)`, deferred to the end of `handleMessages`. -/
def Session.discard (session : Session) (len : Nat) : Session :=
  { session with client :=
    { session.client with fifo := session.client.fifo.map (List.drop len) } }

/-- `handleMessages`; reading into a fifo that was freed is not defined. -/
def handleMessages (arrival : Arrival) (calls : Nat → Calls) (session : Session) :
    Outcome ServerError Session :=
  match session.client.fifo with
  | none => .trap
  | some fifo =>
      match receive fifo arrival with
      | .trap => .trap
      | .failed error fifo => .raised error (session.withFifo fifo)
      | .messages msgs len fifo =>
          (handleLoop F calls 0 msgs (session.withFifo fifo)).map fun session =>
            session.discard len

end Arithmetic

end NetworkExercises.SpeedDaemon
