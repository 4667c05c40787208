/-
Module: NetworkExercises.SpeedDaemon.Messages
Purpose: The messages of `6-speed-daemon/messages.zig` and the encoder
  `host_to_network` of the frames the server sends.
Main exports: MessageType, Message, hostToNetwork, Message.wire
-/
import NetworkExercises.Lib.BigEndian
import NetworkExercises.Lib.Checked

namespace NetworkExercises.SpeedDaemon

open Lib

/-- `types.u8BoundedArray`. -/
abbrev U8BoundedArray := BoundedArray UInt8 1024

/-- The named values of the non-exhaustive enum `Type`. -/
inductive MessageType where
  | errorM
  | plate
  | ticket
  | wantHeartbeat
  | heartbeat
  | iAmCamera
  | iAmDispatcher
deriving DecidableEq, Repr

/-- `@intFromEnum`. -/
def MessageType.toByte : MessageType → UInt8
  | .errorM => 0x10
  | .plate => 0x20
  | .ticket => 0x21
  | .wantHeartbeat => 0x40
  | .heartbeat => 0x41
  | .iAmCamera => 0x80
  | .iAmDispatcher => 0x81

/-- `@enumFromInt`; `none` is a value without a name (`_`). -/
def MessageType.ofByte (byte : UInt8) : Option MessageType :=
  if byte = 0x10 then some .errorM
  else if byte = 0x20 then some .plate
  else if byte = 0x21 then some .ticket
  else if byte = 0x40 then some .wantHeartbeat
  else if byte = 0x41 then some .heartbeat
  else if byte = 0x80 then some .iAmCamera
  else if byte = 0x81 then some .iAmDispatcher
  else none

@[simp] theorem MessageType.ofByte_toByte (type : MessageType) :
    MessageType.ofByte type.toByte = some type := by
  cases type <;> rfl

structure Plate where
  plate : Bytes
  timestamp : UInt32
deriving DecidableEq, Repr

structure Ticket where
  plate : Bytes
  road : UInt16
  mile1 : UInt16
  timestamp1 : UInt32
  mile2 : UInt16
  timestamp2 : UInt32
  speed : UInt16
deriving DecidableEq, Repr

structure IAmCamera where
  road : UInt16
  mile : UInt16
  limit : UInt16
deriving DecidableEq, Repr

/-- `Message`: the tag of the union and the field `type` always agree, because
every message is built by one of the `init` functions. -/
inductive Message where
  | errorM (msg : Bytes)
  | plate (plate : Plate)
  | ticket (ticket : Ticket)
  | wantHeartbeat (interval : UInt32)
  | heartbeat
  | camera (camera : IAmCamera)
  | dispatcher (roads : List UInt16)
deriving DecidableEq, Repr

/-- The field `type`. -/
def Message.type : Message → MessageType
  | .errorM _ => .errorM
  | .plate _ => .plate
  | .ticket _ => .ticket
  | .wantHeartbeat _ => .wantHeartbeat
  | .heartbeat => .heartbeat
  | .camera _ => .iAmCamera
  | .dispatcher _ => .iAmDispatcher

/-- The errors of `host_to_network`; `overflow` is the bounded array's. -/
inductive EncodeError where
  | overflow
  | notEnoughBytes
deriving DecidableEq, Repr

/-- `try buf.appendSlice(bytes)`. -/
def tryAppend (buf : U8BoundedArray) (bytes : Bytes) :
    Except EncodeError U8BoundedArray :=
  match buf.appendSlice bytes with
  | some buf => .ok buf
  | none => .error .overflow

/-- `Message.host_to_network`: append the frame of a server message to `buf`.
Only `Ticket` and `ErrorM` have a body here. -/
def hostToNetwork (self : Message) (buf : U8BoundedArray) :
    Except EncodeError U8BoundedArray := do
  let buf ← tryAppend buf [self.type.toByte]
  match self with
  | .ticket ticket =>
      if ticket.plate.length > 255 then .error .notEnoughBytes
      else
        let buf ← tryAppend buf [UInt8.ofNat ticket.plate.length]
        let buf ← tryAppend buf ticket.plate
        let buf ← tryAppend buf (bigEndian 2 ticket.road.toNat)
        let buf ← tryAppend buf (bigEndian 2 ticket.mile1.toNat)
        let buf ← tryAppend buf (bigEndian 4 ticket.timestamp1.toNat)
        let buf ← tryAppend buf (bigEndian 2 ticket.mile2.toNat)
        let buf ← tryAppend buf (bigEndian 4 ticket.timestamp2.toNat)
        tryAppend buf (bigEndian 2 ticket.speed.toNat)
  | .errorM msg =>
      if msg.length > 255 then .error .notEnoughBytes
      else
        let buf ← tryAppend buf [UInt8.ofNat msg.length]
        tryAppend buf msg
  | _ => .ok buf

/-! ### The frames of the protocol -/

/-- The bytes of one message on the wire, in either direction.  This is the
protocol's layout as the decoder's tests spell it, not a function of the
source. -/
def Message.wire (message : Message) : Bytes :=
  message.type.toByte ::
    match message with
    | .errorM msg => UInt8.ofNat msg.length :: msg
    | .plate seen =>
        UInt8.ofNat seen.plate.length ::
          (seen.plate ++ bigEndian 4 seen.timestamp.toNat)
    | .ticket issued =>
        UInt8.ofNat issued.plate.length ::
          (issued.plate ++ (bigEndian 2 issued.road.toNat ++
            (bigEndian 2 issued.mile1.toNat ++
            (bigEndian 4 issued.timestamp1.toNat ++
            (bigEndian 2 issued.mile2.toNat ++
            (bigEndian 4 issued.timestamp2.toNat ++
            bigEndian 2 issued.speed.toNat))))))
    | .wantHeartbeat interval => bigEndian 4 interval.toNat
    | .heartbeat => []
    | .camera position =>
        bigEndian 2 position.road.toNat ++ (bigEndian 2 position.mile.toNat ++
          bigEndian 2 position.limit.toNat)
    | .dispatcher roads =>
        UInt8.ofNat roads.length ::
          roads.flatMap fun road => bigEndian 2 road.toNat

/-- A message whose lengths fit their length bytes. -/
def Message.WellFormed : Message → Prop
  | .errorM msg => msg.length ≤ 255
  | .plate seen => 1 ≤ seen.plate.length ∧ seen.plate.length ≤ 255
  | .ticket issued => issued.plate.length ≤ 255
  | .dispatcher roads => roads.length ≤ 255
  | _ => True

instance : DecidablePred Message.WellFormed := fun message => by
  cases message <;> unfold Message.WellFormed <;> infer_instance

/-- The messages a client may send. -/
def Message.IsClient : Message → Bool
  | .plate _ | .wantHeartbeat _ | .camera _ | .dispatcher _ => true
  | _ => false

/-- The messages the server sends. -/
def Message.IsServer : Message → Bool
  | .errorM _ | .ticket _ | .heartbeat => true
  | _ => false

/-- A stream of messages, back to back. -/
def wireAll (messages : List Message) : Bytes := messages.flatMap Message.wire

@[simp] theorem wireAll_nil : wireAll [] = [] := rfl

@[simp] theorem wireAll_cons (message : Message) (messages : List Message) :
    wireAll (message :: messages) = message.wire ++ wireAll messages := rfl

@[simp] theorem wireAll_append (front back : List Message) :
    wireAll (front ++ back) = wireAll front ++ wireAll back :=
  List.flatMap_append

/-! ### The encoder writes exactly the frame -/

/-- `write` appends `bytes` to every buffer that has room for them. -/
def Appends (write : U8BoundedArray → Except EncodeError U8BoundedArray)
    (bytes : Bytes) : Prop :=
  ∀ buf : U8BoundedArray, (buf.items ++ bytes).length ≤ 1024 →
    ∃ result, write buf = .ok result ∧ result.items = buf.items ++ bytes

theorem appends_tryAppend (bytes : Bytes) : Appends (tryAppend · bytes) bytes := by
  intro buf room
  refine ⟨⟨buf.items ++ bytes, room⟩, ?_, rfl⟩
  have appended : buf.appendSlice bytes = some ⟨buf.items ++ bytes, room⟩ := by simp
  simp only [tryAppend, appended]

/-- Two writes one after the other append both byte strings. -/
theorem Appends.andThen
    {first second : U8BoundedArray → Except EncodeError U8BoundedArray}
    {front back : Bytes} (one : Appends first front) (two : Appends second back) :
    Appends (fun buf => first buf >>= second) (front ++ back) := by
  intro buf room
  simp only [List.length_append] at room
  obtain ⟨middle, firstEq, middleEq⟩ := one buf (by
    simp only [List.length_append]; omega)
  obtain ⟨result, secondEq, resultEq⟩ := two middle (by
    simp only [middleEq, List.length_append]; omega)
  refine ⟨result, ?_, ?_⟩
  · change first buf >>= second = .ok result
    rw [firstEq]
    exact secondEq
  · rw [resultEq, middleEq, List.append_assoc]

/-- Encoding a server message appends its frame and nothing else. -/
theorem hostToNetwork_appends {message : Message} (server : message.IsServer)
    (wellFormed : message.WellFormed) :
    Appends (hostToNetwork message) message.wire := by
  cases message with
  | errorM msg =>
      have short : ¬ msg.length > 255 := Nat.not_lt.mpr wellFormed
      have body := ((appends_tryAppend [UInt8.ofNat msg.length]).andThen
        (appends_tryAppend msg))
      have frame := (appends_tryAppend [MessageType.errorM.toByte]).andThen body
      intro buf room
      simpa [hostToNetwork, short, Message.wire, Message.type] using frame buf room
  | ticket issued =>
      have short : ¬ issued.plate.length > 255 := Nat.not_lt.mpr wellFormed
      have fields := (appends_tryAppend (bigEndian 2 issued.road.toNat)).andThen
        ((appends_tryAppend (bigEndian 2 issued.mile1.toNat)).andThen
        ((appends_tryAppend (bigEndian 4 issued.timestamp1.toNat)).andThen
        ((appends_tryAppend (bigEndian 2 issued.mile2.toNat)).andThen
        ((appends_tryAppend (bigEndian 4 issued.timestamp2.toNat)).andThen
        (appends_tryAppend (bigEndian 2 issued.speed.toNat))))))
      have body := (appends_tryAppend [UInt8.ofNat issued.plate.length]).andThen
        ((appends_tryAppend issued.plate).andThen fields)
      have frame := (appends_tryAppend [MessageType.ticket.toByte]).andThen body
      intro buf room
      simpa [hostToNetwork, short, Message.wire, Message.type] using frame buf room
  | heartbeat =>
      have frame := appends_tryAppend [MessageType.heartbeat.toByte]
      intro buf room
      obtain ⟨result, written, resultEq⟩ := frame buf room
      refine ⟨result, ?_, resultEq⟩
      change tryAppend buf [MessageType.heartbeat.toByte] >>= Except.ok = .ok result
      rw [show tryAppend buf [MessageType.heartbeat.toByte] = .ok result from written]
      rfl
  | plate | wantHeartbeat | camera | dispatcher => simp [Message.IsServer] at server

/-- In an empty buffer the encoder leaves the frame and nothing else. -/
theorem hostToNetwork_clear {message : Message} (server : message.IsServer)
    (wellFormed : message.WellFormed) :
    ∃ buf, hostToNetwork message BoundedArray.clear = .ok buf ∧
      buf.items = message.wire := by
  have room : message.wire.length ≤ 1024 := by
    cases message with
    | errorM | ticket =>
        simp only [Message.WellFormed] at wellFormed
        simp [Message.wire]
        omega
    | heartbeat => simp [Message.wire]
    | plate | wantHeartbeat | camera | dispatcher => simp [Message.IsServer] at server
  exact hostToNetwork_appends server wellFormed BoundedArray.clear room

/-- A message with a text or a plate that is too long is not encoded. -/
theorem hostToNetwork_long {message : Message} (long : ¬ message.WellFormed)
    (server : message.IsServer) (buf : U8BoundedArray) :
    ∃ error, hostToNetwork message buf = .error error := by
  cases appended : tryAppend buf [message.type.toByte] with
  | error error => exact ⟨error, by rw [hostToNetwork, appended]; rfl⟩
  | ok typed =>
      refine ⟨.notEnoughBytes, ?_⟩
      rw [hostToNetwork, appended]
      cases message with
      | errorM | ticket => exact if_pos (Nat.not_le.mp long)
      | heartbeat => exact absurd trivial long
      | plate | wantHeartbeat | camera | dispatcher => simp [Message.IsServer] at server

end NetworkExercises.SpeedDaemon
