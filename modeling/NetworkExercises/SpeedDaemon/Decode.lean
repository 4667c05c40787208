/-
Module: NetworkExercises.SpeedDaemon.Decode
Purpose: The decoder `decode` of `6-speed-daemon/messages.zig`, with its `u8`
  and `u16` arithmetic and its slices checked as the program checks them.
Main exports: DecodeError, Turn, decodeTurn, decodeLoop, decode
-/
import NetworkExercises.SpeedDaemon.Messages

namespace NetworkExercises.SpeedDaemon

open Lib Checked

/-- The errors `decode` can return; `overflow` is the message array's. -/
inductive DecodeError where
  | invalidMessageType
  | unexpectedMessage
  | emptyPlate
  | overflow
deriving DecidableEq, Repr

/-- `std.mem.readVarInt(u16, bytes, .big)`. -/
def readU16 (bytes : Bytes) : UInt16 := UInt16.ofNat (ofBigEndian bytes)

/-- `std.mem.readVarInt(u32, bytes, .big)`. -/
def readU32 (bytes : Bytes) : UInt32 := UInt32.ofNat (ofBigEndian bytes)

/-- What the `switch` of one turn of the loop does: `break` out of the loop, or
hand over a message and its `msg_len`. -/
inductive Turn where
  | stop
  | take (message : Message) (msgLen : Nat)
deriving DecidableEq, Repr

/-- The prong `Type.Plate`. -/
def decodePlate (buf : Bytes) (start : Nat) : Checked DecodeError Turn :=
  if buf.length - start < 7 then .ok .stop
  else do
    let platelenAt ← fitsIn 16 (start + 1)
    let platelen ← byteAt buf platelenAt
    if platelen = 0 then fail .emptyPlate
    else do
      let platestart ← fitsIn 16 (start + 2)
      let plateend ← fitsIn 16 (platestart + platelen.toNat)
      if buf.length < plateend then .ok .stop
      else do
        let plate ← slice buf platestart plateend
        let timestampend ← fitsIn 16 (plateend + 4)
        if buf.length < timestampend then .ok .stop
        else do
          let timestamp ← slice buf plateend timestampend
          let msgLen ← subtract timestampend start
          .ok (.take (.plate ⟨plate, readU32 timestamp⟩) msgLen)

/-- The prong `Type.WantHeartbeat`. -/
def decodeWantHeartbeat (buf : Bytes) (start : Nat) : Checked DecodeError Turn :=
  if buf.length - start < 3 then .ok .stop
  else do
    let intervalstart ← fitsIn 16 (start + 1)
    let intervalend ← fitsIn 16 (intervalstart + 4)
    if buf.length < intervalend then .ok .stop
    else do
      let interval ← slice buf intervalstart intervalend
      let msgLen ← subtract intervalend start
      .ok (.take (.wantHeartbeat (readU32 interval)) msgLen)

/-- The prong `Type.IAmCamera`. -/
def decodeIAmCamera (buf : Bytes) (start : Nat) : Checked DecodeError Turn :=
  if buf.length - start < 7 then .ok .stop
  else do
    let roadstart ← fitsIn 16 (start + 1)
    let roadend ← fitsIn 16 (roadstart + 2)
    let road ← slice buf roadstart roadend
    let mileend ← fitsIn 16 (roadend + 2)
    let mile ← slice buf roadend mileend
    let limitend ← fitsIn 16 (mileend + 2)
    let limit ← slice buf mileend limitend
    let msgLen ← subtract limitend start
    .ok (.take (.camera ⟨readU16 road, readU16 mile, readU16 limit⟩) msgLen)

/-- The loop of the prong `Type.IAmDispatcher` over the roads still to read. -/
def readRoads (buf : Bytes) :
    (remaining roadsstart : Nat) → Checked DecodeError (List UInt16)
  | 0, _ => .ok []
  | remaining + 1, roadsstart => do
      let roadsend ← fitsIn 16 (roadsstart + 2)
      let road ← slice buf roadsstart roadsend
      let roads ← readRoads buf remaining roadsend
      .ok (readU16 road :: roads)

/-- The prong `Type.IAmDispatcher`.  `numroads` is a `u8`, so its sums are
computed at eight bits; the last one is an offset in the whole buffer. -/
def decodeIAmDispatcher (buf : Bytes) (start : Nat) : Checked DecodeError Turn :=
  if buf.length - start < 4 then .ok .stop
  else do
    let numroadsAt ← fitsIn 16 (start + 1)
    let numroads ← byteAt buf numroadsAt
    let doubled ← fitsIn 8 (numroads.toNat * 2)
    let needed ← fitsIn 8 (doubled + 1)
    if buf.length < needed then .ok .stop
    else do
      let roadsstart ← fitsIn 16 (start + 2)
      let roads ← readRoads buf numroads.toNat roadsstart
      let msgEnd ← fitsIn 8 (doubled + 2)
      let msgLen ← subtract msgEnd start
      .ok (.take (.dispatcher roads) msgLen)

/-- The prongs of the `switch` for the named types. -/
def decodeProng (type : MessageType) (buf : Bytes) (start : Nat) :
    Checked DecodeError Turn :=
  match type with
  | .errorM | .heartbeat | .ticket => fail .unexpectedMessage
  | .plate => decodePlate buf start
  | .wantHeartbeat => decodeWantHeartbeat buf start
  | .iAmCamera => decodeIAmCamera buf start
  | .iAmDispatcher => decodeIAmDispatcher buf start

/-- The `switch` on the type byte at `start`. -/
def decodeTurn (buf : Bytes) (start : Nat) : Checked DecodeError Turn := do
  let mtype ← byteAt buf start
  match MessageType.ofByte mtype with
  | some type => decodeProng type buf start
  | none => fail .invalidMessageType

/-- The `while` loop.  `room` counts the free slots of the message array, so
`array.append` fails exactly when none is left. -/
def decodeLoop (buf : Bytes) :
    (room start len : Nat) → (array : List Message) →
      Checked DecodeError (Nat × List Message)
  | room, start, len, array =>
      if start < buf.length then do
        match ← decodeTurn buf start with
        | .stop => .ok (len, array)
        | .take message msgLen => do
            let len ← fitsIn 16 (len + msgLen)
            match room with
            | 0 => fail .overflow
            | room + 1 => do
                let start ← fitsIn 16 (start + msgLen)
                decodeLoop buf room start len (array ++ [message])
      else .ok (len, array)

/-- `decode`: the consumed count and the messages put in the array of 64. -/
def decode (buf : Bytes) (array : List Message) :
    Checked DecodeError (Nat × List Message) :=
  if buf.length < 2 then .ok (0, array)
  else if array.length ≠ 0 then .ok (0, array)
  else decodeLoop buf 64 0 0 array

/-- Three dispatcher roads after nothing else, as the decoder's own test has
them. -/
example : decode (Message.dispatcher [123, 456, 789]).wire [] =
    .ok (8, [.dispatcher [123, 456, 789]]) := by decide +kernel

end NetworkExercises.SpeedDaemon
