/-
Module: NetworkExercises.SpeedDaemon.Proofs.Outgoing
Purpose: What the server writes can be read back, although the repository has no decoder for
  it: a stream of its frames is the encoding of one list of messages only.
Main exports: wire_injective, Encodes, encoding_unique
-/
import NetworkExercises.SpeedDaemon.Proofs.Output

namespace NetworkExercises.SpeedDaemon

open Lib

/-! ### One frame -/

theorem bigEndian_inj16 {one two : UInt16}
    (same : bigEndian 2 one.toNat = bigEndian 2 two.toNat) : one = two := by
  rw [← uint16_bigEndian one, same, uint16_bigEndian]

theorem bigEndian_inj32 {one two : UInt32}
    (same : bigEndian 4 one.toNat = bigEndian 4 two.toNat) : one = two := by
  rw [← uint32_bigEndian one, same, uint32_bigEndian]

/-- A number of fixed width in front of other bytes. -/
theorem bigEndian_append_inj {width one two : Nat} {more rest : Bytes}
    (same : bigEndian width one ++ more = bigEndian width two ++ rest) :
    bigEndian width one = bigEndian width two ∧ more = rest :=
  List.append_inj same (by simp)

/-- A text behind its length byte. -/
theorem counted_append_inj {one two more rest : Bytes} (short : one.length ≤ 255)
    (otherShort : two.length ≤ 255)
    (same : UInt8.ofNat one.length :: (one ++ more) = UInt8.ofNat two.length :: (two ++ rest)) :
    one = two ∧ more = rest := by
  obtain ⟨lengths, bytes⟩ := List.cons.inj same
  refine List.append_inj bytes ?_
  rw [← lengthByte_toNat short, lengths, lengthByte_toNat otherShort]

/-- Frames of different messages differ. -/
theorem wire_injective {frame other : Message} (isFrame : frame.IsFrame)
    (otherIsFrame : other.IsFrame) (same : frame.wire = other.wire) : frame = other := by
  obtain ⟨server, wellFormed⟩ := isFrame
  obtain ⟨otherServer, otherWellFormed⟩ := otherIsFrame
  obtain ⟨types, bodies⟩ := List.cons.inj same
  cases frame with
  | plate | wantHeartbeat | camera | dispatcher => simp [Message.IsServer] at server
  | errorM msg =>
      cases other with
      | errorM msg' =>
          have texts : msg = msg' ∧ [] = [] :=
            counted_append_inj wellFormed otherWellFormed (by simpa using bodies)
          rw [texts.1]
      | ticket | heartbeat => simp [Message.type, MessageType.toByte] at types
      | plate | wantHeartbeat | camera | dispatcher => simp [Message.IsServer] at otherServer
  | heartbeat =>
      cases other with
      | heartbeat => rfl
      | errorM | ticket => simp [Message.type, MessageType.toByte] at types
      | plate | wantHeartbeat | camera | dispatcher => simp [Message.IsServer] at otherServer
  | ticket issued =>
      cases other with
      | errorM | heartbeat => simp [Message.type, MessageType.toByte] at types
      | plate | wantHeartbeat | camera | dispatcher => simp [Message.IsServer] at otherServer
      | ticket issued' =>
          obtain ⟨plates, fields⟩ := counted_append_inj wellFormed otherWellFormed bodies
          obtain ⟨roads, fields⟩ := bigEndian_append_inj fields
          obtain ⟨miles1, fields⟩ := bigEndian_append_inj fields
          obtain ⟨times1, fields⟩ := bigEndian_append_inj fields
          obtain ⟨miles2, fields⟩ := bigEndian_append_inj fields
          obtain ⟨times2, speeds⟩ := bigEndian_append_inj fields
          cases issued
          cases issued'
          simp only [Message.ticket.injEq, Ticket.mk.injEq]
          exact ⟨plates, bigEndian_inj16 roads, bigEndian_inj16 miles1, bigEndian_inj32 times1,
            bigEndian_inj16 miles2, bigEndian_inj32 times2, bigEndian_inj16 speeds⟩

/-! ### Whole streams -/

/-- The bytes are the encodings of the messages, each made in an empty buffer, one behind the
other. -/
def Encodes (messages : List Message) (bytes : Bytes) : Prop :=
  ∃ bufs, List.Forall₂ (fun message buf => hostToNetwork message BoundedArray.clear = .ok buf)
    messages bufs ∧ bytes = bufs.flatMap BoundedArray.items

/-- The encodings of server messages are their frames. -/
theorem Encodes.eq_wire {messages : List Message} {bytes : Bytes}
    (frames : ∀ message ∈ messages, message.IsFrame) (encodes : Encodes messages bytes) :
    bytes = messages.flatMap Message.wire := by
  obtain ⟨bufs, each, rfl⟩ := encodes
  induction each with
  | nil => rfl
  | cons encoded _ ih =>
      obtain ⟨⟨server, wellFormed⟩, later⟩ := List.forall_mem_cons.mp frames
      obtain ⟨buf, made, items⟩ := hostToNetwork_clear server wellFormed
      rw [encoded, Except.ok.injEq] at made
      rw [List.flatMap_cons, List.flatMap_cons, ih later, made, items]

/-- Every message of the server fits an empty buffer, and a stream of them is the encoding of
no other list of them. -/
theorem encoding_unique :
    (∀ message : Message, message.IsFrame →
      ∃ buf, hostToNetwork message BoundedArray.clear = .ok buf) ∧
    ∀ (messages others : List Message) (bytes : Bytes),
      (∀ message ∈ messages, message.IsFrame) → (∀ other ∈ others, other.IsFrame) →
        Encodes messages bytes → Encodes others bytes → messages = others := by
  constructor
  · rintro message ⟨server, wellFormed⟩
    obtain ⟨buf, made, -⟩ := hostToNetwork_clear server wellFormed
    exact ⟨buf, made⟩
  · intro messages others bytes frames otherFrames encodes otherEncodes
    refine items_unique (fun frame _ => frame.wire_ne_nil) ?_ frames otherFrames
      ((encodes.eq_wire frames).symm.trans (otherEncodes.eq_wire otherFrames))
    intro frame other more rest isFrame otherIsFrame same
    exact wire_injective isFrame otherIsFrame (wire_delimited isFrame otherIsFrame same)

end NetworkExercises.SpeedDaemon
