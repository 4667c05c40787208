/-
Module: NetworkExercises.SpeedDaemon.Proofs.DecodeLoop
Purpose: Turns of the decoder on whole and partial messages, and when the loop
  reads exactly a given list of messages.
Main exports: decodeTurn_wire, decodeTurn_partial, decodeTurn_dispatcher,
  Reads, decodeLoop_eq_iff
-/
import NetworkExercises.SpeedDaemon.Proofs.DecodeTurn

namespace NetworkExercises.SpeedDaemon

open Lib Checked

variable {buf view : Bytes} {start : Nat}

/-! ### The length of a message -/

theorem Message.wire_ne_nil (message : Message) : message.wire ≠ [] := by
  simp [Message.wire]

theorem Message.wire_head (message : Message) :
    message.wire[0]? = some message.type.toByte := rfl

theorem Message.wire_length_le {message : Message} (wellFormed : message.WellFormed) :
    message.wire.length ≤ 512 := by
  cases message with
  | dispatcher roads =>
      have few : roads.length ≤ 255 := wellFormed
      have body := roadBytes_length roads
      simp only [roadBytes] at body
      simp only [Message.wire, List.length_cons, body]
      omega
  | errorM | plate | ticket =>
      simp only [Message.WellFormed] at wellFormed
      simp [Message.wire]
      omega
  | wantHeartbeat | heartbeat | camera => simp [Message.wire]

theorem wireAll_length_le {messages : List Message}
    (wellFormed : ∀ message ∈ messages, message.WellFormed) :
    (wireAll messages).length ≤ 512 * messages.length := by
  induction messages with
  | nil => simp
  | cons message messages ih =>
      have first := Message.wire_length_le (wellFormed message (by simp))
      have others := ih fun message member => wellFormed message (by simp [member])
      simp only [wireAll_cons, List.length_append, List.length_cons]
      omega

/-! ### One turn on a message -/

/-- The switch looks at the first byte that is left. -/
theorem decodeTurn_eq (type : MessageType) (viewEq : buf.drop start = view)
    (head : view[0]? = some type.toByte) :
    decodeTurn buf start = decodeProng type buf start := by
  have headByte : (byteAt buf start : Checked DecodeError UInt8) =
      .ok type.toByte := by
    have := byteAt_offset (ε := DecodeError) buf start 0
    rw [Nat.add_zero, viewEq, byteAt_of_getElem? head] at this
    exact this
  rw [decodeTurn, headByte, ok_bind, MessageType.ofByte_toByte]

/-- The messages a camera sends: all well-formed client messages but
`IAmDispatcher`. -/
def Message.Streamed : Message → Prop
  | .plate seen => 1 ≤ seen.plate.length ∧ seen.plate.length ≤ 255
  | .wantHeartbeat _ | .camera _ => True
  | _ => False

theorem Message.Streamed.wellFormed {message : Message}
    (streamed : message.Streamed) : message.WellFormed := by
  cases message <;> simp_all [Message.Streamed, Message.WellFormed]

theorem Message.Streamed.two_le_wire_length {message : Message}
    (streamed : message.Streamed) : 2 ≤ message.wire.length := by
  cases message <;> simp [Message.Streamed] at streamed <;> simp [Message.wire]

/-- A length byte holds every length up to 255. -/
theorem lengthByte_toNat {length : Nat} (short : length ≤ 255) :
    (UInt8.ofNat length).toNat = length := by
  rw [UInt8.toNat_ofNat']
  omega

theorem lengthByte_ne_zero {length : Nat} (long : 1 ≤ length) (short : length ≤ 255) :
    UInt8.ofNat length ≠ 0 := by
  intro zero
  have := lengthByte_toNat short
  rw [zero] at this
  simp only [UInt8.toNat_zero] at this
  omega

theorem decodePlate_wire {seen : Plate} {after : Bytes} (long : 1 ≤ seen.plate.length)
    (short : seen.plate.length ≤ 255)
    (viewEq : buf.drop start = (Message.plate seen).wire ++ after)
    (bound : start + 512 < 2 ^ 16) :
    decodePlate buf start = .ok (.take (.plate seen) (Message.plate seen).wire.length) := by
  have length := lengthByte_toNat short
  have lengthByte : ((Message.plate seen).wire ++ after)[1]? =
      some (UInt8.ofNat seen.plate.length) := rfl
  have turn := decodePlate_eq viewEq lengthByte (lengthByte_ne_zero long short) (by omega)
  rw [length] at turn
  have whole : ¬ ((Message.plate seen).wire ++ after).length < 6 + seen.plate.length := by
    simp [Message.wire]
    omega
  have plateEq : (((Message.plate seen).wire ++ after).drop 2).take
      seen.plate.length = seen.plate := by
    simp [Message.wire]
  have timestampEq : (((Message.plate seen).wire ++ after).drop
      (2 + seen.plate.length)).take 4 = bigEndian 4 seen.timestamp.toNat := by
    simp [Message.wire, Nat.add_comm 2]
  have wireLength : (Message.plate seen).wire.length = 6 + seen.plate.length := by
    simp [Message.wire]
    omega
  rw [if_neg whole, plateEq, timestampEq, readU32, uint32_bigEndian, ← wireLength] at turn
  exact turn

theorem decodeWantHeartbeat_wire {interval : UInt32} {after : Bytes}
    (viewEq : buf.drop start = (Message.wantHeartbeat interval).wire ++ after)
    (bound : start + 512 < 2 ^ 16) :
    decodeWantHeartbeat buf start =
      .ok (.take (.wantHeartbeat interval) (Message.wantHeartbeat interval).wire.length) := by
  have turn := decodeWantHeartbeat_eq viewEq (by simp [Message.wire]) (by omega)
  have intervalEq : (((Message.wantHeartbeat interval).wire ++ after).drop 1).take 4 =
      bigEndian 4 interval.toNat := by simp [Message.wire]
  rw [if_neg (by simp [Message.wire]), intervalEq, readU32, uint32_bigEndian] at turn
  exact turn

theorem decodeIAmCamera_wire {position : IAmCamera} {after : Bytes}
    (viewEq : buf.drop start = (Message.camera position).wire ++ after)
    (bound : start + 512 < 2 ^ 16) :
    decodeIAmCamera buf start =
      .ok (.take (.camera position) (Message.camera position).wire.length) := by
  have turn := decodeIAmCamera_eq viewEq (by simp [Message.wire]) (by omega)
  rw [if_neg (by simp [Message.wire]; omega)] at turn
  have roadEq : (((Message.camera position).wire ++ after).drop 1).take 2 =
      bigEndian 2 position.road.toNat := by simp [Message.wire]
  have mileEq : (((Message.camera position).wire ++ after).drop 3).take 2 =
      bigEndian 2 position.mile.toNat := by simp [Message.wire]
  have limitEq : (((Message.camera position).wire ++ after).drop 5).take 2 =
      bigEndian 2 position.limit.toNat := by
    have regroup : (Message.camera position).wire ++ after =
        (MessageType.iAmCamera.toByte :: (bigEndian 2 position.road.toNat ++
          bigEndian 2 position.mile.toNat)) ++
            (bigEndian 2 position.limit.toNat ++ after) := by
      simp [Message.wire, Message.type]
    rw [regroup, List.drop_left' (by simp), List.take_left' (by simp)]
  rw [roadEq, mileEq, limitEq, readU16, readU16, readU16, uint16_bigEndian,
    uint16_bigEndian, uint16_bigEndian] at turn
  exact turn

/-- A message that has arrived whole is taken whole, whatever follows. -/
theorem decodeTurn_wire {message : Message} {after : Bytes}
    (streamed : message.Streamed) (viewEq : buf.drop start = message.wire ++ after)
    (bound : start + 512 < 2 ^ 16) :
    decodeTurn buf start = .ok (.take message message.wire.length) := by
  rw [decodeTurn_eq message.type viewEq rfl]
  cases message with
  | plate seen => exact decodePlate_wire streamed.1 streamed.2 viewEq bound
  | wantHeartbeat interval => exact decodeWantHeartbeat_wire viewEq bound
  | camera position => exact decodeIAmCamera_wire viewEq bound
  | errorM | ticket | heartbeat | dispatcher => exact streamed.elim

/-- The bytes of a part are those of the whole. -/
theorem getElem?_of_part {part whole : Bytes} {index : Nat}
    (isPart : part <+: whole) (inside : index < part.length) :
    part[index]? = whole[index]? := by
  obtain ⟨tail, rfl⟩ := isPart
  rw [List.getElem?_append_left inside]

/-- A message that has not arrived whole stops the loop. -/
theorem decodeTurn_partial {message : Message} {part : Bytes}
    (streamed : message.Streamed) (viewEq : buf.drop start = part)
    (isPart : part <+: message.wire) (left : 0 < part.length)
    (strict : part.length < message.wire.length) (bound : start + 512 < 2 ^ 16) :
    decodeTurn buf start = .ok .stop := by
  have head := getElem?_of_part isPart left
  rw [decodeTurn_eq message.type viewEq head]
  cases message with
  | plate seen =>
      obtain ⟨long, short⟩ := streamed
      have length := lengthByte_toNat short
      have viewLength := length_of_view viewEq
      by_cases few : part.length < 7
      · exact if_pos (by omega)
      have lengthByte : part[1]? = some (UInt8.ofNat seen.plate.length) :=
        getElem?_of_part isPart (by omega)
      have turn := decodePlate_eq viewEq lengthByte
        (lengthByte_ne_zero long short) (by omega)
      have cut : part.length < 6 + seen.plate.length := by
        simp [Message.wire] at strict
        omega
      rw [length, if_pos cut] at turn
      exact turn
  | wantHeartbeat interval =>
      have turn := decodeWantHeartbeat_eq viewEq left (by omega)
      rwa [if_pos (by simpa [Message.wire] using strict)] at turn
  | camera position =>
      have turn := decodeIAmCamera_eq viewEq left (by omega)
      rwa [if_pos (by simpa [Message.wire] using strict)] at turn
  | errorM | ticket | heartbeat | dispatcher => simp [Message.Streamed] at streamed

theorem dispatcher_wire_length (roads : List UInt16) :
    (Message.dispatcher roads).wire.length = 2 * roads.length + 2 := by
  have body := roadBytes_length roads
  simp only [roadBytes] at body
  simp only [Message.wire, List.length_cons, body]

/-- A dispatcher that has arrived whole is taken whole exactly at the front of
the buffer, with at most 126 roads and with four bytes to look at. -/
theorem decodeTurn_dispatcher {roads : List UInt16} {after : Bytes}
    (few : roads.length ≤ 255)
    (viewEq : buf.drop start = (Message.dispatcher roads).wire ++ after)
    (bound : start + 512 < 2 ^ 16) :
    decodeTurn buf start =
        .ok (.take (.dispatcher roads) (Message.dispatcher roads).wire.length) ↔
      start = 0 ∧ roads.length ≤ 126 ∧ 4 ≤ buf.length := by
  have wireLength := dispatcher_wire_length roads
  have viewLength := length_of_view viewEq
  have total := length_eq_of_view viewEq (by simp [wireLength])
  rw [List.length_append, wireLength] at viewLength total
  have behind : buf.drop (start + 2) = roadBytes roads ++ after := by
    rw [← List.drop_drop, viewEq]
    rfl
  have read := readRoads_roadBytes behind (by omega)
  have lengthByte : ((Message.dispatcher roads).wire ++ after)[1]? =
      some (UInt8.ofNat roads.length) := rfl
  have turn := decodeIAmDispatcher_eq viewEq lengthByte bound
  rw [lengthByte_toNat few, read, ok_bind] at turn
  rw [decodeTurn_eq .iAmDispatcher viewEq rfl, decodeProng, turn, wireLength]
  simp only [List.length_append, wireLength]
  constructor
  · intro taken
    by_cases short : 2 * roads.length + 2 + after.length < 4
    · simp [short] at taken
    by_cases large : 127 < roads.length
    · simp [short, large] at taken
    by_cases cut : buf.length < 2 * roads.length + 1
    · simp [short, large, cut] at taken
    by_cases off : 126 < roads.length ∨ 2 * roads.length + 2 < start
    · simp [short, large, cut, off] at taken
    simp only [short, large, cut, off, if_false, Except.ok.injEq, Turn.take.injEq] at taken
    omega
  · rintro ⟨rfl, few, four⟩
    rw [if_neg (by omega), if_neg (by omega), if_neg (by omega), if_neg (by omega),
      Nat.sub_zero]

/-- A dispatcher that has not arrived whole stops the loop exactly when fewer
than four of its bytes are there, or when the whole buffer is still shorter than
the roads alone; otherwise the turn traps. -/
theorem decodeTurn_partialDispatcher {roads : List UInt16} {part : Bytes}
    (few : roads.length ≤ 255) (viewEq : buf.drop start = part)
    (isPart : part <+: (Message.dispatcher roads).wire) (left : 0 < part.length)
    (strict : part.length < (Message.dispatcher roads).wire.length)
    (bound : start + 512 < 2 ^ 16) :
    decodeTurn buf start = .ok .stop ↔
      part.length < 4 ∨ (roads.length ≤ 127 ∧ buf.length < 2 * roads.length + 1) := by
  rw [dispatcher_wire_length] at strict
  have viewLength := length_of_view viewEq
  rw [decodeTurn_eq .iAmDispatcher viewEq (getElem?_of_part isPart left),
    decodeProng]
  by_cases short : part.length < 4
  · exact ⟨fun _ => .inl short, fun _ => if_pos (by omega)⟩
  have lengthByte : part[1]? = some (UInt8.ofNat roads.length) :=
    getElem?_of_part isPart (by omega)
  have cut : readRoads buf roads.length (start + 2) = trap :=
    readRoads_short (by omega) (by omega) (by omega)
  have turn := decodeIAmDispatcher_eq viewEq lengthByte bound
  rw [lengthByte_toNat few, cut, trap_bind, if_neg short] at turn
  rw [turn]
  by_cases large : 127 < roads.length
  · simp [large, short]
  by_cases waits : buf.length < 2 * roads.length + 1
  · rw [if_neg large, if_pos waits]
    exact ⟨fun _ => .inr ⟨by omega, waits⟩, fun _ => rfl⟩
  · rw [if_neg large, if_neg waits]
    exact ⟨fun absurdity => absurd absurdity (trap_ne_ok _), by omega⟩

/-! ### The loop -/

/-- The turns from `start` on take exactly `messages`, each at its own place and
with its own length, and then the loop ends. -/
def Reads (buf : Bytes) : (start : Nat) → (messages : List Message) → Prop
  | start, [] => start < buf.length → decodeTurn buf start = .ok .stop
  | start, message :: messages =>
      start < buf.length ∧
        decodeTurn buf start = .ok (.take message message.wire.length) ∧
        Reads buf (start + message.wire.length) messages

/-- Turns that read exactly `messages` make the loop return them, with the
length of their encodings. -/
theorem decodeLoop_of_reads {messages : List Message} {room : Nat}
    (array : List Message) (reads : Reads buf start messages)
    (enough : messages.length ≤ room)
    (bound : start + (wireAll messages).length < 2 ^ 16) :
    decodeLoop buf room start start array =
      .ok (start + (wireAll messages).length, array ++ messages) := by
  induction messages generalizing room start array with
  | nil =>
      rw [decodeLoop]
      by_cases inside : start < buf.length
      · rw [if_pos inside, reads inside, ok_bind]
        simp
      · rw [if_neg inside]
        simp
  | cons message messages ih =>
      obtain ⟨inside, turn, rest⟩ := reads
      simp only [wireAll_cons, List.length_append] at bound ⊢
      cases room with
      | zero => simp at enough
      | succ room =>
          rw [decodeLoop, if_pos inside, turn, ok_bind]
          simp only
          rw [fitsIn_of_lt (by omega), ok_bind, ok_bind,
            ih (array ++ [message]) rest (by simpa using enough) (by omega),
            Nat.add_assoc, List.append_assoc, List.singleton_append]

/-! ### What a turn takes -/

theorem decodePlate_take {message : Message} {msgLen : Nat}
    (taken : decodePlate buf start = .ok (.take message msgLen)) :
    (message.IsClient ∧ message.WellFormed) ∧ msgLen = message.wire.length := by
  unfold decodePlate at taken
  split at taken
  · cases taken
  obtain ⟨_, at1, taken⟩ := bind_eq_ok.mp taken
  obtain ⟨platelen, -, taken⟩ := bind_eq_ok.mp taken
  split at taken
  · cases taken
  next nonzero =>
  obtain ⟨platestart, startEq, taken⟩ := bind_eq_ok.mp taken
  obtain ⟨plateend, endEq, taken⟩ := bind_eq_ok.mp taken
  split at taken
  · cases taken
  obtain ⟨plate, plateEq, taken⟩ := bind_eq_ok.mp taken
  obtain ⟨timestampend, timestampEq, taken⟩ := bind_eq_ok.mp taken
  split at taken
  · cases taken
  obtain ⟨timestamp, -, taken⟩ := bind_eq_ok.mp taken
  obtain ⟨length, lengthEq, taken⟩ := bind_eq_ok.mp taken
  cases taken
  have plateLength := slice_length plateEq
  have positive : platelen.toNat ≠ 0 := fun zero => nonzero (UInt8.toNat_inj.mp zero)
  have atMost := platelen.toNat_lt
  simp only [fitsIn_eq_ok, subtract_eq_ok] at startEq endEq timestampEq lengthEq
  refine ⟨⟨rfl, ?_, ?_⟩, ?_⟩
  · simp only
    omega
  · simp only
    omega
  · simp only [Message.wire, List.length_cons, List.length_append, bigEndian_length]
    omega

theorem decodeWantHeartbeat_take {message : Message} {msgLen : Nat}
    (taken : decodeWantHeartbeat buf start = .ok (.take message msgLen)) :
    (message.IsClient ∧ message.WellFormed) ∧ msgLen = message.wire.length := by
  unfold decodeWantHeartbeat at taken
  split at taken
  · cases taken
  obtain ⟨intervalstart, startEq, taken⟩ := bind_eq_ok.mp taken
  obtain ⟨intervalend, endEq, taken⟩ := bind_eq_ok.mp taken
  split at taken
  · cases taken
  obtain ⟨interval, -, taken⟩ := bind_eq_ok.mp taken
  obtain ⟨length, lengthEq, taken⟩ := bind_eq_ok.mp taken
  cases taken
  simp only [fitsIn_eq_ok, subtract_eq_ok] at startEq endEq lengthEq
  refine ⟨⟨rfl, trivial⟩, ?_⟩
  simp only [Message.wire, List.length_cons, bigEndian_length]
  omega

theorem decodeIAmCamera_take {message : Message} {msgLen : Nat}
    (taken : decodeIAmCamera buf start = .ok (.take message msgLen)) :
    (message.IsClient ∧ message.WellFormed) ∧ msgLen = message.wire.length := by
  unfold decodeIAmCamera at taken
  split at taken
  · cases taken
  obtain ⟨roadstart, startEq, taken⟩ := bind_eq_ok.mp taken
  obtain ⟨roadend, roadEq, taken⟩ := bind_eq_ok.mp taken
  obtain ⟨road, -, taken⟩ := bind_eq_ok.mp taken
  obtain ⟨mileend, mileEq, taken⟩ := bind_eq_ok.mp taken
  obtain ⟨mile, -, taken⟩ := bind_eq_ok.mp taken
  obtain ⟨limitend, limitEq, taken⟩ := bind_eq_ok.mp taken
  obtain ⟨limit, -, taken⟩ := bind_eq_ok.mp taken
  obtain ⟨length, lengthEq, taken⟩ := bind_eq_ok.mp taken
  cases taken
  simp only [fitsIn_eq_ok, subtract_eq_ok] at startEq roadEq mileEq limitEq lengthEq
  refine ⟨⟨rfl, trivial⟩, ?_⟩
  simp only [Message.wire, List.length_cons, List.length_append, bigEndian_length]
  omega

theorem decodeIAmDispatcher_take {message : Message} {msgLen : Nat}
    (taken : decodeIAmDispatcher buf start = .ok (.take message msgLen)) :
    (message.IsClient ∧ message.WellFormed) ∧ msgLen + start = message.wire.length := by
  unfold decodeIAmDispatcher at taken
  split at taken
  · cases taken
  obtain ⟨_, -, taken⟩ := bind_eq_ok.mp taken
  obtain ⟨numroads, -, taken⟩ := bind_eq_ok.mp taken
  obtain ⟨doubled, doubledEq, taken⟩ := bind_eq_ok.mp taken
  obtain ⟨needed, -, taken⟩ := bind_eq_ok.mp taken
  split at taken
  · cases taken
  obtain ⟨roadsstart, -, taken⟩ := bind_eq_ok.mp taken
  obtain ⟨roads, roadsEq, taken⟩ := bind_eq_ok.mp taken
  obtain ⟨msgEnd, endEq, taken⟩ := bind_eq_ok.mp taken
  obtain ⟨length, lengthEq, taken⟩ := bind_eq_ok.mp taken
  cases taken
  have count := readRoads_length roadsEq
  simp only [fitsIn_eq_ok, subtract_eq_ok] at doubledEq endEq lengthEq
  refine ⟨⟨rfl, ?_⟩, ?_⟩
  · have atMost := numroads.toNat_lt
    simp only [Message.WellFormed]
    omega
  · rw [dispatcher_wire_length]
    omega

/-- A turn takes well-formed client messages only, and advances by at most the
length of the message it takes. -/
theorem decodeTurn_take {message : Message} {msgLen : Nat}
    (taken : decodeTurn buf start = .ok (.take message msgLen)) :
    (message.IsClient ∧ message.WellFormed) ∧ msgLen ≤ message.wire.length := by
  obtain ⟨mtype, -, taken⟩ := bind_eq_ok.mp taken
  split at taken
  · next type _ =>
    cases type with
    | errorM | heartbeat | ticket => cases taken
    | plate => exact (decodePlate_take taken).imp_right Nat.le_of_eq
    | wantHeartbeat => exact (decodeWantHeartbeat_take taken).imp_right Nat.le_of_eq
    | iAmCamera => exact (decodeIAmCamera_take taken).imp_right Nat.le_of_eq
    | iAmDispatcher =>
        obtain ⟨wellFormed, length⟩ := decodeIAmDispatcher_take taken
        exact ⟨wellFormed, by omega⟩
  · cases taken

/-- A loop that returns either ends here or takes a message and goes on. -/
theorem decodeLoop_cases {room len : Nat} {array result : List Message}
    (done : decodeLoop buf room start start array = .ok (len, result)) :
    (len = start ∧ result = array ∧
      (start < buf.length → decodeTurn buf start = .ok .stop)) ∨
    ∃ message msgLen room', start < buf.length ∧
      decodeTurn buf start = .ok (.take message msgLen) ∧ room = room' + 1 ∧
      decodeLoop buf room' (start + msgLen) (start + msgLen) (array ++ [message]) =
        .ok (len, result) := by
  rw [decodeLoop] at done
  by_cases inside : start < buf.length
  · rw [if_pos inside] at done
    obtain ⟨turn, turnEq, done⟩ := bind_eq_ok.mp done
    cases turn with
    | stop =>
        cases done
        exact .inl ⟨rfl, rfl, fun _ => turnEq⟩
    | take message msgLen =>
        obtain ⟨next, nextEq, done⟩ := bind_eq_ok.mp done
        cases room with
        | zero => cases done
        | succ room =>
            obtain ⟨next', nextEq', done⟩ := bind_eq_ok.mp done
            simp only [fitsIn_eq_ok] at nextEq nextEq'
            obtain ⟨-, rfl⟩ := nextEq
            obtain ⟨-, rfl⟩ := nextEq'
            exact .inr ⟨message, msgLen, room, inside, turnEq, rfl, done⟩
  · rw [if_neg inside] at done
    cases done
    exact .inl ⟨rfl, rfl, fun within => absurd within inside⟩

/-- The loop only adds well-formed client messages, and counts at most their
encodings. -/
theorem decodeLoop_grows {room len : Nat} {array result : List Message}
    (done : decodeLoop buf room start start array = .ok (len, result)) :
    ∃ taken, result = array ++ taken ∧ taken.length ≤ room ∧
      len ≤ start + (wireAll taken).length ∧
      ∀ message ∈ taken, message.IsClient ∧ message.WellFormed := by
  induction room generalizing start array with
  | zero =>
      rcases decodeLoop_cases done with ⟨rfl, rfl, -⟩ | ⟨_, _, _, -, -, absurdity, -⟩
      · exact ⟨[], by simp⟩
      · cases absurdity
  | succ room ih =>
      rcases decodeLoop_cases done with
        ⟨rfl, rfl, -⟩ | ⟨message, msgLen, _, -, turn, roomEq, done⟩
      · exact ⟨[], by simp⟩
      · cases roomEq
        obtain ⟨taken, rfl, few, bounded, clients⟩ := ih done
        obtain ⟨client, advance⟩ := decodeTurn_take turn
        refine ⟨message :: taken, by simp, by simpa using few, ?_,
          List.forall_mem_cons.mpr ⟨client, clients⟩⟩
        simp only [wireAll_cons, List.length_append]
        omega

/-- Every message that `decode` returns is a well-formed client message. -/
theorem decode_wellFormed {len : Nat} {messages : List Message}
    (done : decode buf [] = .ok (len, messages)) :
    ∀ message ∈ messages, message.IsClient ∧ message.WellFormed := by
  unfold decode at done
  split at done
  · cases done
    nofun
  · rw [if_neg (by simp)] at done
    obtain ⟨taken, rfl, -, -, clients⟩ := decodeLoop_grows done
    exact clients

/-- A loop that returns exactly `messages` and the length of their encodings
has read each of them at its own place. -/
theorem reads_of_decodeLoop {messages array : List Message} {room : Nat}
    (done : decodeLoop buf room start start array =
      .ok (start + (wireAll messages).length, array ++ messages)) :
    Reads buf start messages := by
  induction messages generalizing room start array with
  | nil =>
      rcases decodeLoop_cases done with
        ⟨-, -, stops⟩ | ⟨message, msgLen, _, -, -, -, done⟩
      · exact stops
      · -- A message once taken would stay in the array.
        obtain ⟨taken, grown, -⟩ := decodeLoop_grows done
        have := congrArg List.length grown
        simp at this
  | cons message messages ih =>
      rcases decodeLoop_cases done with
        ⟨-, unchanged, -⟩ | ⟨first, msgLen, room, inside, turn, -, done⟩
      · simp at unchanged
      · obtain ⟨taken, grown, -, bounded, -⟩ := decodeLoop_grows done
        have advance := (decodeTurn_take turn).2
        simp only [List.append_assoc, List.singleton_append,
          List.append_cancel_left_eq, List.cons.injEq] at grown
        obtain ⟨rfl, rfl⟩ := grown
        -- The count is reached only if the turn advanced by the whole message.
        simp only [wireAll_cons, List.length_append] at bounded done
        have whole : msgLen = message.wire.length := by omega
        subst whole
        have rest : decodeLoop buf room (start + message.wire.length)
            (start + message.wire.length) (array ++ [message]) =
              .ok (start + message.wire.length + (wireAll messages).length,
                array ++ [message] ++ messages) := by
          rw [done, Nat.add_assoc, List.append_assoc, List.singleton_append]
        exact ⟨inside, turn, ih rest⟩

/-- The loop returns exactly `messages` and the length of their encodings if and
only if its turns read them. -/
theorem decodeLoop_eq_iff {messages array : List Message} {room : Nat}
    (enough : messages.length ≤ room)
    (bound : start + (wireAll messages).length < 2 ^ 16) :
    decodeLoop buf room start start array =
        .ok (start + (wireAll messages).length, array ++ messages) ↔
      Reads buf start messages :=
  ⟨reads_of_decodeLoop, fun reads => decodeLoop_of_reads array reads enough bound⟩

end NetworkExercises.SpeedDaemon
