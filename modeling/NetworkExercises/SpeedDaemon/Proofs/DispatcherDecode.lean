/-
Module: NetworkExercises.SpeedDaemon.Proofs.DispatcherDecode
Purpose: Exactly which buffers with an `IAmDispatcher` message the decoder
  reads back.
Main exports: FrontDispatcher, decode_dispatcher_iff
-/
import NetworkExercises.SpeedDaemon.Proofs.DecodeLoop

namespace NetworkExercises.SpeedDaemon

open Lib Checked

variable {buf rest : Bytes} {start : Nat}

/-- A well-formed client message is a dispatcher's or one of a camera's. -/
theorem Message.dispatcher_or_streamed {message : Message}
    (client : message.IsClient) (wellFormed : message.WellFormed) :
    (∃ roads, message = .dispatcher roads) ∨ message.Streamed := by
  cases message with
  | dispatcher roads => exact .inl ⟨roads, rfl⟩
  | plate | wantHeartbeat | camera => exact .inr wellFormed
  | errorM | ticket | heartbeat => simp [Message.IsClient] at client

theorem Message.two_le_wire_length {message : Message} (client : message.IsClient)
    (wellFormed : message.WellFormed) : 2 ≤ message.wire.length := by
  rcases message.dispatcher_or_streamed client wellFormed with ⟨roads, rfl⟩ | streamed
  · rw [dispatcher_wire_length]
    exact Nat.le_add_left _ _
  · exact streamed.two_le_wire_length

/-- The bytes behind the last whole message, `consumed` bytes into the buffer,
make the decoder wait: they are no dispatcher's, or too few to look at, or the
buffer as a whole is still shorter than the roads they announce. -/
def Waits (consumed : Nat) (rest : Bytes) : Prop :=
  rest[0]? = some 0x81 → 4 ≤ rest.length → ∀ numroads, rest[1]? = some numroads →
    numroads.toNat ≤ 127 ∧ consumed + rest.length < 2 * numroads.toNat + 1

/-- The turn on a strict prefix of a client message. -/
theorem stops_iff_waits {next : Message} (client : next.IsClient)
    (wellFormed : next.WellFormed) (viewEq : buf.drop start = rest)
    (isPart : rest <+: next.wire) (strict : rest.length < next.wire.length)
    (bound : start + 512 < 2 ^ 16) :
    (start < buf.length → decodeTurn buf start = .ok .stop) ↔ Waits start rest := by
  have viewLength := length_of_view viewEq
  by_cases empty : rest = []
  · subst empty
    have ended : ¬ start < buf.length := by
      simp only [List.length_nil] at viewLength
      omega
    simp [Waits, ended]
  have left : 0 < rest.length := List.length_pos_iff.mpr empty
  have total := length_eq_of_view viewEq left
  have inside : start < buf.length := by omega
  have head := getElem?_of_part isPart left
  rcases next.dispatcher_or_streamed client wellFormed with ⟨roads, rfl⟩ | streamed
  · have turn := decodeTurn_partialDispatcher wellFormed viewEq isPart left strict bound
    have few : roads.length ≤ 255 := wellFormed
    simp only [inside, true_imp_iff, turn, Waits]
    constructor
    · intro waits _ four numroads lengthByte
      rw [getElem?_of_part isPart (by omega)] at lengthByte
      cases lengthByte
      rw [lengthByte_toNat few]
      omega
    · intro waits
      by_cases short : rest.length < 4
      · exact .inl short
      · have := waits head (by omega) _ (getElem?_of_part isPart (by omega))
        rw [lengthByte_toNat few] at this
        omega
  · have turn := decodeTurn_partial streamed viewEq isPart left strict bound
    refine ⟨fun _ dispatcherByte => ?_, fun _ _ => turn⟩
    rw [head, Message.wire_head] at dispatcherByte
    cases next <;> simp [Message.Streamed] at streamed <;>
      simp [Message.type, MessageType.toByte] at dispatcherByte

/-- Behind the front of the buffer, exactly the lists without a dispatcher are
read. -/
theorem reads_behind {messages : List Message} {next : Message}
    (client : ∀ message ∈ messages, message.IsClient)
    (wellFormed : ∀ message ∈ messages, message.WellFormed)
    (nextClient : next.IsClient) (nextWellFormed : next.WellFormed)
    (isPart : rest <+: next.wire) (strict : rest.length < next.wire.length)
    (behind : 0 < start) (viewEq : buf.drop start = wireAll messages ++ rest)
    (bound : start + (wireAll messages).length + 512 < 2 ^ 16) :
    Reads buf start messages ↔
      (∀ message ∈ messages, message.Streamed) ∧
        Waits (start + (wireAll messages).length) rest := by
  induction messages generalizing start with
  | nil =>
      simp only [wireAll_nil, List.nil_append] at viewEq
      simpa [Reads] using
        stops_iff_waits nextClient nextWellFormed viewEq isPart strict (by simpa using bound)
  | cons message messages ih =>
      simp only [wireAll_cons, List.append_assoc] at viewEq
      simp only [wireAll_cons, List.length_append] at bound ⊢
      have inside : start < buf.length := by
        have total := length_eq_of_view viewEq (by
          have := List.length_pos_iff.mpr message.wire_ne_nil
          simp only [List.length_append]; omega)
        have := List.length_pos_iff.mpr message.wire_ne_nil
        simp only [List.length_append] at total
        omega
      have others : buf.drop (start + message.wire.length) = wireAll messages ++ rest := by
        rw [← List.drop_drop, viewEq, List.drop_left]
      have reads := ih (fun message member => client message (by simp [member]))
        (fun message member => wellFormed message (by simp [member]))
        (by omega) others (by omega)
      rw [Reads, reads, List.forall_mem_cons, and_iff_right inside, Nat.add_assoc, and_assoc]
      apply and_congr_left'
      rcases message.dispatcher_or_streamed (client message (by simp))
        (wellFormed message (by simp)) with ⟨roads, rfl⟩ | streamed
      · have few : roads.length ≤ 255 := wellFormed (.dispatcher roads) (by simp)
        rw [decodeTurn_dispatcher few viewEq (by omega)]
        simp only [Message.Streamed, iff_false]
        omega
      · exact iff_of_true (decodeTurn_wire streamed viewEq (by omega)) streamed

/-- `decode` returns a list exactly when its first turn takes the first message, the
others are a camera's, and the rest makes the decoder wait. -/
theorem decode_cons_iff {first next : Message} {others : List Message}
    (client : ∀ message ∈ first :: others, message.IsClient)
    (wellFormed : ∀ message ∈ first :: others, message.WellFormed)
    (few : (first :: others).length ≤ 64)
    (nextClient : next.IsClient) (nextWellFormed : next.WellFormed)
    (isPart : rest <+: next.wire) (strict : rest.length < next.wire.length) :
    decode (wireAll (first :: others) ++ rest) [] =
        .ok ((wireAll (first :: others)).length, first :: others) ↔
      decodeTurn (wireAll (first :: others) ++ rest) 0 =
          .ok (.take first first.wire.length) ∧
        (∀ message ∈ others, message.Streamed) ∧
        Waits (wireAll (first :: others)).length rest := by
  have size := wireAll_length_le wellFormed
  have long := first.two_le_wire_length (client first (by simp)) (wellFormed first (by simp))
  simp only [List.length_cons] at few size
  have total : 2 ≤ (wireAll (first :: others) ++ rest).length := by
    simp only [wireAll_cons, List.length_append]
    omega
  have loop : decode (wireAll (first :: others) ++ rest) [] =
      decodeLoop (wireAll (first :: others) ++ rest) 64 0 0 [] := by
    rw [decode, if_neg (by omega), if_neg (by simp)]
  have reads : decodeLoop (wireAll (first :: others) ++ rest) 64 0 0 [] =
      .ok (0 + (wireAll (first :: others)).length, [] ++ first :: others) ↔
        Reads (wireAll (first :: others) ++ rest) 0 (first :: others) :=
    decodeLoop_eq_iff (by simpa using few) (by omega)
  have othersEq : (wireAll (first :: others) ++ rest).drop first.wire.length =
      wireAll others ++ rest := by
    rw [wireAll_cons, List.append_assoc, List.drop_left]
  have bound : first.wire.length + (wireAll others).length + 512 < 2 ^ 16 := by
    simp only [wireAll_cons, List.length_append] at size
    omega
  have behind := reads_behind
    (fun message member => client message (List.mem_cons_of_mem _ member))
    (fun message member => wellFormed message (List.mem_cons_of_mem _ member))
    nextClient nextWellFormed isPart strict (by omega) othersEq bound
  rw [Nat.zero_add, List.nil_append] at reads
  rw [loop, reads, Reads, Nat.zero_add, behind, and_iff_right (by omega), wireAll_cons,
    List.length_append]

/-- Where the decoder reads a list with a dispatcher: the dispatcher is the first
message and the only one, it names at most 126 roads, at least four bytes have
arrived, and what follows the list makes the decoder wait. -/
def FrontDispatcher (messages : List Message) (rest : Bytes) : Prop :=
  ∃ roads others, messages = .dispatcher roads :: others ∧ roads.length ≤ 126 ∧
    (∀ message ∈ others, message.Streamed) ∧
    4 ≤ (wireAll messages ++ rest).length ∧
    Waits (wireAll messages).length rest

/-- `decode` returns a list of client messages with a dispatcher among them, and
the length of their encodings, exactly on the buffers of `FrontDispatcher`. -/
theorem decode_dispatcher_iff {messages : List Message} {next : Message}
    (client : ∀ message ∈ messages, message.IsClient)
    (wellFormed : ∀ message ∈ messages, message.WellFormed)
    (few : messages.length ≤ 64)
    (dispatcher : ∃ roads, Message.dispatcher roads ∈ messages)
    (nextClient : next.IsClient) (nextWellFormed : next.WellFormed)
    (isPart : rest <+: next.wire) (strict : rest.length < next.wire.length) :
    decode (wireAll messages ++ rest) [] =
        .ok ((wireAll messages).length, messages) ↔
      FrontDispatcher messages rest := by
  obtain ⟨named, member⟩ := dispatcher
  obtain ⟨first, others, rfl⟩ := List.exists_cons_of_ne_nil (List.ne_nil_of_mem member)
  rw [decode_cons_iff client wellFormed few nextClient nextWellFormed isPart strict]
  rcases first.dispatcher_or_streamed (client first (by simp))
    (wellFormed first (by simp)) with ⟨roads, rfl⟩ | streamed
  · have roadsFew : roads.length ≤ 255 := wellFormed (.dispatcher roads) (by simp)
    have viewEq : (wireAll (.dispatcher roads :: others) ++ rest).drop 0 =
        (Message.dispatcher roads).wire ++ (wireAll others ++ rest) := by simp
    rw [decodeTurn_dispatcher roadsFew viewEq (by omega)]
    constructor
    · rintro ⟨⟨-, small, four⟩, othersStreamed, waits⟩
      exact ⟨roads, others, rfl, small, othersStreamed, four, waits⟩
    · rintro ⟨roads, others, listEq, small, othersStreamed, four, waits⟩
      cases listEq
      exact ⟨⟨rfl, small, four⟩, othersStreamed, waits⟩
  · constructor
    · -- A dispatcher further back would have to be streamed.
      rintro ⟨-, othersStreamed, -⟩
      have named : (Message.dispatcher named).Streamed := by
        rcases List.mem_cons.mp member with same | member
        · exact same ▸ streamed
        · exact othersStreamed _ member
      exact named.elim
    · rintro ⟨roads, others, listEq, -⟩
      cases listEq
      exact streamed.elim

/-- A dispatcher of two roads in front of a heartbeat request and the first byte
of a plate is read back. -/
theorem decode_dispatcher_in_front :
    decode (wireAll [.dispatcher [1, 2], .wantHeartbeat 5] ++ [0x20]) [] =
      .ok ((wireAll [.dispatcher [1, 2], .wantHeartbeat 5]).length,
        [.dispatcher [1, 2], .wantHeartbeat 5]) :=
  (decode_dispatcher_iff (by decide) (by decide) (by decide) ⟨[1, 2], by decide⟩
    (by decide) (by decide : (Message.plate ⟨[65], 0⟩).WellFormed) (by decide)
    (by decide)).mpr
    ⟨[1, 2], [.wantHeartbeat 5], rfl, by decide, by simp [Message.Streamed],
      by decide, fun dispatcherByte => by simp at dispatcherByte⟩

/-- A dispatcher behind a heartbeat request makes the decoder trap: its `msg_len`
counts from the front of the buffer. -/
theorem not_decode_every_dispatcher :
    ¬ ∀ (messages : List Message) (rest : Bytes) (next : Message),
      (∀ message ∈ messages, message.IsClient) →
      (∀ message ∈ messages, message.WellFormed) → messages.length ≤ 64 →
      (∃ roads, Message.dispatcher roads ∈ messages) →
      next.IsClient → next.WellFormed → rest <+: next.wire →
      rest.length < next.wire.length →
        decode (wireAll messages ++ rest) [] =
          .ok ((wireAll messages).length, messages) := by
  intro claimed
  have reads := claimed [.wantHeartbeat 10, .dispatcher [7]] [] (.wantHeartbeat 0)
    (by decide) (by decide) (by decide) ⟨[7], by decide⟩ (by decide) (by decide)
    (by decide) (by decide)
  have traps : decode (wireAll [.wantHeartbeat 10, .dispatcher [7]] ++ []) [] = trap := by
    decide +kernel
  rw [traps] at reads
  cases reads

end NetworkExercises.SpeedDaemon
