/-
Module: NetworkExercises.SpeedDaemon.Proofs.Boundaries
Purpose: The decoder on arbitrary bytes: nothing that it computes leaves its bounds, and it
  consumes exactly the messages that are there whole.
Main exports: Turning, decodeBody, AtBoundary, Undispatched, decodeTurn_cases, Consumed,
  decode_consumes_whole, decode_safe
-/
import NetworkExercises.Lib.Loop
import NetworkExercises.SpeedDaemon.Proofs.DecodeLoop

namespace NetworkExercises.SpeedDaemon

open Lib Checked

/-! ### The loop, one pass at a time -/

/-- The variables of the loop of `decode`; `room` counts the free slots of the array. -/
structure Turning where
  room : Nat
  start : Nat
  len : Nat
  array : List Message
deriving DecidableEq

/-- One pass through the loop of `decode`; `none` where the loop ends. -/
def decodeBody (buf : Bytes) (turning : Turning) : Checked DecodeError (Option Turning) :=
  if turning.start < buf.length then do
    match ← decodeTurn buf turning.start with
    | .stop => .ok none
    | .take message msgLen => do
        let len ← fitsIn 16 (turning.len + msgLen)
        match turning.room with
        | 0 => fail .overflow
        | room + 1 => do
            let start ← fitsIn 16 (turning.start + msgLen)
            .ok (some ⟨room, start, len, turning.array ++ [message]⟩)
  else .ok none

/-- The loop repeats its body. -/
theorem decodeLoop_looping (buf : Bytes) :
    Looping (decodeBody buf) (fun turning => (turning.len, turning.array))
      fun turning => decodeLoop buf turning.room turning.start turning.len turning.array := by
  rintro ⟨room, start, len, array⟩
  simp only [decodeBody]
  rw [decodeLoop]
  split
  · cases decodeTurn buf start with
    | error fault => rfl
    | ok turn =>
        cases turn with
        | stop => rfl
        | take message msgLen =>
            simp only [ok_bind]
            cases (fitsIn 16 (len + msgLen) : Checked DecodeError Nat) with
            | error fault => rfl
            | ok len =>
                cases room with
                | zero => rfl
                | succ room =>
                    simp only [ok_bind]
                    cases (fitsIn 16 (start + msgLen) : Checked DecodeError Nat) <;> rfl
  · rfl

/-- Every pass fills a slot of the array. -/
theorem decodeBody_room {buf : Bytes} {turning next : Turning}
    (turned : decodeBody buf turning = .ok (some next)) : next.room < turning.room := by
  unfold decodeBody at turned
  split at turned
  · obtain ⟨turn, -, turned⟩ := bind_eq_ok.mp turned
    cases turn with
    | stop => cases turned
    | take message msgLen =>
        obtain ⟨len, -, turned⟩ := bind_eq_ok.mp turned
        split at turned
        · cases turned
        next room roomEq =>
        obtain ⟨start, -, turned⟩ := bind_eq_ok.mp turned
        cases turned
        exact roomEq ▸ Nat.lt_succ_self room
  · cases turned

/-- The loop of `decode` comes to its head with these variables. -/
def AtBoundary (buf : Bytes) (array : List Message) (turning : Turning) : Prop :=
  (2 ≤ buf.length ∧ array.length = 0) ∧ Head (decodeBody buf) ⟨64, 0, 0, array⟩ turning

/-- `decode` never looks at the type byte of an `IAmDispatcher`. -/
def Undispatched (buf : Bytes) (array : List Message) : Prop :=
  ∀ turning, AtBoundary buf array turning →
    buf[turning.start]? ≠ some MessageType.iAmDispatcher.toByte

theorem undispatched_of_not_mem {buf : Bytes} (array : List Message)
    (absent : MessageType.iAmDispatcher.toByte ∉ buf) : Undispatched buf array :=
  fun _ _ found => absent (List.mem_of_getElem? found)

/-! ### One turn on arbitrary bytes -/

variable {buf view : Bytes} {start : Nat}

/-- A turn takes a message of a camera that begins at its place. -/
def Takes (buf : Bytes) (start : Nat) (turn : Checked DecodeError Turn) : Prop :=
  ∃ message : Message, message.Streamed ∧ message.wire <+: buf.drop start ∧
    turn = .ok (.take message message.wire.length)

/-- A turn stops, takes a message that begins at its place, or gives an error. -/
def Behaves (buf : Bytes) (start : Nat) (turn : Checked DecodeError Turn) : Prop :=
  turn = .ok .stop ∨ Takes buf start turn ∨ ∃ error, turn = fail error

theorem takes_of_view {message : Message} {msgLen : Nat} (viewEq : buf.drop start = view)
    (streamed : message.Streamed) (begins : message.wire = view.take msgLen)
    (whole : msgLen ≤ view.length) :
    Takes buf start (.ok (.take message msgLen)) := by
  have length : message.wire.length = msgLen := by
    rw [begins, List.length_take, Nat.min_eq_left whole]
  refine ⟨message, streamed, ?_, by rw [length]⟩
  rw [begins, viewEq]
  exact List.take_prefix _ _

theorem bigEndian_readU16 {first : Nat} (inside : first + 2 ≤ view.length) :
    bigEndian 2 (readU16 ((view.drop first).take 2)).toNat = (view.drop first).take 2 := by
  apply bigEndian_uint16
  rw [List.length_take, List.length_drop]
  omega

theorem bigEndian_readU32 {first : Nat} (inside : first + 4 ≤ view.length) :
    bigEndian 4 (readU32 ((view.drop first).take 4)).toNat = (view.drop first).take 4 := by
  apply bigEndian_uint32
  rw [List.length_take, List.length_drop]
  omega

theorem take_one_drop {index : Nat} {byte : UInt8} (found : view[index]? = some byte) :
    (view.drop index).take 1 = [byte] := by
  rw [List.take_one, List.head?_drop, found]
  rfl

theorem decodePlate_behaves (viewEq : buf.drop start = view)
    (head : view[0]? = some MessageType.plate.toByte) (bound : start + 512 < 2 ^ 16) :
    Behaves buf start (decodePlate buf start) := by
  have viewLength := length_of_view viewEq
  by_cases short : view.length < 7
  · exact .inl (if_pos (by omega))
  obtain ⟨platelen, lengthByte⟩ : ∃ platelen, view[1]? = some platelen :=
    ⟨_, List.getElem?_eq_getElem (by omega)⟩
  have atMost := platelen.toNat_lt
  by_cases zero : platelen = 0
  · subst zero
    exact .inr (.inr ⟨.emptyPlate, decodePlate_zero viewEq lengthByte (by omega) (by omega)⟩)
  rw [decodePlate_eq viewEq lengthByte zero (by omega)]
  split
  · exact .inl rfl
  next whole =>
  have positive : platelen.toNat ≠ 0 := fun none_ => zero (UInt8.toNat_inj.mp none_)
  have plateLength : ((view.drop 2).take platelen.toNat).length = platelen.toNat := by
    rw [List.length_take, List.length_drop]
    omega
  refine .inr (.inl (takes_of_view viewEq ?_ ?_ (by omega)))
  · simp only [Message.Streamed, plateLength]
    omega
  · have frame : view.take (6 + platelen.toNat) =
        view.take 1 ++ ((view.drop 1).take 1 ++ ((view.drop 2).take platelen.toNat ++
          (view.drop (2 + platelen.toNat)).take 4)) := by
      rw [show 6 + platelen.toNat = 1 + (1 + (platelen.toNat + 4)) by omega, List.take_add,
        List.take_add, List.take_add, List.drop_drop, List.drop_drop]
    have typeByte : view.take 1 = [MessageType.plate.toByte] := take_one_drop head
    rw [frame, typeByte, take_one_drop lengthByte]
    simp only [Message.wire, plateLength, UInt8.ofNat_toNat,
      bigEndian_readU32 (show 2 + platelen.toNat + 4 ≤ view.length by omega)]
    rfl

theorem decodeWantHeartbeat_behaves (viewEq : buf.drop start = view)
    (head : view[0]? = some MessageType.wantHeartbeat.toByte) (bound : start + 512 < 2 ^ 16) :
    Behaves buf start (decodeWantHeartbeat buf start) := by
  have left : 0 < view.length := (List.getElem?_eq_some_iff.mp head).1
  rw [decodeWantHeartbeat_eq viewEq left (by omega)]
  split
  · exact .inl rfl
  next whole =>
  refine .inr (.inl (takes_of_view viewEq trivial ?_ (by omega)))
  have frame : view.take 5 = view.take 1 ++ (view.drop 1).take 4 := by
    rw [show 5 = 1 + 4 by rfl, List.take_add]
  have typeByte : view.take 1 = [MessageType.wantHeartbeat.toByte] := take_one_drop head
  rw [frame, typeByte]
  simp only [Message.wire, bigEndian_readU32 (show 1 + 4 ≤ view.length by omega)]
  rfl

theorem decodeIAmCamera_behaves (viewEq : buf.drop start = view)
    (head : view[0]? = some MessageType.iAmCamera.toByte) (bound : start + 512 < 2 ^ 16) :
    Behaves buf start (decodeIAmCamera buf start) := by
  have left : 0 < view.length := (List.getElem?_eq_some_iff.mp head).1
  rw [decodeIAmCamera_eq viewEq left (by omega)]
  split
  · exact .inl rfl
  next whole =>
  refine .inr (.inl (takes_of_view viewEq trivial ?_ (by omega)))
  have frame : view.take 7 = view.take 1 ++ ((view.drop 1).take 2 ++ ((view.drop 3).take 2 ++
      (view.drop 5).take 2)) := by
    rw [show 7 = 1 + (2 + (2 + 2)) by rfl, List.take_add, List.take_add, List.take_add,
      List.drop_drop, List.drop_drop]
  have typeByte : view.take 1 = [MessageType.iAmCamera.toByte] := take_one_drop head
  rw [frame, typeByte]
  simp only [Message.wire, bigEndian_readU16 (show 1 + 2 ≤ view.length by omega),
    bigEndian_readU16 (show 3 + 2 ≤ view.length by omega),
    bigEndian_readU16 (show 5 + 2 ≤ view.length by omega)]
  rfl

/-- A byte that names a type is the byte of that type. -/
theorem MessageType.toByte_of_ofByte {byte : UInt8} {type : MessageType}
    (named : MessageType.ofByte byte = some type) : byte = type.toByte := by
  unfold MessageType.ofByte at named
  repeat' split at named
  all_goals cases named
  all_goals assumption

/-- A turn that begins with no dispatcher stays within the buffer and its 16 bits. -/
theorem decodeTurn_behaves (inside : start < buf.length) (bound : start + 512 < 2 ^ 16)
    (undispatched : buf[start]? ≠ some MessageType.iAmDispatcher.toByte) :
    Behaves buf start (decodeTurn buf start) := by
  obtain ⟨mtype, found⟩ : ∃ mtype, buf[start]? = some mtype :=
    ⟨_, List.getElem?_eq_getElem inside⟩
  have head : (buf.drop start)[0]? = some mtype := by rw [List.getElem?_drop, Nat.add_zero, found]
  rw [decodeTurn, byteAt_of_getElem? found, ok_bind]
  cases named : MessageType.ofByte mtype with
  | none => exact .inr (.inr ⟨.invalidMessageType, rfl⟩)
  | some type =>
      obtain rfl := MessageType.toByte_of_ofByte named
      cases type with
      | errorM | heartbeat | ticket => exact .inr (.inr ⟨.unexpectedMessage, rfl⟩)
      | plate => exact decodePlate_behaves rfl head bound
      | wantHeartbeat => exact decodeWantHeartbeat_behaves rfl head bound
      | iAmCamera => exact decodeIAmCamera_behaves rfl head bound
      | iAmDispatcher => exact absurd found undispatched

/-! ### What holds at a boundary -/

/-- At the head of the loop the messages in the array are what has been consumed. -/
structure Consumed (buf : Bytes) (turning : Turning) : Prop where
  same : turning.len = turning.start
  inside : turning.start ≤ buf.length
  slots : turning.array.length + turning.room = 64
  streamed : ∀ message ∈ turning.array, message.Streamed
  wires : wireAll turning.array = buf.take turning.start

theorem consumed_enter (buf : Bytes) : Consumed buf ⟨64, 0, 0, []⟩ where
  same := rfl
  inside := Nat.zero_le _
  slots := rfl
  streamed := nofun
  wires := rfl

/-- The offsets stay far below 65536, because the array holds 64 messages. -/
theorem Consumed.bound {turning : Turning} (consumed : Consumed buf turning) :
    turning.start + 512 < 2 ^ 16 := by
  have size := wireAll_length_le fun message member =>
    (consumed.streamed message member).wellFormed
  have slots := consumed.slots
  rw [consumed.wires, List.length_take, Nat.min_eq_left consumed.inside] at size
  omega

/-- A pass that begins with no dispatcher does not trap; it ends the loop where no whole
message begins, or goes on behind the message that begins here. -/
inductive Passes (buf : Bytes) (turning : Turning) : Prop where
  | ends (ended : decodeBody buf turning = .ok none)
      (noneWhole : ∀ message : Message, message.Streamed →
        ¬ message.wire <+: buf.drop turning.start)
  | goesOn (next : Turning) (turned : decodeBody buf turning = .ok (some next))
      (onward : turning.start < next.start) (consumed : Consumed buf next)
  | fails (error : DecodeError) (failed : decodeBody buf turning = fail error)

/-- Behind the last message that was consumed begins the next one. -/
theorem wireAll_concat_take {messages : List Message} {message : Message}
    (wires : wireAll messages = buf.take start) (begins : message.wire <+: buf.drop start) :
    wireAll (messages ++ [message]) = buf.take (start + message.wire.length) := by
  have here : message.wire = (buf.drop start).take message.wire.length :=
    List.prefix_iff_eq_take.mp begins
  rw [wireAll_append, wires, List.take_add, ← here, wireAll_cons, wireAll_nil, List.append_nil]

theorem Consumed.passes {turning : Turning} (consumed : Consumed buf turning)
    (undispatched : buf[turning.start]? ≠ some MessageType.iAmDispatcher.toByte) :
    Passes buf turning := by
  obtain ⟨room, start, len, array⟩ := turning
  obtain rfl : start = len := consumed.same.symm
  have bound := consumed.bound
  simp only at bound undispatched
  by_cases inside : start < buf.length
  swap
  · refine .ends (if_neg inside) fun message streamed begins => ?_
    have long := streamed.two_le_wire_length
    have short := begins.length_le
    rw [List.length_drop] at short
    simp only at short
    omega
  rcases decodeTurn_behaves inside bound undispatched with
    stops | ⟨message, streamed, begins, takes⟩ | ⟨error, failed⟩
  · refine .ends ?_ fun message streamed begins => ?_
    · rw [decodeBody, if_pos inside, stops]
      rfl
    · -- A whole message would have been taken.
      obtain ⟨after, viewEq⟩ := begins
      have takes := decodeTurn_wire streamed viewEq.symm bound
      rw [stops] at takes
      cases takes
  · have short := Message.wire_length_le streamed.wellFormed
    have long := streamed.two_le_wire_length
    have ending := begins.length_le
    rw [List.length_drop] at ending
    have slots := consumed.slots
    simp only at slots ending
    cases room with
    | zero =>
        refine .fails .overflow ?_
        simp only [decodeBody, if_pos inside, takes, ok_bind]
        rw [fitsIn_of_lt (by omega), ok_bind]
    | succ room =>
        refine .goesOn ⟨room, start + message.wire.length, start + message.wire.length,
          array ++ [message]⟩ ?_ ?_ ⟨rfl, ?_, ?_, ?_, ?_⟩
        · simp only [decodeBody, if_pos inside, takes, ok_bind]
          rw [fitsIn_of_lt (by omega), ok_bind, ok_bind]
        · simp only
          omega
        · simp only
          omega
        · simp only [List.length_append, List.length_singleton]
          omega
        · intro other member
          rcases List.mem_append.mp member with old | new
          · exact consumed.streamed other old
          · exact List.mem_singleton.mp new ▸ streamed
        · exact wireAll_concat_take consumed.wires begins
  · refine .fails error ?_
    rw [decodeBody, if_pos inside, failed]
    rfl

/-- At every boundary the messages so far are what has been consumed. -/
theorem AtBoundary.consumed {turning : Turning} {array : List Message}
    (undispatched : Undispatched buf array) (reached : AtBoundary buf array turning) :
    Consumed buf turning := by
  obtain ⟨entered, reached⟩ := reached
  obtain rfl := List.eq_nil_of_length_eq_zero entered.2
  induction reached with
  | enter => exact consumed_enter buf
  | again reached turned ih =>
      cases ih.passes (undispatched _ ⟨entered, reached⟩) with
      | ends ended noneWhole =>
          rw [turned] at ended
          cases ended
      | goesOn next onward _ consumed =>
          rw [turned, Except.ok.injEq, Option.some.injEq] at onward
          exact onward ▸ consumed
      | fails error failed =>
          rw [turned] at failed
          cases failed

/-- What a buffer leads to, when no dispatcher is met: the variables at the last boundary,
or an error. -/
theorem decode_ends (long : 2 ≤ buf.length) (undispatched : Undispatched buf []) :
    (∃ last, AtBoundary buf [] last ∧ decodeBody buf last = .ok none ∧
      decode buf [] = .ok (last.len, last.array)) ∨ ∃ error, decode buf [] = fail error := by
  have loop : decode buf [] = decodeLoop buf 64 0 0 [] := by
    rw [decode, if_neg (by omega), if_neg (by simp)]
  obtain ⟨last, reached, ended⟩ := (decodeLoop_looping buf).ends Turning.room
    (fun _ _ => decodeBody_room) ⟨64, 0, 0, []⟩
  have boundary : AtBoundary buf [] last := ⟨⟨long, rfl⟩, reached⟩
  rw [loop]
  rcases ended with ⟨ended, result⟩ | ⟨fault, faulty, result⟩
  · exact .inl ⟨last, boundary, ended, result⟩
  · cases (boundary.consumed undispatched).passes (undispatched last boundary) with
    | ends ended noneWhole =>
        rw [faulty] at ended
        cases ended
    | goesOn next onward _ consumed =>
        rw [faulty] at onward
        cases onward
    | fails error failed =>
        rw [faulty] at failed
        cases failed
        exact .inr ⟨error, result⟩

/-! ### What is consumed -/

/-- Without a dispatcher `decode` consumes the encodings of the messages that it returns,
and no whole message begins behind them. -/
theorem decode_consumes_whole {len : Nat} {messages : List Message} (long : 2 ≤ buf.length)
    (undispatched : Undispatched buf []) (done : decode buf [] = .ok (len, messages)) :
    wireAll messages = buf.take len ∧ len ≤ buf.length ∧
      ∀ message : Message, message.Streamed → ¬ message.wire <+: buf.drop len := by
  rcases decode_ends long undispatched with ⟨last, boundary, ended, result⟩ | ⟨error, failed⟩
  · rw [done, Except.ok.injEq, Prod.mk.injEq] at result
    obtain ⟨rfl, rfl⟩ := result
    have consumed := boundary.consumed undispatched
    rw [consumed.same]
    refine ⟨consumed.wires, consumed.inside, ?_⟩
    cases consumed.passes (undispatched last boundary) with
    | ends _ noneWhole => exact noneWhole
    | goesOn next onward _ _ =>
        rw [ended] at onward
        cases onward
    | fails error failed =>
        rw [ended] at failed
        cases failed
  · rw [done] at failed
    cases failed

/-- A heartbeat request, a plate, and a plate that is cut. -/
def cutPlate : Bytes :=
  [0x40, 0, 0, 0, 10, 0x20, 1, 65, 0, 0, 0, 9, 0x20, 2, 65]

theorem decode_consumes_whole_cutPlate :
    wireAll [.wantHeartbeat 10, .plate ⟨[65], 9⟩] = cutPlate.take 12 ∧ 12 ≤ cutPlate.length ∧
      ∀ message : Message, message.Streamed → ¬ message.wire <+: cutPlate.drop 12 :=
  decode_consumes_whole (by decide) (undispatched_of_not_mem [] (by decide)) (by decide +kernel)

/-! ### Safety -/

/-- Whatever the buffer holds, without a dispatcher `decode` does not trap: at every boundary
the count is the offset, the offset lies in the buffer, the next pass stays in its bounds and
goes onward; and it ends with a count of at most the whole buffer, or with an error. -/
theorem decode_safe {array : List Message} (undispatched : Undispatched buf array) :
    (∀ turning, AtBoundary buf array turning →
      turning.len = turning.start ∧ turning.start ≤ buf.length ∧
        turning.array.length ≤ 64 ∧ decodeBody buf turning ≠ trap ∧
        ∀ next, decodeBody buf turning = .ok (some next) →
          turning.start < next.start ∧ next.room < turning.room) ∧
      ((∃ len messages, decode buf array = .ok (len, messages) ∧ len ≤ buf.length) ∨
        ∃ error, decode buf array = fail error) := by
  constructor
  · intro turning boundary
    have consumed := boundary.consumed undispatched
    have slots := consumed.slots
    refine ⟨consumed.same, consumed.inside, by omega, ?_⟩
    cases consumed.passes (undispatched turning boundary) with
    | ends ended _ =>
        rw [ended]
        exact ⟨nofun, nofun⟩
    | goesOn next turned onward _ =>
        refine ⟨by rw [turned]; nofun, fun other otherTurned => ⟨?_, decodeBody_room otherTurned⟩⟩
        rw [turned, Except.ok.injEq, Option.some.injEq] at otherTurned
        exact otherTurned ▸ onward
    | fails error failed =>
        rw [failed]
        exact ⟨nofun, nofun⟩
  · by_cases short : buf.length < 2
    · exact .inl ⟨0, array, if_pos short, Nat.zero_le _⟩
    by_cases occupied : array.length ≠ 0
    · refine .inl ⟨0, array, ?_, Nat.zero_le _⟩
      rw [decode, if_neg short, if_pos occupied]
    obtain rfl := List.eq_nil_of_length_eq_zero (not_not.mp occupied)
    rcases decode_ends (Nat.not_lt.mp short) undispatched with
      ⟨last, boundary, -, result⟩ | failed
    · have consumed := boundary.consumed undispatched
      exact .inl ⟨last.len, last.array, result, consumed.same ▸ consumed.inside⟩
    · exact .inr failed

theorem decode_safe_cutPlate :
    (∃ len messages, decode cutPlate [] = .ok (len, messages) ∧ len ≤ cutPlate.length) ∨
      ∃ error, decode cutPlate [] = fail error :=
  (decode_safe (undispatched_of_not_mem [] (by decide))).2

end NetworkExercises.SpeedDaemon
