/-
Module: NetworkExercises.SpeedDaemon.Proofs.Batches
Purpose: What an event does with the whole messages at the front of its bytes when the bytes
  behind them cannot be decoded, and exactly which bytes these are.
Main exports: Legible, decode_isOk_iff, decode_front, ActsFirst, acts_first_iff
-/
import NetworkExercises.SpeedDaemon.Proofs.Boundaries
import NetworkExercises.SpeedDaemon.Proofs.Stream
import NetworkExercises.SpeedDaemon.Proofs.Automaton
import NetworkExercises.SpeedDaemon.Proofs.Registry

namespace NetworkExercises.SpeedDaemon

open Lib Checked

/-! ### Bytes that can be decoded -/

/-- The bytes at a boundary let the decoder go on or wait: they begin with the type of a client
message, a plate has a length, a dispatcher's roads fit the 8 bits and the place that the decoder
computes with, and a message that is there whole finds a free slot. -/
def Legible (buf : Bytes) (turning : Turning) : Prop :=
  match buf.drop turning.start with
  | [] => True
  | mtype :: body =>
      let count := (body.headD 0).toNat
      match MessageType.ofByte mtype with
      | some .plate =>
          body.length < 6 ∨ (count ≠ 0 ∧ (body.length < 5 + count ∨ 0 < turning.room))
      | some .wantHeartbeat => body.length < 4 ∨ 0 < turning.room
      | some .iAmCamera => body.length < 6 ∨ 0 < turning.room
      | some .iAmDispatcher =>
          body.length < 3 ∨ (count ≤ 127 ∧ buf.length < 2 * count + 1) ∨
            (count ≤ 126 ∧ turning.start ≤ 2 * count + 2 ∧ 2 * count + 1 ≤ body.length ∧
              0 < turning.room)
      | _ => False

/-- `decode` finds legible bytes at every boundary. -/
def AllLegible (buf : Bytes) : Prop :=
  ∀ turning, AtBoundary buf [] turning → Legible buf turning

variable {buf view : Bytes} {start : Nat}

/-- The turn stops, or takes a message into a free slot. -/
def GoesOn (room : Nat) (turn : Checked DecodeError Turn) : Prop :=
  turn = .ok .stop ∨ (0 < room ∧ ∃ message msgLen, turn = .ok (.take message msgLen))

@[simp] theorem goesOn_stop (room : Nat) : GoesOn room (.ok .stop) := .inl rfl

@[simp] theorem goesOn_take (room : Nat) (message : Message) (msgLen : Nat) :
    GoesOn room (.ok (.take message msgLen)) ↔ 0 < room := by
  simp [GoesOn]

@[simp] theorem not_goesOn_fail (room : Nat) (error : DecodeError) :
    ¬ GoesOn room (fail error) := by
  rintro (stops | ⟨-, message, msgLen, takes⟩)
  · cases stops
  · cases takes

@[simp] theorem not_goesOn_trap (room : Nat) : ¬ GoesOn room trap := by
  rintro (stops | ⟨-, message, msgLen, takes⟩)
  · cases stops
  · cases takes

theorem decodePlate_goesOn {mtype : UInt8} {body : Bytes} (room : Nat)
    (viewEq : buf.drop start = mtype :: body) (bound : start + 512 < 2 ^ 16) :
    GoesOn room (decodePlate buf start) ↔
      body.length < 6 ∨ ((body.headD 0).toNat ≠ 0 ∧
        (body.length < 5 + (body.headD 0).toNat ∨ 0 < room)) := by
  have viewLength := length_of_view viewEq
  rw [List.length_cons] at viewLength
  by_cases short : body.length < 6
  · rw [decodePlate, if_pos (by omega)]
    simp [short]
  cases body with
  | nil => simp at short
  | cons platelen body =>
      have atMost := platelen.toNat_lt
      have lengthByte : (mtype :: platelen :: body)[1]? = some platelen := rfl
      rw [List.headD_cons]
      by_cases zero : platelen = 0
      · subst zero
        have long : 7 ≤ ((mtype :: 0 :: body : Bytes)).length := by
          rw [List.length_cons]
          omega
        rw [decodePlate_zero viewEq lengthByte long (by omega)]
        simp only [not_goesOn_fail, false_iff, UInt8.toNat_zero]
        omega
      · have nonzero : platelen.toNat ≠ 0 := fun none_ => zero (UInt8.toNat_inj.mp none_)
        rw [decodePlate_eq viewEq lengthByte zero (by omega)]
        simp only [List.length_cons] at short ⊢
        split
        · next cut => simp [nonzero, show body.length + 1 < 5 + platelen.toNat by omega]
        · next whole =>
          simp [nonzero, short, show ¬ body.length + 1 < 5 + platelen.toNat by omega]

theorem decodeWantHeartbeat_goesOn {mtype : UInt8} {body : Bytes} (room : Nat)
    (viewEq : buf.drop start = mtype :: body) (bound : start + 512 < 2 ^ 16) :
    GoesOn room (decodeWantHeartbeat buf start) ↔ body.length < 4 ∨ 0 < room := by
  rw [decodeWantHeartbeat_eq viewEq (by simp) (by omega), List.length_cons]
  split
  · next cut => simp [show body.length < 4 by omega]
  · next whole => simp [show ¬ body.length < 4 by omega]

theorem decodeIAmCamera_goesOn {mtype : UInt8} {body : Bytes} (room : Nat)
    (viewEq : buf.drop start = mtype :: body) (bound : start + 512 < 2 ^ 16) :
    GoesOn room (decodeIAmCamera buf start) ↔ body.length < 6 ∨ 0 < room := by
  rw [decodeIAmCamera_eq viewEq (by simp) (by omega), List.length_cons]
  split
  · next cut => simp [show body.length < 6 by omega]
  · next whole => simp [show ¬ body.length < 6 by omega]

/-- Roads that lie within the buffer are read. -/
theorem readRoads_long {remaining : Nat} (long : start + 2 * remaining ≤ buf.length)
    (bound : start + 2 * remaining < 2 ^ 16) :
    ∃ roads, readRoads buf remaining start = .ok roads := by
  induction remaining generalizing start with
  | zero => exact ⟨[], rfl⟩
  | succ remaining ih =>
      obtain ⟨others, read⟩ := @ih (start + 2) (by omega) (by omega)
      refine ⟨readU16 ((buf.drop start).take 2) :: others, ?_⟩
      rw [readRoads, fitsIn_of_lt (by omega), ok_bind, slice_width (by omega), ok_bind, read,
        ok_bind]

theorem decodeIAmDispatcher_goesOn {mtype : UInt8} {body : Bytes} (room : Nat)
    (viewEq : buf.drop start = mtype :: body) (bound : start + 512 < 2 ^ 16) :
    GoesOn room (decodeIAmDispatcher buf start) ↔
      body.length < 3 ∨
        ((body.headD 0).toNat ≤ 127 ∧ buf.length < 2 * (body.headD 0).toNat + 1) ∨
        ((body.headD 0).toNat ≤ 126 ∧ start ≤ 2 * (body.headD 0).toNat + 2 ∧
          2 * (body.headD 0).toNat + 1 ≤ body.length ∧ 0 < room) := by
  have viewLength := length_of_view viewEq
  rw [List.length_cons] at viewLength
  by_cases short : body.length < 3
  · rw [decodeIAmDispatcher, if_pos (by omega)]
    simp [short]
  cases body with
  | nil => simp at short
  | cons numroads body =>
      have atMost := numroads.toNat_lt
      have lengthByte : (mtype :: numroads :: body)[1]? = some numroads := rfl
      rw [decodeIAmDispatcher_eq viewEq lengthByte bound, List.headD_cons]
      simp only [List.length_cons] at short viewLength ⊢
      rw [if_neg (by omega)]
      by_cases large : 127 < numroads.toNat
      · rw [if_pos large]
        simp only [not_goesOn_trap, false_iff]
        omega
      rw [if_neg large]
      by_cases waits : buf.length < 2 * numroads.toNat + 1
      · rw [if_pos waits]
        simp [waits, Nat.not_lt.mp large]
      rw [if_neg waits]
      by_cases cut : buf.length < start + 2 + 2 * numroads.toNat
      · rw [readRoads_short (by omega) cut (by omega), trap_bind]
        simp only [not_goesOn_trap, false_iff]
        omega
      obtain ⟨roads, read⟩ := @readRoads_long buf (start + 2) numroads.toNat (by omega) (by omega)
      rw [read, ok_bind]
      split
      · simp only [not_goesOn_trap, false_iff]
        omega
      · rw [goesOn_take]
        omega

/-! ### When the whole buffer is decoded -/

/-- At every boundary the count is the offset, which the slots in use bound. -/
def Turning.Bounded (turning : Turning) : Prop :=
  turning.len = turning.start ∧ turning.start + 512 * turning.room ≤ 512 * 64

theorem Turning.Bounded.offset {turning : Turning} (bounded : turning.Bounded) :
    turning.start + 512 < 2 ^ 16 := by
  have := bounded.2
  omega

/-- A pass that has no fault stops, or takes a message into a free slot. -/
theorem decodeBody_isOk_iff {turning : Turning} (bounded : turning.Bounded) :
    (∀ fault, decodeBody buf turning ≠ .error fault) ↔
      (turning.start < buf.length → GoesOn turning.room (decodeTurn buf turning.start)) := by
  have small := bounded.offset
  obtain ⟨room, start, len, array⟩ := turning
  obtain rfl : start = len := bounded.1.symm
  simp only at small
  by_cases inside : start < buf.length
  swap
  · have ended : decodeBody buf ⟨room, start, start, array⟩ = .ok none := if_neg inside
    simp [ended, inside]
  simp only [inside, forall_const]
  cases turned : decodeTurn buf start with
  | error fault =>
      have faulty : decodeBody buf ⟨room, start, start, array⟩ = .error fault := by
        rw [decodeBody, if_pos inside, turned]
        rfl
      rw [faulty]
      cases fault <;> simp [GoesOn]
  | ok turn =>
      cases turn with
      | stop =>
          have ended : decodeBody buf ⟨room, start, start, array⟩ = .ok none := by
            rw [decodeBody, if_pos inside, turned]
            rfl
          simp [ended]
      | take message msgLen =>
          obtain ⟨⟨-, wellFormed⟩, advance⟩ := decodeTurn_take turned
          have short := Message.wire_length_le wellFormed
          rw [goesOn_take]
          simp only [decodeBody, if_pos inside, turned, ok_bind]
          rw [fitsIn_of_lt (by omega), ok_bind]
          cases room with
          | zero => simp [fail]
          | succ room => simp

theorem AtBoundary.bounded {turning : Turning} (reached : AtBoundary buf [] turning) :
    turning.Bounded := by
  refine reached.2.preserves Turning.Bounded ?_ ⟨rfl, le_rfl⟩
  rintro ⟨room, start, len, array⟩ next ⟨same, bound⟩ turned
  obtain rfl : start = len := same.symm
  simp only [decodeBody] at turned bound
  split at turned
  · obtain ⟨turn, turnEq, turned⟩ := bind_eq_ok.mp turned
    cases turn with
    | stop => cases turned
    | take message msgLen =>
        obtain ⟨⟨-, wellFormed⟩, advance⟩ := decodeTurn_take turnEq
        have short := Message.wire_length_le wellFormed
        obtain ⟨len, lenEq, turned⟩ := bind_eq_ok.mp turned
        cases room with
        | zero => cases turned
        | succ room =>
            obtain ⟨onward, onwardEq, turned⟩ := bind_eq_ok.mp turned
            cases turned
            rw [fitsIn_eq_ok] at lenEq onwardEq
            refine ⟨lenEq.2.symm.trans onwardEq.2, ?_⟩
            simp only
            omega
  · cases turned

/-- The turn at a boundary goes on exactly when the bytes there are legible. -/
theorem legible_iff {turning : Turning} (bound : turning.start + 512 < 2 ^ 16) :
    (turning.start < buf.length → GoesOn turning.room (decodeTurn buf turning.start)) ↔
      Legible buf turning := by
  unfold Legible
  split
  · next ended =>
    have viewLength := length_of_view ended
    rw [List.length_nil] at viewLength
    simp only [iff_true]
    intro inside
    omega
  · next mtype body viewEq =>
    have inside : turning.start < buf.length := by
      have viewLength := length_of_view viewEq
      rw [List.length_cons] at viewLength
      omega
    have found : buf[turning.start]? = some mtype := by
      have head : (buf.drop turning.start)[0]? = some mtype := by rw [viewEq]; rfl
      rwa [List.getElem?_drop, Nat.add_zero] at head
    simp only [inside, forall_const]
    rw [decodeTurn, byteAt_of_getElem? found, ok_bind]
    cases MessageType.ofByte mtype with
    | none => simp
    | some type =>
        cases type with
        | errorM | heartbeat | ticket => simp [decodeProng]
        | plate => exact decodePlate_goesOn _ viewEq bound
        | wantHeartbeat => exact decodeWantHeartbeat_goesOn _ viewEq bound
        | iAmCamera => exact decodeIAmCamera_goesOn _ viewEq bound
        | iAmDispatcher => exact decodeIAmDispatcher_goesOn _ viewEq bound

/-- `decode` returns without an error exactly when it finds legible bytes at every boundary. -/
theorem decode_isOk_iff (long : 2 ≤ buf.length) :
    (∃ result, decode buf [] = .ok result) ↔ AllLegible buf := by
  have loop : decode buf [] = decodeLoop buf 64 0 0 [] := by
    rw [decode, if_neg (by omega), if_neg (by simp)]
  have whole := (decodeLoop_looping buf).isOk_iff Turning.room (fun _ _ => decodeBody_room)
    ⟨64, 0, 0, []⟩
  rw [loop]
  refine whole.trans ⟨?_, ?_⟩
  · intro faultless turning boundary
    rw [← legible_iff boundary.bounded.offset, ← decodeBody_isOk_iff boundary.bounded]
    exact faultless turning boundary.2
  · intro legible turning reached
    have boundary : AtBoundary buf [] turning := ⟨⟨long, rfl⟩, reached⟩
    rw [decodeBody_isOk_iff boundary.bounded, legible_iff boundary.bounded.offset]
    exact legible turning boundary

/-! ### The messages at the front -/

/-- A count that is returned is not before the place the loop began at. -/
theorem decodeLoop_le {room len : Nat} {array result : List Message}
    (done : decodeLoop buf room start start array = .ok (len, result)) : start ≤ len := by
  induction room generalizing start array with
  | zero =>
      rcases decodeLoop_cases done with ⟨rfl, -, -⟩ | ⟨_, _, _, -, -, full, -⟩
      · exact le_rfl
      · cases full
  | succ room ih =>
      rcases decodeLoop_cases done with ⟨rfl, -, -⟩ | ⟨_, msgLen, _, -, -, roomEq, rest⟩
      · exact le_rfl
      · cases roomEq
        exact (Nat.le_add_right start msgLen).trans (ih rest)

/-- A loop that returns has taken every whole message at the front. -/
theorem decodeLoop_front {front array result : List Message} {rest : Bytes} {room len : Nat}
    (streamed : ∀ message ∈ front, message.Streamed)
    (viewEq : buf.drop start = wireAll front ++ rest)
    (bound : start + 512 * room + 512 < 2 ^ 16)
    (done : decodeLoop buf room start start array = .ok (len, result)) :
    ∃ others, result = array ++ (front ++ others) ∧ front.length ≤ room ∧
      start + (wireAll front).length ≤ len := by
  induction front generalizing room start array with
  | nil =>
      obtain ⟨taken, grown, -⟩ := decodeLoop_grows done
      exact ⟨taken, grown, Nat.zero_le _, decodeLoop_le done⟩
  | cons message front ih =>
      obtain ⟨first, others⟩ := List.forall_mem_cons.mp streamed
      rw [wireAll_cons, List.append_assoc] at viewEq
      have takes := decodeTurn_wire first viewEq (by omega)
      have long := first.two_le_wire_length
      have short := Message.wire_length_le first.wellFormed
      rcases decodeLoop_cases done with ⟨-, -, stops⟩ | ⟨other, msgLen, less, -, turn, rfl, done⟩
      · have total := length_eq_of_view viewEq (by rw [List.length_append]; omega)
        have inside : start < buf.length := by
          rw [List.length_append] at total
          omega
        rw [stops inside] at takes
        cases takes
      · rw [takes] at turn
        cases turn
        have viewLater : buf.drop (start + message.wire.length) = wireAll front ++ rest := by
          rw [← List.drop_drop, viewEq, List.drop_left]
        obtain ⟨more, grown, few, advance⟩ := ih others viewLater (by omega) done
        refine ⟨more, by simp [grown], by simpa using few, ?_⟩
        rw [wireAll_cons, List.length_append]
        omega

/-- When `decode` returns, the whole messages at the front are in the array, and there are at
most 64 of them. -/
theorem decode_front {front messages : List Message} {rest : Bytes} {len : Nat}
    (nonempty : front ≠ []) (streamed : ∀ message ∈ front, message.Streamed)
    (done : decode (wireAll front ++ rest) [] = .ok (len, messages)) :
    ∃ others, messages = front ++ others ∧ front.length ≤ 64 ∧ 0 < len := by
  obtain ⟨first, later, rfl⟩ := List.exists_cons_of_ne_nil nonempty
  have long := (streamed first (by simp)).two_le_wire_length
  rw [decode, if_neg (by rw [wireAll_cons, List.length_append, List.length_append]; omega),
    if_neg (by simp)] at done
  obtain ⟨others, grown, few, advance⟩ := decodeLoop_front streamed rfl (by omega) done
  refine ⟨others, grown, few, ?_⟩
  rw [wireAll_cons, List.length_append] at advance
  omega

/-! ### Handling does not look at the fifo -/

section Handler

variable {F : Type} [F64 F] {session : Session} {calls : Calls} {fifo : Option Bytes}

theorem Session.dispatch_refill (session : Session) (fifo : Option Bytes)
    (sends : Nat → Sending) :
    (session.refill fifo).dispatch sends = (session.dispatch sends).map (·.refill fifo) := by
  simp only [Session.dispatch, Session.refill]
  cases dispatchTicketsQueue session.world.roads sends
    ⟨session.world.tickets, session.buf, session.world.net⟩ <;> rfl

/-- A message is handled alike whatever the fifo of the client holds. -/
theorem handleMessage_refill (calls : Calls) (msg : Message) (session : Session)
    (fifo : Option Bytes) :
    handleMessage F calls msg (session.refill fifo) =
      (handleMessage F calls msg session).map (·.refill fifo) := by
  cases msg with
  | heartbeat | errorM | ticket => rfl
  | camera position =>
      have sameType : (session.refill fifo).client.type = session.client.type := rfl
      simp only [handleMessage, handleIAmCamera, Client.setAsCamera, sameType]
      split <;> rfl
  | dispatcher roads =>
      have sameType : (session.refill fifo).client.type = session.client.type := rfl
      simp only [handleMessage, handleIAmDispatcher, Client.setAsDispatcher, sameType]
      split
      · rfl
      · exact Session.dispatch_refill (session.asDispatcher roads) fifo calls.sends
  | wantHeartbeat interval =>
      obtain ⟨world, timers, ⟨fd, held, timer, requested, data⟩, buf⟩ := session
      simp only [handleMessage, handleWantHeartbeat, Client.addTimer, Session.refill]
      by_cases asked : requested = true ∨ timer.isSome = true
      · simp only [asked, if_true, Outcome.map_raised]
      obtain ⟨notRequested, noTimer⟩ := not_or.mp asked
      by_cases zero : interval.toNat = 0
      · simp only [asked, zero, if_true, if_false, Outcome.map_done]
      simp only [zero, notRequested, noTimer, if_false]
      cases calls.timerfd with
      | error errorName => rfl
      | ok timerfd => cases calls.epollAdd <;> rfl
  | plate seen =>
      obtain ⟨world, timers, ⟨fd, held, timer, requested, data⟩, buf⟩ := session
      simp only [handleMessage, handlePlate, Session.refill]
      cases data with
      | unidentified | dispatcher => rfl
      | camera camera =>
          cases observed : observe F world.cars world.tickets seen camera with
          | error fault => cases fault <;> simp [observed]
          | ok result =>
              obtain ⟨cars, tickets, ntickets⟩ := result
              simp only [observed]
              by_cases issued : ntickets > 0
              · simp only [issued, if_true]
                exact Session.dispatch_refill ⟨{ world with cars := cars, tickets := tickets },
                  timers, ⟨fd, held, timer, requested, .camera camera⟩, buf⟩ fifo calls.sends
              · simp only [issued, if_false, Outcome.map_done]

theorem handleLoop_refill (calls : Nat → Calls) (i : Nat) (msgs : List Message)
    (session : Session) (fifo : Option Bytes) :
    handleLoop F calls i msgs (session.refill fifo) =
      (handleLoop F calls i msgs session).map (·.refill fifo) := by
  induction msgs generalizing i session with
  | nil => rfl
  | cons msg msgs ih =>
      rw [handleLoop, handleLoop, handleMessage_refill]
      cases handleMessage F (calls i) msg session with
      | done middle => exact ih (i + 1) middle
      | raised error middle => rfl
      | trap => rfl

theorem handleLoop_append (calls : Nat → Calls) (i : Nat) (front back : List Message)
    (session : Session) :
    handleLoop F calls i (front ++ back) session =
      (handleLoop F calls i front session).andThen
        (handleLoop F calls (i + front.length) back) := by
  induction front generalizing i session with
  | nil => rfl
  | cons msg front ih =>
      rw [List.cons_append, handleLoop, handleLoop, List.length_cons, Nat.add_comm front.length,
        ← Nat.add_assoc]
      cases handleMessage F (calls i) msg session with
      | done middle => exact ih (i + 1) middle
      | raised error middle => rfl
      | trap => rfl

/-! ### One event -/

/-- The event reads without an error, and then the fifo of the client holds `buf`. -/
structure Brings (session : Session) (arrival : Arrival) (buf : Bytes) : Prop where
  ending : arrival.ending = .wouldBlock
  something : arrival.chunks ≠ []
  held : ∃ fifo, session.client.fifo = some fifo ∧ fifo ++ arrival.bytes = buf

/-- An event as it leaves everything but the fifo. -/
def bare (outcome : Outcome ServerError Session) : Outcome ServerError Session :=
  outcome.map (·.refill none)

/-- Go on, or end with an error. -/
def failing (failure : Option ServerError) (session : Session) : Outcome ServerError Session :=
  match failure with
  | none => .done session
  | some error => .raised error session

/-- The event acts on the messages as an event of their own does; then it may act on others,
and only then an error of its own may end it. -/
def ActsFirst (F : Type) [F64 F] (calls : Nat → Calls) (session : Session) (arrival : Arrival)
    (messages : List Message) : Prop :=
  ∀ own, Brings (session.refill (some [])) own (wireAll messages) →
    ∃ others failure, bare (handleMessages F arrival calls session) =
      ((bare (handleMessages F own calls (session.refill (some [])))).andThen
        (handleLoop F calls messages.length others)).andThen (failing failure)

/-- The event acts on nothing: the program stops, or an error leaves all but the fifo alone. -/
def ActsOnNothing (F : Type) [F64 F] (calls : Nat → Calls) (session : Session)
    (arrival : Arrival) : Prop :=
  handleMessages F arrival calls session = .trap ∨
    ∃ error fifo, handleMessages F arrival calls session = .raised error (session.refill fifo)

/-- What the fifo holds after the reads is decoded. -/
theorem Brings.receive {arrival : Arrival} (brings : Brings session arrival buf) :
    ∃ fifo, session.client.fifo = some fifo ∧ receive fifo arrival =
      match decode buf [] with
      | .error (.error error) => .failed error.toServerError buf
      | .error .trap => .trap
      | .ok (len, msgs) =>
          if len = 0 ∨ msgs.length = 0 then .messages [] 0 buf else .messages msgs len buf := by
  obtain ⟨ending, something, fifo, held, rfl⟩ := brings
  have last : (readLoop fifo 0 arrival.chunks).2 ≠ 0 :=
    readLoop_snd_ne_zero arrival.nonempty (.inr something)
  have whole : (readLoop fifo 0 arrival.chunks).1 = fifo ++ arrival.bytes := readLoop_fst _ _ _
  refine ⟨fifo, held, ?_⟩
  rw [SpeedDaemon.receive, ending, ← whole]
  exact if_neg last

/-- A buffer that is decoded is handled as its list of messages. -/
theorem handleMessages_decoded (calls : Nat → Calls) {arrival : Arrival} {len : Nat}
    {msgs : List Message} (brings : Brings session arrival buf)
    (decoded : decode buf [] = .ok (len, msgs)) (positive : 0 < len) (nonempty : msgs ≠ []) :
    bare (handleMessages F arrival calls session) = bare (handleLoop F calls 0 msgs session) := by
  obtain ⟨fifo, held, received⟩ := brings.receive
  have nonzero : ¬ (len = 0 ∨ msgs.length = 0) := by
    rw [List.length_eq_zero_iff]
    exact not_or.mpr ⟨positive.ne', nonempty⟩
  simp only [decoded, if_neg nonzero] at received
  have refilled : handleLoop F calls 0 msgs (session.withFifo buf) =
      (handleLoop F calls 0 msgs session).map (·.refill (some buf)) :=
    handleLoop_refill calls 0 msgs session _
  simp only [bare, handleMessages, held, received, refilled]
  cases handleLoop F calls 0 msgs session <;> rfl

/-- An error of the decoder comes before anything that is done for a message. -/
theorem handleMessages_error (calls : Nat → Calls) {arrival : Arrival} {error : DecodeError}
    (brings : Brings session arrival buf) (decoded : decode buf [] = fail error) :
    handleMessages F arrival calls session =
      .raised error.toServerError (session.refill (some buf)) := by
  obtain ⟨fifo, held, received⟩ := brings.receive
  rw [decoded] at received
  simp only [handleMessages, held, received, fail]
  rfl

theorem handleMessages_trap (calls : Nat → Calls) {arrival : Arrival}
    (brings : Brings session arrival buf) (decoded : decode buf [] = trap) :
    handleMessages F arrival calls session = .trap := by
  obtain ⟨fifo, held, received⟩ := brings.receive
  rw [decoded] at received
  simp only [handleMessages, held, received, trap]

/-- A buffer that is not decoded is not acted on. -/
theorem handleMessages_undecoded (calls : Nat → Calls) {arrival : Arrival}
    (brings : Brings session arrival buf) (undecoded : ¬ ∃ result, decode buf [] = .ok result) :
    handleMessages F arrival calls session = .trap ∨
      ∃ error : DecodeError, handleMessages F arrival calls session =
        .raised error.toServerError (session.refill (some buf)) := by
  cases decoded : decode buf [] with
  | ok result => exact absurd ⟨result, decoded⟩ undecoded
  | error fault =>
      cases fault with
      | trap => exact .inl (handleMessages_trap calls brings decoded)
      | error error => exact .inr ⟨error, handleMessages_error calls brings decoded⟩

/-- Whole messages alone, no more than the array holds, are all decoded. -/
theorem decode_own {messages : List Message} (streamed : ∀ message ∈ messages, message.Streamed)
    (few : messages.length ≤ 64) :
    decode (wireAll messages) [] = .ok ((wireAll messages).length, messages) := by
  have alone : Unfinished Message.wire [] ([] : Bytes) := rfl
  have decoded := decode_stream streamed (by simp) alone few
  rwa [List.append_nil] at decoded

theorem wireAll_pos {messages : List Message} (nonempty : messages ≠ []) :
    0 < (wireAll messages).length := by
  obtain ⟨first, later, rfl⟩ := List.exists_cons_of_ne_nil nonempty
  have := List.length_pos_iff.mpr first.wire_ne_nil
  rw [wireAll_cons, List.length_append]
  omega

theorem Outcome.andThen_done (outcome : Outcome ServerError Session) :
    outcome.andThen (failing none) = outcome := by
  cases outcome <;> rfl

/-- When the whole buffer is decoded, the messages at its front are acted on first. -/
theorem actsFirst_of_decoded {calls : Nat → Calls} {arrival : Arrival} {rest : Bytes}
    {front : List Message} {result : Nat × List Message} (nonempty : front ≠ [])
    (streamed : ∀ message ∈ front, message.Streamed)
    (brings : Brings session arrival (wireAll front ++ rest))
    (decoded : decode (wireAll front ++ rest) [] = .ok result) :
    ActsFirst F calls session arrival (front.take 64) := by
  intro own ownBrings
  obtain ⟨len, msgs⟩ := result
  obtain ⟨others, rfl, few, positive⟩ := decode_front nonempty streamed decoded
  rw [List.take_of_length_le few] at ownBrings ⊢
  have whole := handleMessages_decoded (F := F) calls brings decoded positive
    (by simp [nonempty])
  have alone := handleMessages_decoded (F := F) calls ownBrings
    (decode_own streamed few) (wireAll_pos nonempty) nonempty
  refine ⟨others, none, ?_⟩
  rw [Outcome.andThen_done, whole, alone, handleLoop_append, handleLoop_refill, Nat.zero_add]
  cases handleLoop F calls 0 front session with
  | done middle => exact (handleLoop_refill calls front.length others middle none).symm
  | raised error middle => rfl
  | trap => rfl

/-! ### Which buffers are acted on -/

/-- A dispatcher of no road that has asked for heartbeats. -/
def settled : Session :=
  { newcomer with
    client :=
      { fd := 5
        fifo := some []
        timer := none
        heartbeatRequested := true
        data := .dispatcher ⟨5, []⟩ } }

/-- Such a client may send nothing more, and is told so with an error that the decoder does
not give. -/
theorem settled_refuses {message : Message} (streamed : message.Streamed) (calls : Calls) :
    ∃ error, (∀ other : DecodeError, error ≠ other.toServerError) ∧
      handleMessage F calls message settled = .raised error settled := by
  cases message with
  | camera position => exact ⟨.clientAlreadyIdentified, fun other => by cases other <;> nofun, rfl⟩
  | plate seen => exact ⟨.clientNotIdentifiedAsCamera, fun other => by cases other <;> nofun, rfl⟩
  | wantHeartbeat interval =>
      exact ⟨.timerAlreadyExists, fun other => by cases other <;> nofun, rfl⟩
  | errorM | ticket | heartbeat | dispatcher => exact streamed.elim

/-- An event that brings some bytes at once. -/
def arrivalOf (bytes : Bytes) (nonempty : bytes ≠ []) : Arrival :=
  ⟨[bytes], .wouldBlock, atOnce_nonempty nonempty⟩

theorem brings_arrivalOf {bytes : Bytes} (nonempty : bytes ≠ [])
    (empty : session.client.fifo = some []) :
    Brings session (arrivalOf bytes nonempty) bytes :=
  ⟨rfl, by simp [arrivalOf], [], empty, by simp [arrivalOf, Arrival.bytes]⟩

/-- An event acts first on the whole messages at the front of its bytes, up to 64, for every
client exactly when it finds legible bytes at every boundary; otherwise it acts on nothing,
whatever the client. -/
theorem acts_first_iff {front : List Message} (rest : Bytes) (nonempty : front ≠ [])
    (streamed : ∀ message ∈ front, message.Streamed) :
    ((∀ session arrival calls, Brings session arrival (wireAll front ++ rest) →
        ActsFirst F calls session arrival (front.take 64)) ↔
      AllLegible (wireAll front ++ rest)) ∧
      (¬ AllLegible (wireAll front ++ rest) →
        ∀ session arrival calls, Brings session arrival (wireAll front ++ rest) →
          ActsOnNothing F calls session arrival) := by
  obtain ⟨first, later, rfl⟩ := List.exists_cons_of_ne_nil nonempty
  have long : 2 ≤ (wireAll (first :: later) ++ rest).length := by
    have := (streamed first (by simp)).two_le_wire_length
    rw [wireAll_cons, List.length_append, List.length_append]
    omega
  rw [← decode_isOk_iff long]
  refine ⟨⟨fun acts => ?_, fun ⟨result, decoded⟩ session arrival calls brings =>
    actsFirst_of_decoded nonempty streamed brings decoded⟩, fun undecoded session arrival calls
      brings => ?_⟩
  · by_contra undecoded
    have bytesSome : wireAll (first :: later) ++ rest ≠ [] := List.length_pos_iff.mp (by omega)
    have takenSome : (first :: later).take 64 ≠ [] := by simp
    have ownSome := List.length_pos_iff.mp (wireAll_pos takenSome)
    have brings : Brings settled (arrivalOf _ bytesSome) _ := brings_arrivalOf bytesSome rfl
    have ownBrings : Brings (settled.refill (some [])) (arrivalOf _ ownSome) _ :=
      brings_arrivalOf ownSome rfl
    obtain ⟨others, failure, acted⟩ := acts settled _ smoothCalls brings _ ownBrings
    obtain ⟨error, differs, refuses⟩ :=
      settled_refuses (F := F) (streamed first (by simp)) (smoothCalls 0)
    have loop : handleLoop F smoothCalls 0 ((first :: later).take 64) settled =
        .raised error settled := by
      rw [List.take_succ_cons, handleLoop, refuses, Outcome.raised_andThen]
    have own := handleMessages_decoded (F := F) smoothCalls ownBrings
      (decode_own (fun message member => streamed message (List.mem_of_mem_take member))
        (List.length_take_le _ _)) (wireAll_pos takenSome) takenSome
    rw [show settled.refill (some []) = settled from rfl, loop] at own
    rw [show settled.refill (some []) = settled from rfl, own] at acted
    rcases handleMessages_undecoded (F := F) smoothCalls brings undecoded with
      trapped | ⟨other, raised⟩
    · rw [trapped] at acted
      cases acted
    · rw [raised] at acted
      exact differs other (Outcome.raised.inj acted).1.symm
  · rcases handleMessages_undecoded (F := F) calls brings undecoded with
      trapped | ⟨error, raised⟩
    · exact .inl trapped
    · exact .inr ⟨_, _, raised⟩

theorem acts_first_iff_cut :
    ActsFirst ℚ smoothCalls settled
      (arrivalOf (wireAll [.wantHeartbeat 10, .plate ⟨[65], 9⟩] ++ [0x20, 2, 65]) (by decide))
      [.wantHeartbeat 10, .plate ⟨[65], 9⟩] :=
  (acts_first_iff [0x20, 2, 65] (by simp) (by simp [Message.Streamed])).1.mpr
    ((decode_isOk_iff (by decide)).mp
      ⟨(12, [.wantHeartbeat 10, .plate ⟨[65], 9⟩]), by decide +kernel⟩) _ _ _
    (brings_arrivalOf _ rfl)

/-- A client that has a role keeps one. -/
theorem handleLoop_identified {calls : Nat → Calls} {i : Nat} {msgs : List Message}
    {final : Session} (added : ∀ i, (calls i).epollAdd = none)
    (identified : session.client.data ≠ .unidentified)
    (reaches : (handleLoop F calls i msgs session).Reaches final) :
    final.client.data ≠ .unidentified := by
  refine handleLoop_keeps (fun session => session.client.data ≠ .unidentified) ?_ identified
    reaches
  intro i msg session final _ identified reaches
  cases (handleMessage_registers (added i) reaches).2 with
  | nothing data timer roads timers => exact data ▸ identified
  | camera free camera data timer roads timers => exact absurd free identified
  | dispatcher free disp named data timer roads timers => exact absurd free identified
  | timer free timer created owner data timerEq roads timers => exact data ▸ identified

/-- A camera identifies itself, and a byte that names no type follows. -/
def cameraThenNoise : Bytes := (Message.camera ⟨1, 2, 60⟩).wire ++ [0xFF]

/-- The camera is not identified before the error disconnects it. -/
theorem not_acts_first :
    ¬ ∀ (front : List Message) (rest : Bytes) (session : Session) (arrival : Arrival)
        (calls : Nat → Calls), front ≠ [] → (∀ message ∈ front, message.Streamed) →
      Brings session arrival (wireAll front ++ rest) →
        ActsFirst ℚ calls session arrival (front.take 64) := by
  intro claimed
  have brings : Brings newcomer (arrivalOf cameraThenNoise (by decide)) cameraThenNoise :=
    brings_arrivalOf _ rfl
  have ownBrings : Brings (newcomer.refill (some []))
      (arrivalOf (wireAll [.camera ⟨1, 2, 60⟩]) (by decide)) (wireAll [.camera ⟨1, 2, 60⟩]) :=
    brings_arrivalOf _ rfl
  obtain ⟨others, failure, acted⟩ := claimed [.camera ⟨1, 2, 60⟩] [0xFF] newcomer _ smoothCalls
    (by simp) (by simp [Message.Streamed]) brings _ ownBrings
  have noise : decode cameraThenNoise [] = fail .invalidMessageType := by decide +kernel
  have whole : handleMessages ℚ (arrivalOf cameraThenNoise (by decide)) smoothCalls newcomer =
      .raised .invalidMessageType (newcomer.refill (some cameraThenNoise)) :=
    handleMessages_error smoothCalls brings noise
  let camera : Session :=
    { newcomer.refill none with client := (newcomer.refill none).client.asCamera ⟨1, 2, 60⟩ }
  have loop : bare (handleLoop ℚ smoothCalls 0 [.camera ⟨1, 2, 60⟩]
      (newcomer.refill (some []))) = .done camera := rfl
  have own := handleMessages_decoded (F := ℚ) smoothCalls ownBrings
    (decode_own (by simp [Message.Streamed]) (by simp)) (wireAll_pos (by simp)) (by simp)
  rw [own, loop, Outcome.done_andThen] at acted
  have reaches : ((handleLoop ℚ smoothCalls 1 others camera).andThen
      (failing failure)).Reaches (newcomer.refill none) := by
    rw [whole] at acted
    exact .inr ⟨_, acted.symm⟩
  have loopReaches : (handleLoop ℚ smoothCalls 1 others camera).Reaches (newcomer.refill none) := by
    rcases Outcome.andThen_reaches reaches with ⟨error, failed⟩ | ⟨middle, done, ends⟩
    · exact .inr ⟨error, failed⟩
    · have same : newcomer.refill none = middle := by
        cases failure <;> simpa [failing] using ends
      exact .inl (same ▸ done)
  have identified : camera.client.data ≠ .unidentified := by simp [camera, Client.asCamera]
  exact handleLoop_identified (fun _ => rfl) identified loopReaches rfl

end Handler

end NetworkExercises.SpeedDaemon
