/-
Module: NetworkExercises.BudgetChat.Proofs.Turns
Purpose: What one turn of a handler does to the room: to the members, to the handlers, and
  whom it writes to.
Main exports: named, leave_joined, leave_unjoined, joinRoom_cases, Wired, wired_step
-/
import NetworkExercises.BudgetChat.Zig.Handler
import NetworkExercises.Lib.Run

namespace NetworkExercises.BudgetChat.Zig

open Lib
open SpeedDaemon (SocketFd WriteResult)

variable {room next : Room} {fd : SocketFd} {handler : Handler} {client : Client} {msg : Bytes}
  {writes : Writes}

/-! ### Writes -/

theorem writeAll_one (writes : Writes) (message : Bytes) (stream : SocketFd) :
    ∃ all, writeAll writes message [stream] =
      ([⟨stream, message, writes stream message⟩], all) := by
  simp only [writeAll]
  cases writes stream message with
  | all => exact ⟨true, rfl⟩
  | failed count errorName => exact ⟨false, rfl⟩

/-- The system takes every write. -/
def Succeeds (writes : Writes) : Prop := ∀ stream message, writes stream message = .all

theorem writeAll_succeeds (succeeds : Succeeds writes) (message : Bytes)
    (streams : List SocketFd) :
    writeAll writes message streams =
      (streams.map fun stream => ⟨stream, message, .all⟩, true) := by
  induction streams with
  | nil => rfl
  | cons stream streams ih =>
      rw [writeAll, succeeds stream message, ih]
      rfl

/-- What fits the buffer is formatted. -/
theorem format_fits {buffer : MsgBuffer} {pieces : List Bytes}
    (fits : (buffer.items ++ pieces.flatten).length ≤ 1024) :
    ∃ formatted, format buffer pieces = (formatted, true) ∧
      formatted.items = buffer.items ++ pieces.flatten := by
  induction pieces generalizing buffer with
  | nil => exact ⟨buffer, rfl, by simp⟩
  | cons piece pieces ih =>
      have room : (buffer.items ++ piece).length ≤ 1024 := by
        rw [List.flatten_cons, ← List.append_assoc, List.length_append] at fits
        exact Nat.le_of_add_right_le fits
      have appended : buffer.appendSlice piece = some ⟨buffer.items ++ piece, room⟩ :=
        BoundedArray.appendSlice_eq_some.mpr rfl
      rw [format, appended]
      rw [List.flatten_cons, ← List.append_assoc] at fits ⊢
      exact ih fits

/-- What is formatted without an overflow is all there. -/
theorem format_items {buffer : MsgBuffer} {pieces : List Bytes}
    (formatted : (format buffer pieces).2 = true) :
    (format buffer pieces).1.items = buffer.items ++ pieces.flatten := by
  induction pieces generalizing buffer with
  | nil => simp [format]
  | cons piece pieces ih =>
      rw [format] at formatted ⊢
      cases appended : buffer.appendSlice piece with
      | none =>
          rw [appended] at formatted
          cases formatted
      | some longer =>
          rw [appended] at formatted
          dsimp only at formatted ⊢
          rw [ih formatted, BoundedArray.appendSlice_eq_some.mp appended, List.flatten_cons,
            List.append_assoc]

/-- Without an error every stream was written to. -/
theorem writeAll_true {message : Bytes} {streams : List SocketFd}
    (all : (writeAll writes message streams).2 = true) :
    (writeAll writes message streams).1 = streams.map fun stream => ⟨stream, message, .all⟩ := by
  induction streams with
  | nil => rfl
  | cons stream streams ih =>
      rw [writeAll] at all ⊢
      cases written : writes stream message with
      | failed count errorName =>
          rw [written] at all
          cases all
      | all =>
          rw [written] at all
          dsimp only at all ⊢
          rw [ih all, List.map_cons]

/-- All of the streams are written to exactly when none of the writes fails. -/
theorem writeAll_iff {message : Bytes} {streams : List SocketFd} :
    (writeAll writes message streams).2 = true ↔
      ∀ stream ∈ streams, writes stream message = .all := by
  induction streams with
  | nil => simp [writeAll]
  | cons stream streams ih =>
      rw [writeAll, List.forall_mem_cons, ← ih]
      cases writes stream message <;> simp

/-- The last of the writes is the one that failed. -/
theorem writeAll_failed {message : Bytes} {streams : List SocketFd}
    (failed : (writeAll writes message streams).2 = false) :
    ∃ write ∈ (writeAll writes message streams).1, write.written ≠ .all := by
  induction streams with
  | nil => cases failed
  | cons stream streams ih =>
      rw [writeAll] at failed ⊢
      cases written : writes stream message with
      | failed count errorName => exact ⟨_, List.mem_singleton_self _, by simp⟩
      | all =>
          rw [written] at failed
          obtain ⟨write, member, fails⟩ := ih failed
          exact ⟨write, List.mem_cons_of_mem _ member, fails⟩

@[simp] theorem log_clients (made : List Write) : (room.log fd made).clients = room.clients := rfl

@[simp] theorem log_handlers (made : List Write) :
    (room.log fd made).handlers = room.handlers := rfl

theorem log_log (first second : List Write) :
    (room.log fd first).log fd second = room.log fd (first ++ second) := by
  simp [Room.log]

/-! ### Leaving -/

/-- A client that has not joined leaves without a word. -/
theorem leave_unjoined (unjoined : client.joined = false) :
    leave room fd client writes = room.setHandler fd none := by
  rw [leave, unjoined]
  rfl

/-- A client that has joined announces it, and its name is removed. -/
theorem leave_joined (room : Room) (fd : SocketFd) (writes : Writes)
    (joined : client.joined = true) :
    ∃ made, leave room fd client writes =
      { (room.log fd made).setHandler fd none with clients := room.clients.remove client } := by
  rw [leave, if_pos joined]
  exact ⟨_, rfl⟩

/-- The name of a client that is no member is not removed. -/
theorem remove_absent {clients : Clients} (absent : client.name ∉ clients.keys) :
    clients.remove client = clients := by
  rw [Clients.remove, ArrayMap.swapRemove]
  split
  · rfl
  · next found =>
    rw [ArrayMap.getIndex_eq_none.mpr absent] at found
    cases found

/-! ### Joining -/

theorem isValidUsername_length (valid : Client.isValidUsername msg = true) :
    msg.length ≤ 32 := by
  simp only [Client.isValidUsername, Bool.and_eq_true, Bool.not_eq_true',
    decide_eq_false_iff_not, not_lt] at valid
  exact valid.1.1

/-- A client with a name. -/
def named (fd : SocketFd) (username : Bytes) (fits : username.length ≤ 32) : Client :=
  ⟨fd, true, ⟨username, fits⟩⟩

theorem validateUsername_init (fd : SocketFd) (valid : Client.isValidUsername msg = true) :
    (Client.init fd).validateUsername msg =
      some (true, named fd msg (isValidUsername_length valid)) := by
  have appended : (Client.init fd).username.appendSlice msg =
      some ⟨msg, isValidUsername_length valid⟩ := by
    rw [BoundedArray.appendSlice_eq_some]
    rfl
  rw [Client.validateUsername, if_pos valid, appended]
  rfl

theorem validateUsername_invalid (fd : SocketFd) (bad : Client.isValidUsername msg = false) :
    (Client.init fd).validateUsername msg = some (false, Client.init fd) := by
  rw [Client.validateUsername, bad]
  rfl

/-- A new client with a message is rejected for its name, rejected because the name is
taken, gives up, or joins. -/
inductive Joins (room next : Room) (fd : SocketFd) (handler : Handler) (msg : Bytes)
    (writes : Writes) : Prop where
  | invalid (bad : Client.isValidUsername msg = false) (write : Write) (own : write.stream = fd)
      (nextEq : next = (room.log fd [write]).setHandler fd none)
  | taken (valid : Client.isValidUsername msg = true) (present : msg ∈ room.clients.keys)
      (write : Write)
      (nextEq : next = leave (room.log fd [write]) fd
        (named fd msg (isValidUsername_length valid)) writes)
  | failed (valid : Client.isValidUsername msg = true) (absent : msg ∉ room.clients.keys)
      (fails : ¬ Succeeds writes) (made : List Write)
      (nextEq : next = leave (room.log fd made) fd
        (named fd msg (isValidUsername_length valid)) writes)
  | joined (valid : Client.isValidUsername msg = true) (absent : msg ∉ room.clients.keys)
      (listing : MsgBuffer) (made : List Write)
      (sent : room.clients.sendMessage writes (format .clear (enteredPieces msg)).1.items =
        (made, true))
      (nextEq : next =
        { room.log fd (⟨fd, listing.items, writes fd listing.items⟩ :: made) with
          clients := room.clients.put msg (named fd msg (isValidUsername_length valid))
          handlers := Function.update room.handlers fd
            (some ⟨named fd msg (isValidUsername_length valid), [], handler.received⟩) })

/-- A notice about a name that is not too long fits the buffer. -/
theorem format_notice {username behind : Bytes} (short : username.length ≤ 32)
    (few : behind.length ≤ 22) :
    ∃ formatted, format .clear [ascii "* ", username, behind] = (formatted, true) ∧
      formatted.items = [ascii "* ", username, behind].flatten := by
  have fits : (BoundedArray.clear : MsgBuffer).items.length +
      [ascii "* ", username, behind].flatten.length ≤ 1024 := by
    have before : (ascii "* ").length = 2 := by decide +kernel
    simp only [List.flatten_cons, List.flatten_nil, List.append_nil, List.length_append, before,
      BoundedArray.clear_items, List.length_nil]
    omega
  rw [← List.length_append] at fits
  exact format_fits fits

theorem format_entered (valid : Client.isValidUsername msg = true) :
    ∃ formatted, format .clear (enteredPieces msg) = (formatted, true) ∧
      formatted.items = (enteredPieces msg).flatten :=
  format_notice (isValidUsername_length valid) (by decide +kernel)

theorem format_left {username : Bytes} (short : username.length ≤ 32) :
    ∃ formatted, format .clear (leftPieces username) = (formatted, true) ∧
      formatted.items = (leftPieces username).flatten :=
  format_notice short (by decide +kernel)

theorem joinRoom_cases (new : handler.client = Client.init fd)
    (ran : joinRoom room fd handler msg writes = some next) :
    Joins room next fd handler msg writes := by
  rw [joinRoom, new] at ran
  cases valid : Client.isValidUsername msg with
  | false =>
      obtain ⟨all, wrote⟩ := writeAll_one writes invalidUsername fd
      simp only [validateUsername_invalid fd valid, tell, wrote, Option.some.injEq] at ran
      exact .invalid valid _ rfl (ran.symm.trans (leave_unjoined rfl))
  | true =>
      rw [validateUsername_init fd valid] at ran
      dsimp only at ran
      have name : (named fd msg (isValidUsername_length valid)).name = msg := rfl
      rw [Clients.exists_, name] at ran
      split at ran
      · next present =>
        obtain ⟨all, wrote⟩ := writeAll_one writes usernameTaken fd
        simp only [tell, wrote, Option.some.injEq] at ran
        exact .taken valid (ArrayMap.contains_iff.mp present) _ ran.symm
      · next absent =>
        rw [ArrayMap.contains_iff] at absent
        cases listed : roomListing room.clients.getUsernames with
        | none =>
            rw [listed] at ran
            cases ran
        | some listing =>
            obtain ⟨told, wrote⟩ := writeAll_one writes listing.items fd
            have adds : room.clients.add (named fd msg (isValidUsername_length valid)) =
                some (room.clients.put msg (named fd msg (isValidUsername_length valid))) := by
              rw [Clients.add, name, if_neg (mt ArrayMap.contains_iff.mp absent)]
            simp only [listed, tell, wrote, log_clients, adds, log_log, List.singleton_append]
              at ran
            split at ran
            · next untold =>
              cases ran
              refine .failed valid absent (fun succeeds => ?_) _ rfl
              rw [writeAll_succeeds succeeds] at wrote
              rw [← (Prod.mk.inj wrote).2] at untold
              exact absurd untold (by decide)
            · split at ran
              · next unformatted =>
                obtain ⟨formatted, formats, -⟩ := format_entered valid
                rw [formats] at unformatted
                exact absurd unformatted (by simp)
              · split at ran
                · next unsent =>
                  cases ran
                  refine .failed valid absent (fun succeeds => ?_) _ rfl
                  rw [Clients.sendMessage, writeAll_succeeds succeeds] at unsent
                  exact absurd unsent (by simp)
                · next sent =>
                  cases ran
                  exact .joined valid absent listing _ (Prod.ext rfl (by simpa using sent)) rfl

/-! ### Handlers -/

/-- A handler knows its own stream, and nothing else before its client has joined. -/
def Wired (room : Room) : Prop :=
  ∀ fd handler, room.handlers fd = some handler →
    handler.client.stream = fd ∧ (handler.client.joined = false → handler.client = .init fd)

theorem wired_init : Wired .init := nofun

theorem Wired.set (wired : Wired room) {set : Room} {after : Option Handler}
    (handlers : set.handlers = Function.update room.handlers fd after)
    (own : ∀ handler, after = some handler →
      handler.client.stream = fd ∧ (handler.client.joined = false → handler.client = .init fd)) :
    Wired set := by
  intro other handler runs
  rw [handlers, Function.update_apply] at runs
  split at runs
  · next same => exact same ▸ own handler runs
  · exact wired other handler runs

theorem leave_handlers (room : Room) (fd : SocketFd) (client : Client) (writes : Writes) :
    (leave room fd client writes).handlers = Function.update room.handlers fd none := by
  unfold leave
  split <;> rfl

theorem joins_handlers (joins : Joins room next fd handler msg writes) :
    ∃ after, next.handlers = Function.update room.handlers fd after ∧
      ∀ handler, after = some handler →
        handler.client.stream = fd ∧ handler.client.joined = true := by
  cases joins with
  | invalid bad write own nextEq => exact ⟨none, by rw [nextEq]; rfl, nofun⟩
  | taken valid present write nextEq =>
      exact ⟨none, by rw [nextEq, leave_handlers, log_handlers], nofun⟩
  | failed valid absent fails made nextEq =>
      exact ⟨none, by rw [nextEq, leave_handlers, log_handlers], nofun⟩
  | joined valid absent listing made sent nextEq =>
      refine ⟨_, by rw [nextEq], ?_⟩
      rintro handler ⟨rfl⟩
      exact ⟨rfl, rfl⟩

/-! ### Steps -/

/-- The handler after a read of some data. -/
def Handler.receive (handler : Handler) (data : Bytes) : Handler :=
  { handler with
    recvFifo := handler.recvFifo ++ data
    received := handler.received ++ data }

/-- What the events of the system can do to the room. -/
inductive Steps (room next : Room) : Event → Prop where
  | refused (fd : SocketFd) (writes : Writes) (write : Write) (own : write.stream = fd)
      (nextEq : next = room.log fd [write]) : Steps room next (.connect fd writes)
  | connected (fd : SocketFd) (writes : Writes) (write : Write) (own : write.stream = fd)
      (new : room.handlers fd = none)
      (nextEq : next = (room.log fd [write]).setHandler fd (some ⟨.init fd, [], []⟩)) :
      Steps room next (.connect fd writes)
  | gone (fd : SocketFd) (result : Except String Bytes) (writes : Writes) (handler : Handler)
      (runs : room.handlers fd = some handler) (ends : ∀ data, result = .ok data → data = [])
      (nextEq : next = leave room fd handler.client writes) :
      Steps room next (.read fd result writes)
  | waits (fd : SocketFd) (data : Bytes) (writes : Writes) (handler : Handler)
      (runs : room.handlers fd = some handler) (nonempty : data ≠ [])
      (unmarked : lastIndexOf needle (handler.recvFifo ++ data) = none)
      (nextEq : next = room.setHandler fd (some (handler.receive data))) :
      Steps room next (.read fd (.ok data) writes)
  | joins (fd : SocketFd) (data : Bytes) (writes : Writes) (handler : Handler)
      (runs : room.handlers fd = some handler) (nonempty : data ≠ [])
      (unjoined : handler.client.joined = false) (idx : Nat)
      (marked : lastIndexOf needle (handler.recvFifo ++ data) = some idx)
      (joins : Joins room next fd (handler.receive data)
        ((handler.recvFifo ++ data).take idx) writes) :
      Steps room next (.read fd (.ok data) writes)
  | speaks (fd : SocketFd) (data : Bytes) (writes : Writes) (handler : Handler)
      (runs : room.handlers fd = some handler) (nonempty : data ≠ [])
      (joined : handler.client.joined = true) (idx : Nat)
      (marked : lastIndexOf needle (handler.recvFifo ++ data) = some idx)
      (nextEq : next = speak room fd (handler.receive data)
        ((handler.recvFifo ++ data).take idx) writes) :
      Steps room next (.read fd (.ok data) writes)

theorem chatStep_cases (wired : Wired room) {event : Event}
    (ran : chatStep room event = some next) : Steps room next event := by
  cases event with
  | connect fd writes =>
      rw [chatStep] at ran
      split at ran
      · cases ran
      · next new =>
        obtain ⟨told, wrote⟩ := writeAll_one writes welcome fd
        simp only [tell, wrote] at ran
        split at ran
        · cases ran
          exact .refused fd writes _ rfl rfl
        · cases ran
          exact .connected fd writes _ rfl new rfl
  | read fd result writes =>
      rw [chatStep] at ran
      split at ran
      · cases ran
      · next handler runs =>
        split at ran
        · cases ran
          exact .gone fd _ writes handler runs nofun rfl
        · next data =>
          split at ran
          · next nothing =>
            cases ran
            refine .gone fd _ writes handler runs ?_ rfl
            rintro _ ⟨rfl⟩
            exact List.length_eq_zero_iff.mp nothing
          · next something =>
            have nonempty : data ≠ [] := fun none => something (by rw [none]; rfl)
            rw [readTurn] at ran
            dsimp only at ran
            split at ran
            · next unmarked =>
              cases ran
              exact .waits fd data writes handler runs nonempty unmarked rfl
            · next idx marked =>
              split at ran
              · next unjoined =>
                rw [Bool.not_eq_true'] at unjoined
                have new := (wired fd handler runs).2 unjoined
                exact .joins fd data writes handler runs nonempty unjoined idx marked
                  (joinRoom_cases new ran)
              · next joined =>
                cases ran
                rw [Bool.not_eq_true, Bool.not_eq_false'] at joined
                exact .speaks fd data writes handler runs nonempty joined idx marked rfl

/-- A client that speaks stays, or leaves. -/
theorem speak_cases (room : Room) (fd : SocketFd) (handler : Handler) (msg : Bytes)
    (writes : Writes) :
    ∃ made, speak room fd handler msg writes =
        (room.log fd made).setHandler fd (some { handler with recvFifo := [] }) ∨
      speak room fd handler msg writes = leave (room.log fd made) fd handler.client writes := by
  unfold speak
  dsimp only
  split
  · refine ⟨[], .inr ?_⟩
    simp [Room.log]
  · split
    · exact ⟨_, .inr rfl⟩
    · exact ⟨_, .inl rfl⟩

theorem wired_step (wired : Wired room) {event : Event}
    (ran : chatStep room event = some next) : Wired next := by
  cases chatStep_cases wired ran with
  | refused fd writes write own nextEq =>
      subst nextEq
      exact wired
  | connected fd writes write own new nextEq =>
      subst nextEq
      apply wired.set rfl
      rintro handler ⟨rfl⟩
      exact ⟨rfl, fun _ => rfl⟩
  | gone fd result writes handler runs ends nextEq =>
      subst nextEq
      exact wired.set (leave_handlers _ _ _ _) nofun
  | waits fd data writes handler runs nonempty unmarked nextEq =>
      subst nextEq
      apply wired.set rfl
      rintro _ ⟨rfl⟩
      exact wired fd handler runs
  | joins fd data writes handler runs nonempty unjoined idx marked joins =>
      obtain ⟨after, handlers, own⟩ := joins_handlers joins
      apply wired.set handlers
      intro handler afterEq
      obtain ⟨stream, joined⟩ := own handler afterEq
      refine ⟨stream, fun unjoined => ?_⟩
      rw [joined] at unjoined
      cases unjoined
  | speaks fd data writes handler runs nonempty joined idx marked nextEq =>
      obtain ⟨made, stays | leaves⟩ := speak_cases room fd (handler.receive data)
        ((handler.recvFifo ++ data).take idx) writes
      · rw [stays] at nextEq
        subst nextEq
        apply wired.set rfl
        rintro _ ⟨rfl⟩
        exact wired fd handler runs
      · rw [leaves] at nextEq
        subst nextEq
        exact wired.set (leave_handlers _ _ _ _) nofun

theorem leave_history (room : Room) (fd : SocketFd) (client : Client) (writes : Writes) :
    ∃ made : List Write, (leave room fd client writes).history =
      room.history ++ made.map fun write => (fd, write) := by
  cases joined : client.joined with
  | false =>
      rw [leave_unjoined joined]
      exact ⟨[], (List.append_nil _).symm⟩
  | true =>
      obtain ⟨made, left⟩ := leave_joined room fd writes joined
      rw [left]
      exact ⟨made, rfl⟩

theorem leave_log_history (room : Room) (fd : SocketFd) (made : List Write) (client : Client)
    (writes : Writes) :
    ∃ all : List Write, (leave (room.log fd made) fd client writes).history =
      room.history ++ all.map fun write => (fd, write) := by
  obtain ⟨more, history⟩ := leave_history (room.log fd made) fd client writes
  refine ⟨made ++ more, ?_⟩
  rw [history, List.map_append, ← List.append_assoc]
  rfl

/-- An event changes the handler of its own connection, which makes the writes. -/
theorem chatStep_local (wired : Wired room) {event : Event}
    (ran : chatStep room event = some next) :
    (∃ after, next.handlers = Function.update room.handlers event.fd after) ∧
      ∃ made : List Write,
        next.history = room.history ++ made.map fun write => (event.fd, write) := by
  cases chatStep_cases wired ran with
  | refused fd writes write own nextEq =>
      subst nextEq
      exact ⟨⟨room.handlers fd, (Function.update_eq_self _ _).symm⟩, [write], rfl⟩
  | connected fd writes write own new nextEq =>
      subst nextEq
      exact ⟨⟨_, rfl⟩, [write], rfl⟩
  | gone fd result writes handler runs ends nextEq =>
      subst nextEq
      exact ⟨⟨none, leave_handlers _ _ _ _⟩, leave_history _ _ _ _⟩
  | waits fd data writes handler runs nonempty unmarked nextEq =>
      subst nextEq
      exact ⟨⟨_, rfl⟩, [], (List.append_nil _).symm⟩
  | joins fd data writes handler runs nonempty unjoined idx marked joins =>
      obtain ⟨after, handlers, -⟩ := joins_handlers joins
      refine ⟨⟨after, handlers⟩, ?_⟩
      cases joins with
      | invalid bad write own nextEq =>
          subst nextEq
          exact ⟨[write], rfl⟩
      | taken valid present write nextEq =>
          subst nextEq
          exact leave_log_history _ _ _ _ _
      | failed valid absent fails made nextEq =>
          subst nextEq
          exact leave_log_history _ _ _ _ _
      | joined valid absent listing made sent nextEq =>
          subst nextEq
          exact ⟨_, rfl⟩
  | speaks fd data writes handler runs nonempty joined idx marked nextEq =>
      obtain ⟨made, stays | leaves⟩ := speak_cases room fd (handler.receive data)
        ((handler.recvFifo ++ data).take idx) writes
      · rw [stays] at nextEq
        subst nextEq
        exact ⟨⟨_, rfl⟩, made, rfl⟩
      · rw [leaves] at nextEq
        subst nextEq
        exact ⟨⟨none, leave_handlers _ _ _ _⟩, leave_log_history _ _ _ _ _⟩

end NetworkExercises.BudgetChat.Zig
