/-
Module: NetworkExercises.BudgetChat.Proofs.Members
Purpose: The map of the chat room holds exactly the clients that have joined and not left, as
  long as nobody asks for a name that is taken.
Main exports: Exact, attempt, Rejected, Honest, NoTaken, exact_step, members_exact_iff
-/
import NetworkExercises.BudgetChat.Proofs.Turns

namespace NetworkExercises.BudgetChat.Zig

open Lib
open SpeedDaemon (SocketFd WriteResult)

variable {room next : Room} {fd other : SocketFd} {handler : Handler} {client : Client}
  {writes : Writes} {event : Event}

/-! ### Who has joined -/

/-- The client of a connection has joined and has not left. -/
def Room.Joined (room : Room) (fd : SocketFd) (client : Client) : Prop :=
  ∃ handler, room.handlers fd = some handler ∧ handler.client = client ∧ client.joined = true

/-- The map holds exactly the clients that have joined and not left, each under its name. -/
def Exact (room : Room) : Prop :=
  ∀ name client, (name, client) ∈ room.clients.entries ↔
    client.name = name ∧ ∃ fd, room.Joined fd client

theorem exact_init : Exact .init := by
  intro name client
  constructor
  · intro member
    cases member
  · rintro ⟨-, fd, handler, runs, -⟩
    cases runs

/-- The handlers of the other connections go on as they were. -/
theorem joined_update {after : Option Handler}
    (handlers : next.handlers = Function.update room.handlers fd after) :
    next.Joined other client ↔
      (other = fd ∧ ∃ handler, after = some handler ∧ handler.client = client ∧
        client.joined = true) ∨ (other ≠ fd ∧ room.Joined other client) := by
  unfold Room.Joined
  rw [handlers, Function.update_apply]
  by_cases same : other = fd
  · simp [same]
  · simp [same]

/-- A client that has joined is an entry of the map. -/
theorem Exact.member (exact_ : Exact room) (joined : room.Joined fd client) :
    (client.name, client) ∈ room.clients.entries :=
  (exact_ _ _).mpr ⟨rfl, fd, joined⟩

/-- Two clients that have joined under one name are the same. -/
theorem Exact.unique (exact_ : Exact room) (wired : Wired room) {second : Client}
    (one : room.Joined fd client) (two : room.Joined other second)
    (sameName : second.name = client.name) : other = fd := by
  have same : second = client := by
    have member := exact_.member two
    rw [sameName] at member
    exact ArrayMap.value_unique member (exact_.member one)
  obtain ⟨first, runs, rfl, -⟩ := one
  obtain ⟨second, runsToo, rfl, -⟩ := two
  rw [← (wired fd first runs).1, ← (wired other second runsToo).1, same]

/-- Nothing that concerns a client that has joined happens. -/
theorem Exact.unchanged (exact_ : Exact room) {after : Option Handler}
    (handlers : next.handlers = Function.update room.handlers fd after)
    (clients : next.clients = room.clients)
    (same : ∀ client, (∃ handler, after = some handler ∧ handler.client = client ∧
      client.joined = true) ↔ room.Joined fd client) : Exact next := by
  intro name client
  rw [clients, exact_ name client]
  apply and_congr_right
  intro _
  apply exists_congr
  intro other
  rw [joined_update handlers, same]
  constructor
  · intro joined
    by_cases here : other = fd
    · exact .inl ⟨here, here ▸ joined⟩
    · exact .inr ⟨here, joined⟩
  · rintro (⟨rfl, joined⟩ | ⟨-, joined⟩)
    · exact joined
    · exact joined

/-- A handler goes on with the same client. -/
theorem Exact.kept (exact_ : Exact room) {handler after : Handler}
    (runs : room.handlers fd = some handler)
    (handlers : next.handlers = Function.update room.handlers fd (some after))
    (clients : next.clients = room.clients) (sameClient : after.client = handler.client) :
    Exact next := by
  apply exact_.unchanged handlers clients
  intro client
  simp [Room.Joined, runs, sameClient]

/-- A connection without a member is served, or ends. -/
theorem Exact.unjoined (exact_ : Exact room) {after : Option Handler}
    (handlers : next.handlers = Function.update room.handlers fd after)
    (clients : next.clients = room.clients)
    (before : ∀ handler, room.handlers fd = some handler → handler.client.joined = false)
    (unjoined : ∀ handler, after = some handler → handler.client.joined = false) :
    Exact next := by
  apply exact_.unchanged handlers clients
  intro client
  constructor
  · rintro ⟨handler, afterEq, rfl, joined⟩
    rw [unjoined handler afterEq] at joined
    cases joined
  · rintro ⟨handler, runs, rfl, joined⟩
    rw [before handler runs] at joined
    cases joined

/-- A member leaves. -/
theorem Exact.leave (exact_ : Exact room) (wired : Wired room) (joined : room.Joined fd client)
    (clients : next.clients = room.clients.remove client)
    (handlers : next.handlers = Function.update room.handlers fd none) : Exact next := by
  intro name found
  rw [clients, Clients.remove, ArrayMap.mem_swapRemove, exact_ name found]
  constructor
  · rintro ⟨ne, rfl, other, joinedToo⟩
    refine ⟨rfl, other, (joined_update handlers).mpr (.inr ⟨?_, joinedToo⟩)⟩
    rintro rfl
    obtain ⟨first, runs, rfl, -⟩ := joined
    obtain ⟨second, runsToo, rfl, -⟩ := joinedToo
    rw [runs, Option.some.injEq] at runsToo
    exact ne (by rw [runsToo])
  · rintro ⟨rfl, other, joinedToo⟩
    rcases (joined_update handlers).mp joinedToo with ⟨-, _, gone, -⟩ | ⟨otherNe, joinedToo⟩
    · cases gone
    · refine ⟨?_, rfl, other, joinedToo⟩
      intro sameName
      exact otherNe (exact_.unique wired joined joinedToo sameName)

/-- A client joins under a name that is free. -/
theorem Exact.join (exact_ : Exact room) {msg : Bytes} (absent : msg ∉ room.clients.keys)
    (name : client.name = msg) (isJoined : client.joined = true) {after : Handler}
    (own : after.client = client)
    (before : ∀ handler, room.handlers fd = some handler → handler.client.joined = false)
    (clients : next.clients = room.clients.put msg client)
    (handlers : next.handlers = Function.update room.handlers fd (some after)) : Exact next := by
  intro other found
  rw [clients, ArrayMap.mem_put_new absent, exact_ other found]
  constructor
  · rintro (same | ⟨rfl, at_, joined⟩)
    · obtain ⟨rfl, rfl⟩ := Prod.mk.inj same
      exact ⟨name, fd, (joined_update handlers).mpr (.inl ⟨rfl, after, rfl, own, isJoined⟩)⟩
    · refine ⟨rfl, at_, (joined_update handlers).mpr (.inr ⟨?_, joined⟩)⟩
      rintro rfl
      obtain ⟨handler, runs, rfl, joined⟩ := joined
      rw [before handler runs] at joined
      cases joined
  · rintro ⟨rfl, at_, joined⟩
    rcases (joined_update handlers).mp joined with ⟨-, handler, same, rfl, -⟩ | ⟨-, joined⟩
    · cases same
      left
      rw [own, name]
    · exact .inr ⟨rfl, at_, joined⟩

/-! ### Attempts to join -/

/-- The name that a client that has not joined asks for with an event. -/
def attempt (room : Room) : Event → Option Bytes
  | .connect _ _ => none
  | .read _ (.error _) _ => none
  | .read fd (.ok data) _ =>
      match room.handlers fd with
      | none => none
      | some handler =>
          if handler.client.joined || data.isEmpty then none
          else
            (lastIndexOf needle (handler.recvFifo ++ data)).map fun idx =>
              (handler.recvFifo ++ data).take idx

/-- An attempt with an invalid name, or with one that is taken. -/
def Rejected (room : Room) (event : Event) : Prop :=
  ∃ msg, attempt room event = some msg ∧
    (Client.isValidUsername msg = false ∨ msg ∈ room.clients.keys)

/-- After the event the map is exact, and if it was rejected, the map is what it was and
nothing was written to another client. -/
def Honest (room : Room) (event : Event) : Prop :=
  ∀ next, chatStep room event = some next →
    Exact next ∧
      (Rejected room event →
        next.clients = room.clients ∧
          ∃ made, next.history = room.history ++ made ∧
            ∀ write ∈ made, write.2.stream = event.fd)

/-- Nobody asks for a valid name that is taken. -/
def NoTaken (room : Room) (event : Event) : Prop :=
  ∀ msg, attempt room event = some msg → Client.isValidUsername msg = true →
    msg ∉ room.clients.keys

instance (room : Room) (event : Event) : Decidable (NoTaken room event) :=
  inferInstanceAs (Decidable (∀ msg ∈ attempt room event,
    Client.isValidUsername msg = true → msg ∉ room.clients.keys))

theorem attempt_joins (writes : Writes) {data : Bytes} (runs : room.handlers fd = some handler)
    (nonempty : data ≠ []) (unjoined : handler.client.joined = false) {idx : Nat}
    (marked : lastIndexOf needle (handler.recvFifo ++ data) = some idx) :
    attempt room (.read fd (.ok data) writes) = some ((handler.recvFifo ++ data).take idx) := by
  have some_data : data.isEmpty = false := by simpa using nonempty
  simp [attempt, runs, unjoined, some_data, marked]

/-- A client that has joined attempts nothing. -/
theorem attempt_joined {result : Except String Bytes} (runs : room.handlers fd = some handler)
    (joined : handler.client.joined = true) : attempt room (.read fd result writes) = none := by
  cases result with
  | error => rfl
  | ok data => simp [attempt, runs, joined]

/-- What is not an attempt is not rejected. -/
theorem not_rejected (none_ : attempt room event = none) : ¬ Rejected room event := by
  rintro ⟨msg, attempted, -⟩
  rw [none_] at attempted
  cases attempted

/-! ### One step -/

theorem unjoined_only (runs : room.handlers fd = some handler)
    (unjoined : handler.client.joined = false) (other : Handler)
    (runsToo : room.handlers fd = some other) : other.client.joined = false := by
  rw [runs, Option.some.injEq] at runsToo
  rwa [← runsToo]

/-- A connection ends. -/
theorem exact_leave (exact_ : Exact room) (wired : Wired room)
    (runs : room.handlers fd = some handler) (made : List Write) (writes : Writes) :
    Exact (leave (room.log fd made) fd handler.client writes) := by
  cases joined : handler.client.joined with
  | false =>
      rw [leave_unjoined joined]
      have handlers : ((room.log fd made).setHandler fd none).handlers =
          Function.update room.handlers fd none := rfl
      exact exact_.unjoined handlers rfl (unjoined_only runs joined) nofun
  | true =>
      have handlers := leave_handlers (room.log fd made) fd handler.client writes
      obtain ⟨said, left⟩ := leave_joined (room.log fd made) fd writes joined
      rw [left] at handlers ⊢
      exact exact_.leave wired ⟨handler, runs, rfl, joined⟩ rfl handlers

/-- A new client is served. -/
theorem exact_joins (exact_ : Exact room) {msg : Bytes}
    (before : ∀ handler, room.handlers fd = some handler → handler.client.joined = false)
    (joins : Joins room next fd handler msg writes)
    (free : Client.isValidUsername msg = true → msg ∉ room.clients.keys) :
    Exact next ∧
      (Client.isValidUsername msg = false ∨ msg ∈ room.clients.keys →
        next.clients = room.clients ∧
          ∃ made, next.history = room.history ++ made ∧
            ∀ write ∈ made, write.2.stream = fd) := by
  cases joins with
  | invalid bad write own nextEq =>
      subst nextEq
      have handlers : ((room.log fd [write]).setHandler fd none).handlers =
          Function.update room.handlers fd none := rfl
      refine ⟨exact_.unjoined handlers rfl before nofun, fun _ => ⟨rfl, [(fd, write)], rfl, ?_⟩⟩
      intro logged member
      rwa [List.mem_singleton.mp member]
  | taken valid present write nextEq => exact absurd present (free valid)
  | failed valid absent fails made nextEq =>
      subst nextEq
      refine ⟨?_, ?_⟩
      · have handlers := leave_handlers (room.log fd made) fd
          (named fd msg (isValidUsername_length valid)) writes
        obtain ⟨said, left⟩ := leave_joined (room.log fd made) fd writes
          (rfl : (named fd msg (isValidUsername_length valid)).joined = true)
        rw [left] at handlers ⊢
        exact exact_.unjoined handlers (remove_absent absent) before nofun
      · rintro (bad | present)
        · rw [valid] at bad
          cases bad
        · exact absurd present absent
  | joined valid absent listing made sent nextEq =>
      subst nextEq
      refine ⟨exact_.join absent rfl rfl rfl before rfl rfl, ?_⟩
      rintro (bad | present)
      · rw [valid] at bad
        cases bad
      · exact absurd present absent

/-- An event in which nobody asks for a taken name. -/
theorem exact_step (exact_ : Exact room) (wired : Wired room) (noTaken : NoTaken room event)
    (ran : chatStep room event = some next) :
    Exact next ∧
      (Rejected room event →
        next.clients = room.clients ∧
          ∃ made, next.history = room.history ++ made ∧
            ∀ write ∈ made, write.2.stream = event.fd) := by
  cases chatStep_cases wired ran with
  | refused fd writes write own nextEq =>
      subst nextEq
      exact ⟨exact_, fun rejected => absurd rejected (not_rejected rfl)⟩
  | connected fd writes write own new nextEq =>
      subst nextEq
      refine ⟨?_, fun rejected => absurd rejected (not_rejected rfl)⟩
      have handlers : ((room.log fd [write]).setHandler fd (some ⟨.init fd, [], []⟩)).handlers =
          Function.update room.handlers fd (some ⟨.init fd, [], []⟩) := rfl
      apply exact_.unjoined handlers rfl
      · intro handler runs
        rw [new] at runs
        cases runs
      · rintro handler ⟨rfl⟩
        rfl
  | gone fd result writes handler runs ends nextEq =>
      subst nextEq
      refine ⟨?_, fun rejected => absurd rejected (not_rejected ?_)⟩
      · have left := exact_leave exact_ wired runs [] writes
        rwa [show room.log fd [] = room by simp [Room.log]] at left
      · cases result with
        | error => rfl
        | ok data =>
            rw [ends data rfl]
            simp [attempt, runs]
  | waits fd data writes handler runs nonempty unmarked nextEq =>
      subst nextEq
      refine ⟨?_, fun rejected => absurd rejected (not_rejected ?_)⟩
      · exact exact_.kept runs rfl rfl rfl
      · simp [attempt, runs, unmarked]
  | joins fd data writes handler runs nonempty unjoined idx marked joins =>
      have attempted := attempt_joins writes runs nonempty unjoined marked
      obtain ⟨exactNext, quiet⟩ := exact_joins exact_ (unjoined_only runs unjoined) joins
        (noTaken _ attempted)
      refine ⟨exactNext, ?_⟩
      rintro ⟨msg, asked, reason⟩
      rw [attempted, Option.some.injEq] at asked
      subst asked
      exact quiet reason
  | speaks fd data writes handler runs nonempty joined idx marked nextEq =>
      refine ⟨?_, fun rejected => absurd rejected (not_rejected (attempt_joined runs joined))⟩
      obtain ⟨made, stays | leaves⟩ := speak_cases room fd (handler.receive data)
        ((handler.recvFifo ++ data).take idx) writes
      · rw [stays] at nextEq
        subst nextEq
        exact exact_.kept runs rfl rfl rfl
      · rw [leaves] at nextEq
        subst nextEq
        exact exact_leave exact_ wired runs made writes

/-- Who asks for a taken name takes the entry of the one that has it. -/
theorem not_exact_of_taken (exact_ : Exact room) (wired : Wired room) {msg : Bytes}
    (attempted : attempt room event = some msg) (valid : Client.isValidUsername msg = true)
    (present : msg ∈ room.clients.keys) (ran : chatStep room event = some next) :
    ¬ Exact next := by
  cases chatStep_cases wired ran with
  | refused | connected => cases attempted
  | gone fd result writes handler runs ends nextEq =>
      cases result with
      | error => cases attempted
      | ok data =>
          rw [ends data rfl] at attempted
          simp [attempt, runs] at attempted
  | waits fd data writes handler runs nonempty unmarked nextEq =>
      simp [attempt, runs, unmarked] at attempted
  | speaks fd data writes handler runs nonempty joined idx marked nextEq =>
      rw [attempt_joined runs joined] at attempted
      cases attempted
  | joins fd data writes handler runs nonempty unjoined idx marked joins =>
      rw [attempt_joins writes runs nonempty unjoined marked, Option.some.injEq] at attempted
      subst attempted
      cases joins with
      | invalid bad => rw [valid] at bad; cases bad
      | failed valid absent => exact absurd present absent
      | joined valid absent => exact absurd present absent
      | taken valid present write nextEq =>
          intro exactNext
          -- The member whose name it is goes on, but is no entry any more.
          obtain ⟨⟨name, owner⟩, member, sameName⟩ := List.mem_map.mp present
          obtain ⟨ownName, at_, joined⟩ := (exact_ name owner).mp member
          have handlers := leave_handlers (room.log fd [write]) fd
            (named fd _ (isValidUsername_length valid)) writes
          obtain ⟨said, left⟩ := leave_joined (room.log fd [write]) fd writes
            (rfl : (named fd _ (isValidUsername_length valid)).joined = true)
          rw [← nextEq] at handlers left
          have different : at_ ≠ fd := by
            rintro rfl
            obtain ⟨other, runsToo, rfl, isJoined⟩ := joined
            rw [runs, Option.some.injEq] at runsToo
            rw [← runsToo, unjoined] at isJoined
            cases isJoined
          have stays : next.Joined at_ owner :=
            (joined_update handlers).mpr (.inr ⟨different, joined⟩)
          have entry := exactNext.member stays
          rw [left] at entry
          exact (ArrayMap.mem_swapRemove.mp entry).1 (ownName.trans sameName)

/-! ### Every run -/

/-- In every run the map is exact after each event, and rejected attempts change nothing and
are not heard of, if and only if nobody ever asks for a valid name that is taken. -/
theorem members_exact_iff {events : List Event} {final : Room}
    (ran : run chatStep .init events = some final) :
    EachStep Honest chatStep .init events ↔ EachStep NoTaken chatStep .init events := by
  apply eachStep_iff (fun room => Wired room ∧ Exact room) (fun _ => True) ?_
    ⟨wired_init, exact_init⟩ (fun _ _ => trivial) ran
  rintro room event next ⟨wired, exact_⟩ - stepEq
  refine ⟨⟨?_, ?_⟩, fun noTaken => ?_⟩
  · intro honest msg attempted valid present
    exact not_exact_of_taken exact_ wired attempted valid present stepEq (honest next stepEq).1
  · intro noTaken after afterEq
    exact exact_step exact_ wired noTaken afterEq
  · exact ⟨wired_step wired stepEq, (exact_step exact_ wired noTaken stepEq).1⟩

/-- The system takes every write. -/
def allWritten : Writes := fun _ _ => .all

/-- A read of some text. -/
def typed (fd : SocketFd) (text : String) : Event := .read fd (.ok (ascii text)) allWritten

/-- Two clients join, a third one is rejected, and one leaves while the other speaks. -/
def visit : List Event :=
  [.connect 5 allWritten, typed 5 "ali", typed 5 "ce\n", .connect 6 allWritten, typed 6 "bob\n",
    .connect 7 allWritten, typed 7 "no body\n", typed 5 "hello\n", .read 6 (.ok []) allWritten]

theorem members_exact_iff_visit : EachStep Honest chatStep .init visit := by
  obtain ⟨final, ran⟩ := Option.isSome_iff_exists.mp
    (show (run chatStep .init visit).isSome by decide +kernel)
  exact (members_exact_iff ran).mpr (by decide +kernel)

/-- Two clients join, and a third one asks for the name of the first. -/
def stolen : List Event :=
  [.connect 5 allWritten, typed 5 "alice\n", .connect 6 allWritten, typed 6 "bob\n",
    .connect 7 allWritten, typed 7 "alice\n"]

/-- The third client is rejected; but the others are told that the first one has left, and
the map does not hold it any more. -/
theorem taken_name_removes_member :
    ∃ final, run chatStep .init stolen = some final ∧
      (7, ⟨6, ascii "* alice has left the room\n", .all⟩) ∈ final.history ∧
      final.clients.keys = [ascii "bob"] ∧ ¬ Exact final := by
  have outcome : (run chatStep .init stolen).map (fun final =>
      (decide ((7, ⟨6, ascii "* alice has left the room\n", .all⟩) ∈ final.history),
        final.clients.keys, (final.handlers 5).map fun handler =>
          (handler.client.joined, handler.client.name))) =
      some (true, [ascii "bob"], some (true, ascii "alice")) := by decide +kernel
  obtain ⟨final, ran, finalEq⟩ := Option.map_eq_some_iff.mp outcome
  obtain ⟨told, keys, member⟩ := Prod.mk.inj finalEq |>.imp id Prod.mk.inj
  obtain ⟨handler, runs, client⟩ := Option.map_eq_some_iff.mp member
  obtain ⟨joined, name⟩ := Prod.mk.inj client
  refine ⟨final, ran, of_decide_eq_true told, keys, fun exact_ => ?_⟩
  have entry := exact_.member ⟨handler, runs, rfl, joined⟩
  have key : handler.client.name ∈ final.clients.keys := List.mem_map.mpr ⟨_, entry, rfl⟩
  rw [keys, name] at key
  exact absurd key (by decide +kernel)

end NetworkExercises.BudgetChat.Zig
