/-
Module: NetworkExercises.BudgetChat.Proofs.RoomRuns
Purpose: Whole runs of the chat room as runs of a room in which each member hears what the
  others say, so that any two members hear the same of the others.
Main exports: eventActs, overheard, AsRoom, room_refines_broadcast, members_hear_alike
-/
import NetworkExercises.Lib.Broadcast
import NetworkExercises.Lib.Refinement
import NetworkExercises.BudgetChat.Proofs.Speaking

namespace NetworkExercises.BudgetChat.Zig

open Lib
open SpeedDaemon (SocketFd WriteResult)

variable {room next : Room} {abs : Broadcast.Room SocketFd Bytes} {fd listener : SocketFd}
  {handler : Handler} {client : Client} {msg text : Bytes} {texts : List Bytes} {after : Bool}
  {writes : Writes} {event : Event}

/-! ### What the events stand for -/

/-- The end of a connection. -/
def leaveActs (fd : SocketFd) (client : Client) : List (Broadcast.Act SocketFd Bytes) :=
  if client.joined then [.leave fd (leftText client.name)] else []

/-- A message of a connection: its name, or something to say, for which the buffer may be too
small. -/
def messageActs (room : Room) (fd : SocketFd) (client : Client) (msg : Bytes) :
    List (Broadcast.Act SocketFd Bytes) :=
  if client.joined then
    if (messageText client.name msg).length ≤ 1024 then [.say fd (messageText client.name msg)]
    else leaveActs fd client
  else if Client.isValidUsername msg = true ∧ room.clients.contains msg = false then
    [.enter fd (enteredText msg)]
  else []

def eventActs (room : Room) : Event → List (Broadcast.Act SocketFd Bytes)
  | .connect _ _ => []
  | .read fd result _ =>
      match room.handlers fd with
      | none => []
      | some handler =>
          match result with
          | .error _ => leaveActs fd handler.client
          | .ok data =>
              if data.isEmpty then leaveActs fd handler.client
              else
                match lastIndexOf needle (handler.recvFifo ++ data) with
                | none => []
                | some idx =>
                    messageActs room fd handler.client ((handler.recvFifo ++ data).take idx)

/-- What the handlers of the other connections have written to a listener. -/
def overheard (listener : SocketFd) (history : List (SocketFd × Write)) :
    List (SocketFd × Bytes) :=
  (history.filter fun write => write.2.stream = listener ∧ write.1 ≠ listener).map fun write =>
    (write.1, write.2.message)

/-- The members are the connections that have joined, and the inboxes hold what the handlers of
the other connections have written. -/
structure AsRoom (room : Room) (abs : Broadcast.Room SocketFd Bytes) : Prop where
  members : ∀ fd, fd ∈ abs.members ↔ hasJoined room fd = true
  inbox : ∀ listener, abs.inbox listener = overheard listener room.history

theorem asRoom_init : AsRoom .init .empty where
  members fd := by simp [Broadcast.Room.empty, hasJoined, Room.init]
  inbox _ := rfl

/-! ### One event -/

/-- A connection lets the members hear some texts, and has joined behind that or not. -/
structure Tells (room next : Room) (fd : SocketFd) (texts : List Bytes) (after : Bool) : Prop where
  joined : ∀ other, hasJoined next other = if other = fd then after else hasJoined room other
  made : ∃ made : List Write, next.history = room.history ++ made.map fun write => (fd, write)
  heard : ∀ listener, listener ≠ fd → wrote fd listener next.history =
    wrote fd listener room.history ++ if hasJoined room listener then texts else []

theorem overheard_made (listener fd : SocketFd) (made : List Write) :
    overheard listener (made.map fun write => (fd, write)) =
      if listener = fd then []
      else (wrote fd listener (made.map fun write => (fd, write))).map fun text => (fd, text) := by
  by_cases own : listener = fd
  · simp [overheard, own]
  · rw [if_neg own, overheard, wrote, List.map_map, List.filter_map, List.filter_map, List.map_map,
      List.map_map]
    simp [Function.comp_def, Ne.symm own]

theorem Tells.overheard (tells : Tells room next fd texts after) (listener : SocketFd) :
    overheard listener next.history = overheard listener room.history ++
      if hasJoined room listener = true ∧ listener ≠ fd then texts.map fun text => (fd, text)
      else [] := by
  obtain ⟨made, history⟩ := tells.made
  have split : Zig.overheard listener next.history = Zig.overheard listener room.history ++
      Zig.overheard listener (made.map fun write => (fd, write)) := by
    rw [history]
    simp [Zig.overheard]
  rw [split, overheard_made]
  by_cases own : listener = fd
  · simp [own]
  · have heard := tells.heard listener own
    rw [history, wrote_append, List.append_cancel_left_eq] at heard
    rw [if_neg own, heard]
    cases hasJoined room listener <;> simp [own]

/-- The handler of the connection after an event. -/
theorem hasJoined_update {later : Option Handler}
    (handlers : next.handlers = Function.update room.handlers fd later) (other : SocketFd) :
    hasJoined next other =
      if other = fd then later.any fun handler => handler.client.joined
      else hasJoined room other := by
  rw [hasJoined, handlers, Function.update_apply]
  split <;> rfl

theorem hasJoined_runs (runs : room.handlers fd = some handler) :
    hasJoined room fd = handler.client.joined := by
  rw [hasJoined, runs]
  rfl

/-- Nothing is heard of what a handler writes to its own stream. -/
theorem tells_own {later : Option Handler} {made : List Write}
    (handlers : next.handlers = Function.update room.handlers fd later)
    (history : next.history = room.history ++ made.map fun write => (fd, write))
    (own : ∀ write ∈ made, write.stream = fd) :
    Tells room next fd [] (later.any fun handler => handler.client.joined) where
  joined := hasJoined_update handlers
  made := ⟨made, history⟩
  heard listener ne := by
    have nothing : wrote fd listener (made.map fun write => (fd, write)) = [] := by
      rw [wrote, List.map_eq_nil_iff, List.filter_eq_nil_iff]
      rintro logged member
      obtain ⟨write, inside, rfl⟩ := List.mem_map.mp member
      simp [own write inside, Ne.symm ne]
    rw [history, wrote_append, nothing, ite_self]

theorem tells_leave (exact_ : Exact room) (wired : Wired room) (succeeds : Succeeds writes)
    (runs : room.handlers fd = some handler) :
    Tells room (leave room fd handler.client writes) fd (leaveTexts handler.client) false where
  joined := hasJoined_update (leave_handlers room fd handler.client writes)
  made := leave_history room fd handler.client writes
  heard _ ne := wrote_leave exact_ wired succeeds runs ne

/-- A new client with a name is heard of when it joins. -/
theorem tells_joins (exact_ : Exact room) (wired : Wired room) (succeeds : Succeeds writes)
    (free : Client.isValidUsername msg = true → msg ∉ room.clients.keys)
    (joins : Joins room next fd handler msg writes) :
    Client.isValidUsername msg = false ∧ Tells room next fd [] false ∨
      Client.isValidUsername msg = true ∧ Tells room next fd [enteredText msg] true := by
  cases joins with
  | invalid bad write own nextEq =>
      subst nextEq
      have handlers : ((room.log fd [write]).setHandler fd none).handlers =
          Function.update room.handlers fd none := rfl
      have history : ((room.log fd [write]).setHandler fd none).history =
          room.history ++ [write].map fun write => (fd, write) := rfl
      exact .inl ⟨bad, tells_own handlers history (List.forall_mem_singleton.mpr own)⟩
  | taken valid present => exact absurd present (free valid)
  | failed valid absent fails => exact absurd succeeds fails
  | joined valid absent listing made sent nextEq =>
      right
      refine ⟨valid, ?_⟩
      obtain ⟨formatted, formats, items⟩ := format_entered valid
      have text : formatted.items = enteredText msg := items
      rw [formats] at sent
      dsimp only at sent
      rw [text] at sent
      have handlers : next.handlers = Function.update room.handlers fd
          (some ⟨named fd msg (isValidUsername_length valid), [], handler.received⟩) := by
        rw [nextEq]
      have history : next.history = room.history ++
          (⟨fd, listing.items, writes fd listing.items⟩ :: made).map fun write => (fd, write) := by
        rw [nextEq]
        rfl
      refine ⟨hasJoined_update handlers, ⟨_, history⟩, fun listener ne => ?_⟩
      obtain ⟨reachedBy, sentToo, reached⟩ := exact_.sendMessage wired succeeds fd listener
        (enteredText msg)
      rw [sentToo] at sent
      cases sent
      rw [history, List.map_cons, ← List.singleton_append, wrote_append, wrote_append,
        wrote_own_stream ne rfl, reached, List.nil_append]

/-- A member with a text that does not fit the buffer leaves. -/
theorem speak_overflow (handler : Handler)
    (long : ¬ (messageText handler.client.name msg).length ≤ 1024) :
    speak room fd handler msg writes = leave room fd handler.client writes := by
  have unformatted : (format .clear (messagePieces handler.client.name msg)).2 = false := by
    rw [← Bool.not_eq_true]
    intro formatted
    have items := format_items formatted
    have fits := (format .clear (messagePieces handler.client.name msg)).1.fits
    rw [items] at fits
    exact long fits
  simp [speak, unformatted]

theorem tells_speak (exact_ : Exact room) (wired : Wired room) (succeeds : Succeeds writes)
    (data : Bytes) (runs : room.handlers fd = some handler)
    (joined : handler.client.joined = true)
    (fits : (messageText handler.client.name msg).length ≤ 1024) :
    Tells room (speak room fd (handler.receive data) msg writes) fd
      [messageText handler.client.name msg] true := by
  have spoken (listener : SocketFd) (ne : listener ≠ fd) :=
    speak_succeeds exact_ wired succeeds data runs joined ne fits
  refine ⟨?_, ?_, fun listener ne => (spoken listener ne).2⟩
  · have handlers := (spoken (fd + 1) (Nat.succ_ne_self fd)).1
    intro other
    rw [hasJoined_update handlers]
    simp [Handler.receive, joined]
  · obtain ⟨made, stays | leaves⟩ := speak_cases room fd (handler.receive data) msg writes
    · rw [stays]
      exact ⟨made, rfl⟩
    · rw [leaves]
      exact leave_log_history _ _ _ _ _

/-! ### The room behind one event -/

/-- Nothing is heard, and nobody joins or leaves. -/
theorem AsRoom.silent (as_ : AsRoom room abs) (tells : Tells room next fd [] after)
    (stays : after = hasJoined room fd) : AsRoom next abs where
  members other := by
    rw [as_.members other, tells.joined other, stays]
    split
    · next same => rw [same]
    · rfl
  inbox listener := by
    rw [as_.inbox listener, tells.overheard listener, List.map_nil, ite_self, List.append_nil]

/-- An act of the connection is heard by the others. -/
theorem AsRoom.acts (as_ : AsRoom room abs) {act : Broadcast.Act SocketFd Bytes}
    {late : Broadcast.Room SocketFd Bytes} (done : Broadcast.step abs act = some late)
    (tells : Tells room next fd [text] after) (who : act.who = fd) (said : act.text = text)
    (members : ∀ other, other ∈ late.members ↔
      if other = fd then after = true else other ∈ abs.members) :
    AsRoom next late where
  members other := by
    rw [members other, tells.joined other]
    split
    · rfl
    · exact as_.members other
  inbox listener := by
    rw [Broadcast.step_inbox done, as_.inbox listener, tells.overheard listener,
      Broadcast.heardOf, who, said]
    simp only [as_.members listener, List.map_singleton]

theorem AsRoom.enter (as_ : AsRoom room abs) (outside : hasJoined room fd = false)
    (tells : Tells room next fd [text] true) :
    ∃ late, run Broadcast.step abs [.enter fd text] = some late ∧ AsRoom next late := by
  have absent : fd ∉ abs.members := by
    rw [as_.members fd, outside]
    exact Bool.false_ne_true
  have done : Broadcast.step abs (.enter fd text) = some _ := if_neg absent
  refine ⟨_, run_cons_eq_some.mpr ⟨_, done, rfl⟩, as_.acts done tells rfl rfl fun other => ?_⟩
  by_cases own : other = fd <;> simp [own]

theorem AsRoom.say (as_ : AsRoom room abs) (inside : hasJoined room fd = true)
    (tells : Tells room next fd [text] true) :
    ∃ late, run Broadcast.step abs [.say fd text] = some late ∧ AsRoom next late := by
  have member : fd ∈ abs.members := (as_.members fd).mpr inside
  have done : Broadcast.step abs (.say fd text) = some _ := if_pos member
  refine ⟨_, run_cons_eq_some.mpr ⟨_, done, rfl⟩, as_.acts done tells rfl rfl fun other => ?_⟩
  by_cases own : other = fd <;> simp [own, member]

/-- A connection ends, and is heard of when its client had joined. -/
theorem AsRoom.leave (as_ : AsRoom room abs) (inside : hasJoined room fd = client.joined)
    (tells : Tells room next fd (leaveTexts client) false) :
    ∃ late, run Broadcast.step abs (leaveActs fd client) = some late ∧ AsRoom next late := by
  cases joined : client.joined with
  | false =>
      rw [joined] at inside
      have quiet : leaveTexts client = [] := by rw [leaveTexts, joined]; rfl
      rw [quiet] at tells
      rw [leaveActs, joined]
      exact ⟨abs, rfl, as_.silent tells inside.symm⟩
  | true =>
      have member : fd ∈ abs.members := (as_.members fd).mpr (inside.trans joined)
      rw [leaveTexts, if_pos joined] at tells
      rw [leaveActs, if_pos joined]
      have done : Broadcast.step abs (.leave fd (leftText client.name)) = some _ := if_pos member
      refine ⟨_, run_cons_eq_some.mpr ⟨_, done, rfl⟩, as_.acts done tells rfl rfl fun other => ?_⟩
      by_cases own : other = fd <;> simp [own]

/-- An event is the acts that it stands for. -/
theorem chatStep_asRoom (as_ : AsRoom room abs) (exact_ : Exact room) (wired : Wired room)
    (succeeds : Succeeds event.writes) (noTaken : NoTaken room event)
    (ran : chatStep room event = some next) :
    ∃ late, run Broadcast.step abs (eventActs room event) = some late ∧ AsRoom next late := by
  cases chatStep_cases wired ran with
  | refused fd writes write own nextEq =>
      subst nextEq
      have handlers : (room.log fd [write]).handlers =
          Function.update room.handlers fd (room.handlers fd) :=
        (Function.update_eq_self _ _).symm
      have history : (room.log fd [write]).history =
          room.history ++ [write].map fun write => (fd, write) := rfl
      have tells := tells_own handlers history (List.forall_mem_singleton.mpr own)
      exact ⟨abs, rfl, as_.silent tells rfl⟩
  | connected fd writes write own new nextEq =>
      subst nextEq
      have handlers : ((room.log fd [write]).setHandler fd (some ⟨.init fd, [], []⟩)).handlers =
          Function.update room.handlers fd (some ⟨.init fd, [], []⟩) := rfl
      have history : ((room.log fd [write]).setHandler fd (some ⟨.init fd, [], []⟩)).history =
          room.history ++ [write].map fun write => (fd, write) := rfl
      have tells := tells_own handlers history (List.forall_mem_singleton.mpr own)
      have outside : hasJoined room fd = false := by
        rw [hasJoined, new]
        rfl
      exact ⟨abs, rfl, as_.silent tells outside.symm⟩
  | gone fd result writes handler runs ends nextEq =>
      subst nextEq
      have acts : eventActs room (.read fd result writes) = leaveActs fd handler.client := by
        rw [eventActs, runs]
        cases result with
        | error => rfl
        | ok data =>
            rw [ends data rfl]
            rfl
      rw [acts]
      exact as_.leave (hasJoined_runs runs) (tells_leave exact_ wired succeeds runs)
  | waits fd data writes handler runs nonempty unmarked nextEq =>
      subst nextEq
      have acts : eventActs room (.read fd (.ok data) writes) = [] := by
        simp [eventActs, runs, nonempty, unmarked]
      have handlers : (room.setHandler fd (some (handler.receive data))).handlers =
          Function.update room.handlers fd (some (handler.receive data)) := rfl
      have history : (room.setHandler fd (some (handler.receive data))).history =
          room.history ++ ([] : List Write).map fun write => (fd, write) :=
        (List.append_nil _).symm
      have tells := tells_own handlers history (List.forall_mem_nil _)
      rw [acts]
      exact ⟨abs, rfl, as_.silent tells (hasJoined_runs runs).symm⟩
  | joins fd data writes handler runs nonempty unjoined idx marked joins =>
      have attempted := attempt_joins writes runs nonempty unjoined marked
      have outside := (hasJoined_runs runs).trans unjoined
      have acts : eventActs room (.read fd (.ok data) writes) =
          messageActs room fd handler.client ((handler.recvFifo ++ data).take idx) := by
        simp [eventActs, runs, nonempty, marked]
      rw [acts, messageActs, unjoined]
      obtain ⟨bad, tells⟩ | ⟨valid, tells⟩ :=
        tells_joins exact_ wired succeeds (noTaken _ attempted) joins
      · have unnamed : ¬ Client.isValidUsername ((handler.recvFifo ++ data).take idx) = true := by
          rw [bad]
          exact Bool.false_ne_true
        rw [if_neg Bool.false_ne_true, if_neg fun both => unnamed both.1]
        exact ⟨abs, rfl, as_.silent tells outside.symm⟩
      · have absent : room.clients.contains ((handler.recvFifo ++ data).take idx) = false :=
          Bool.eq_false_iff.mpr (mt ArrayMap.contains_iff.mp (noTaken _ attempted valid))
        rw [if_neg Bool.false_ne_true, if_pos ⟨valid, absent⟩]
        exact as_.enter outside tells
  | speaks fd data writes handler runs nonempty joined idx marked nextEq =>
      have inside := hasJoined_runs runs
      have acts : eventActs room (.read fd (.ok data) writes) =
          messageActs room fd handler.client ((handler.recvFifo ++ data).take idx) := by
        simp [eventActs, runs, nonempty, marked]
      rw [acts, messageActs, if_pos joined]
      subst nextEq
      split
      · next fits =>
        exact as_.say (inside.trans joined)
          (tells_speak exact_ wired succeeds data runs joined fits)
      · next long =>
        have leaves : speak room fd (handler.receive data) ((handler.recvFifo ++ data).take idx)
            writes = leave room fd handler.client writes :=
          speak_overflow (handler.receive data) long
        rw [leaves]
        exact as_.leave inside (tells_leave exact_ wired succeeds runs)

/-! ### Every run -/

/-- What the events keep. -/
structure Behaves (room : Room) (abs : Broadcast.Room SocketFd Bytes) : Prop where
  wired : Wired room
  exact_ : Exact room
  as_ : AsRoom room abs

theorem behaves_init : Behaves .init .empty := ⟨wired_init, exact_init, asRoom_init⟩

/-- The system takes the writes, and nobody asks for a name that is taken. -/
def Smooth (room : Room) (event : Event) : Prop := NoTaken room event ∧ Succeeds event.writes

theorem chatStep_behaves (behaves : Behaves room abs) (smooth : Smooth room event)
    (ran : chatStep room event = some next) :
    ∃ late, run Broadcast.step abs (eventActs room event) = some late ∧ Behaves next late := by
  obtain ⟨wired, exact_, as_⟩ := behaves
  obtain ⟨noTaken, succeeds⟩ := smooth
  obtain ⟨late, acted, now⟩ := chatStep_asRoom as_ exact_ wired succeeds noTaken ran
  exact ⟨late, acted, wired_step wired ran, (exact_step exact_ wired noTaken ran).1, now⟩

theorem run_behaves {events : List Event} {final : Room} (behaves : Behaves room abs)
    (smooth : EachStep Smooth chatStep room events) (ran : run chatStep room events = some final) :
    ∃ late, run Broadcast.step abs (emissions chatStep eventActs room events) = some late ∧
      Behaves final late :=
  run_simulates_when eventActs Smooth Behaves
    (fun _ _ _ _ behaves smooth step => chatStep_behaves behaves smooth step) behaves smooth ran

theorem leaveActs_cases (fd : SocketFd) (client : Client) :
    leaveActs fd client = [] ∨ ∃ act, leaveActs fd client = [act] := by
  unfold leaveActs
  split
  · exact .inr ⟨_, rfl⟩
  · exact .inl rfl

theorem messageActs_cases (room : Room) (fd : SocketFd) (client : Client) (msg : Bytes) :
    messageActs room fd client msg = [] ∨ ∃ act, messageActs room fd client msg = [act] := by
  unfold messageActs
  split_ifs
  · exact .inr ⟨_, rfl⟩
  · exact leaveActs_cases fd client
  · exact .inr ⟨_, rfl⟩
  · exact .inl rfl

/-- No event is more than one act. -/
theorem eventActs_cases (room : Room) (event : Event) :
    eventActs room event = [] ∨ ∃ act, eventActs room event = [act] := by
  cases event with
  | connect fd writes => exact .inl rfl
  | read fd result writes =>
      rw [eventActs]
      cases room.handlers fd with
      | none => exact .inl rfl
      | some handler =>
          cases result with
          | error errorName => exact leaveActs_cases fd handler.client
          | ok data =>
              dsimp only
              split
              · exact leaveActs_cases fd handler.client
              · cases lastIndexOf needle (handler.recvFifo ++ data) with
                | none => exact .inl rfl
                | some idx => exact messageActs_cases room fd handler.client _

/-- A connection has joined, and goes on to be a member. -/
def Stays (fd : SocketFd) (room : Room) (_ : Event) : Prop := hasJoined room fd = true

/-- Who has joined before every event is present at every act. -/
theorem stays_present {events : List Event} {final : Room} (behaves : Behaves room abs)
    (smooth : EachStep Smooth chatStep room events)
    (stays : EachStep (Stays listener) chatStep room events)
    (ran : run chatStep room events = some final) :
    EachStep (Broadcast.Present listener) Broadcast.step abs
      (emissions chatStep eventActs room events) := by
  induction events generalizing room abs with
  | nil => trivial
  | cons event events ih =>
      obtain ⟨next, stepEq, rest⟩ := run_cons_eq_some.mp ran
      obtain ⟨smoothNow, smoothLater⟩ := smooth
      obtain ⟨staysNow, staysLater⟩ := stays
      obtain ⟨late, acted, behavesNext⟩ := chatStep_behaves behaves smoothNow stepEq
      have later := ih behavesNext (smoothLater next stepEq) (staysLater next stepEq) rest
      simp only [emissions, stepEq]
      obtain none_ | ⟨act, one⟩ := eventActs_cases room event
      · rw [none_] at acted ⊢
        cases acted
        exact later
      · rw [one] at acted ⊢
        obtain ⟨after, done, ended⟩ := run_cons_eq_some.mp acted
        cases ended
        refine ⟨(behaves.as_.members listener).mpr staysNow, fun other otherEq => ?_⟩
        rw [done, Option.some.injEq] at otherEq
        exact otherEq ▸ later

/-- When writes succeed and nobody asks for a name that is taken: as long as two connections have
joined, the other connections write them the same, in the same order. -/
theorem members_hear_alike {front back : List Event} {middle final : Room} {one two : SocketFd}
    (succeed : ∀ event ∈ front ++ back, Succeeds event.writes)
    (noTaken : EachStep NoTaken chatStep .init (front ++ back))
    (ran : run chatStep .init front = some middle)
    (stays : EachStep (Stays one) chatStep middle back)
    (stays' : EachStep (Stays two) chatStep middle back)
    (goesOn : run chatStep middle back = some final) :
    ∃ heard heard', overheard one final.history = overheard one middle.history ++ heard ∧
      overheard two final.history = overheard two middle.history ++ heard' ∧
      Broadcast.ofOthers one two heard = Broadcast.ofOthers one two heard' := by
  obtain ⟨smooth, smoothBack⟩ := (noTaken.and_forall succeed).of_append ran
  obtain ⟨abs, -, behaves⟩ := run_behaves behaves_init smooth ran
  obtain ⟨late, acted, behavesLate⟩ := run_behaves behaves smoothBack goesOn
  simp only [← behaves.as_.inbox, ← behavesLate.as_.inbox]
  exact Broadcast.run_agrees (stays_present behaves smoothBack stays goesOn)
    (stays_present behaves smoothBack stays' goesOn) acted

/-- Three clients join, and one of them talks until it leaves. -/
def gathering : List Event :=
  [.connect 5 allWritten, typed 5 "alice\n", .connect 6 allWritten, typed 6 "bob\n",
    .connect 7 allWritten, typed 7 "carol\n"]

def gossip : List Event := [typed 7 "a\nb\n", typed 5 "hm\n", .read 7 (.ok []) allWritten]

instance (fd : SocketFd) (room : Room) (event : Event) : Decidable (Stays fd room event) :=
  inferInstanceAs (Decidable (hasJoined room fd = true))

theorem members_hear_alike_gossip :
    ∃ middle final heard heard', run chatStep .init gathering = some middle ∧
      run chatStep middle gossip = some final ∧
      overheard 5 final.history = overheard 5 middle.history ++ heard ∧
      overheard 6 final.history = overheard 6 middle.history ++ heard' ∧
      Broadcast.ofOthers 5 6 heard = Broadcast.ofOthers 5 6 heard' := by
  have gathered : (run chatStep .init gathering).any (fun middle =>
      EachStep (Stays 5) chatStep middle gossip ∧ EachStep (Stays 6) chatStep middle gossip ∧
        (run chatStep middle gossip).isSome) = true := by decide +kernel
  obtain ⟨middle, ran, holds⟩ := (Option.any_eq_true _ _).mp gathered
  obtain ⟨stays, stays', ended⟩ := of_decide_eq_true holds
  obtain ⟨final, goesOn⟩ := Option.isSome_iff_exists.mp ended
  have succeed : ∀ event ∈ gathering ++ gossip, Succeeds event.writes := by
    simp [gathering, gossip, typed, Event.writes, Succeeds, allWritten]
  obtain ⟨heard, heard', alike⟩ := members_hear_alike succeed (by decide +kernel) ran stays stays'
    goesOn
  exact ⟨middle, final, heard, heard', ran, goesOn, alike⟩

end NetworkExercises.BudgetChat.Zig
