/-
Module: NetworkExercises.BudgetChat.Proofs.Speaking
Purpose: What the other clients hear of a connection depends on the lines of its stream only,
  when each read ends at the end of a line and completes no more than one.
Main exports: heardAt, heard, wrote, OneLine, Hears, spoken_line_by_line
-/
import NetworkExercises.BudgetChat.Proofs.Members

namespace NetworkExercises.BudgetChat.Zig

open Lib
open SpeedDaemon (SocketFd WriteResult)

variable {room next : Room} {fd listener : SocketFd} {handler : Handler} {client : Client}
  {msg : Bytes} {writes : Writes} {event : Event}

/-! ### What is to be heard -/

/-- `"* {s} has entered the room\n"`. -/
def enteredText (username : Bytes) : Bytes := (enteredPieces username).flatten

/-- `"* {s} has left the room\n"`. -/
def leftText (username : Bytes) : Bytes := (leftPieces username).flatten

/-- `"[{s}] {s}\n"`. -/
def messageText (username line : Bytes) : Bytes := (messagePieces username line).flatten

/-- The lines that a read completes. -/
def completed (handler : Handler) (data : Bytes) : List Bytes :=
  completeLines needle ((splitLines needle handler.received).2 ++ data)

/-- Line by line: the first line of a connection is its name, and each later line is a
message.  The names `taken` are not given again. -/
def lineTexts (taken : List Bytes) (client : Client) (lines : List Bytes) : List Bytes :=
  if client.joined then lines.map (messageText client.name)
  else
    match lines with
    | [] => []
    | name :: messages =>
        if Client.isValidUsername name = true ∧ name ∉ taken then
          enteredText name :: messages.map (messageText name)
        else []

/-- What the end of a connection lets the others hear. -/
def leaveTexts (client : Client) : List Bytes :=
  if client.joined then [leftText client.name] else []

/-- What the others hear of a connection with an event of its own. -/
def eventTexts (room : Room) : Event → List Bytes
  | .connect _ _ => []
  | .read fd result _ =>
      match room.handlers fd with
      | none => []
      | some handler =>
          match result with
          | .error _ => leaveTexts handler.client
          | .ok data =>
              if data.isEmpty then leaveTexts handler.client
              else lineTexts room.clients.keys handler.client (completed handler data)

/-- Whether the client of a connection has joined and not left. -/
def hasJoined (room : Room) (listener : SocketFd) : Bool :=
  (room.handlers listener).any fun handler => handler.client.joined

/-- What a listener hears of a connection with an event. -/
def heardAt (fd listener : SocketFd) (room : Room) (event : Event) : List Bytes :=
  if event.fd = fd ∧ hasJoined room listener then eventTexts room event else []

/-- What a listener hears of a connection in a run. -/
def heard (fd listener : SocketFd) (room : Room) : List Event → List Bytes
  | [] => []
  | event :: events =>
      heardAt fd listener room event ++
        match chatStep room event with
        | none => []
        | some next => heard fd listener next events

/-- What the handler of a connection has written to a listener. -/
def wrote (fd listener : SocketFd) (history : List (SocketFd × Write)) : List Bytes :=
  (history.filter fun write => write.1 = fd ∧ write.2.stream = listener).map fun write =>
    write.2.message

/-! ### Who is written to -/

@[simp] theorem wrote_append (first second : List (SocketFd × Write)) :
    wrote fd listener (first ++ second) = wrote fd listener first ++ wrote fd listener second := by
  simp [wrote]

theorem wrote_other {other : SocketFd} (ne : other ≠ fd) (made : List Write) :
    wrote fd listener (made.map fun write => (other, write)) = [] := by
  simp [wrote, ne]

theorem wrote_own_stream (ne : listener ≠ fd) {write : Write} (own : write.stream = fd) :
    wrote fd listener [(fd, write)] = [] := by
  simp [wrote, own, Ne.symm ne]

/-- One message to some different streams. -/
theorem wrote_message {streams : List SocketFd} (distinct : streams.Nodup) (message : Bytes) :
    wrote fd listener ((streams.map fun stream => (⟨stream, message, .all⟩ : Write)).map
      fun write => (fd, write)) = if listener ∈ streams then [message] else [] := by
  induction streams with
  | nil => rfl
  | cons stream streams ih =>
      obtain ⟨absent, distinct⟩ := List.nodup_cons.mp distinct
      rw [List.map_cons, List.map_cons, ← List.singleton_append, wrote_append, ih distinct]
      by_cases same : stream = listener
      · subst same
        simp [wrote, absent]
      · simp [wrote, same, Ne.symm same]

theorem hasJoined_iff : hasJoined room fd = true ↔ ∃ client, room.Joined fd client := by
  unfold hasJoined Room.Joined
  cases room.handlers fd with
  | none => simp
  | some handler => simp

/-- The streams of the members are different. -/
theorem Exact.streams_nodup (exact_ : Exact room) (wired : Wired room) :
    (room.clients.entries.map fun entry => entry.2.stream).Nodup := by
  apply List.Nodup.map_on ?_ room.clients.distinct.of_map
  rintro ⟨name, client⟩ member ⟨other, second⟩ memberToo sameStream
  obtain ⟨rfl, at_, first, runs, rfl, -⟩ := (exact_ _ _).mp member
  obtain ⟨rfl, atToo, third, runsToo, rfl, -⟩ := (exact_ _ _).mp memberToo
  dsimp only at sameStream
  rw [(wired at_ first runs).1, (wired atToo third runsToo).1] at sameStream
  rw [sameStream, runsToo, Option.some.injEq] at runs
  rw [runs]

/-- The stream of a member that has joined. -/
theorem Exact.mem_stream (exact_ : Exact room) (wired : Wired room)
    {entries : List (Bytes × Client)} (sub : ∀ entry ∈ entries, entry ∈ room.clients.entries)
    (others : ∀ client, room.Joined listener client → (client.name, client) ∈ entries) :
    listener ∈ (((entries.map Prod.snd).filter Client.joined).map Client.stream) ↔
      hasJoined room listener = true := by
  rw [hasJoined_iff]
  constructor
  · intro member
    obtain ⟨client, isMember, rfl⟩ := List.mem_map.mp member
    obtain ⟨entry, inside, rfl⟩ := List.mem_map.mp (List.mem_filter.mp isMember).1
    obtain ⟨-, at_, handler, runs, same, joined⟩ := (exact_ entry.1 entry.2).mp (sub entry inside)
    have stream := (wired at_ handler runs).1
    rw [same] at stream
    rw [stream]
    exact ⟨entry.2, handler, runs, same, joined⟩
  · rintro ⟨client, joined⟩
    have inside := others client joined
    obtain ⟨handler, runs, rfl, isJoined⟩ := joined
    refine List.mem_map.mpr ⟨handler.client, ?_, (wired listener handler runs).1⟩
    exact List.mem_filter.mpr ⟨List.mem_map.mpr ⟨_, inside, rfl⟩, isJoined⟩

theorem streams_sublist {entries : List (Bytes × Client)}
    (sub : entries.Sublist room.clients.entries) :
    (((entries.map Prod.snd).filter Client.joined).map Client.stream).Sublist
      (room.clients.entries.map fun entry => entry.2.stream) := by
  have mapped : room.clients.entries.map (fun entry => entry.2.stream) =
      (room.clients.entries.map Prod.snd).map Client.stream := by
    rw [List.map_map]
    rfl
  rw [mapped]
  exact (List.filter_sublist.trans (sub.map Prod.snd)).map Client.stream

/-- `send_message` reaches every client that has joined. -/
theorem Exact.sendMessage (exact_ : Exact room) (wired : Wired room) (succeeds : Succeeds writes)
    (fd listener : SocketFd) (message : Bytes) :
    ∃ made, room.clients.sendMessage writes message = (made, true) ∧
      wrote fd listener (made.map fun write => (fd, write)) =
        if hasJoined room listener then [message] else [] := by
  rw [Clients.sendMessage, writeAll_succeeds succeeds]
  refine ⟨_, rfl, ?_⟩
  have distinct := (exact_.streams_nodup wired).sublist (streams_sublist (List.Sublist.refl _))
  rw [ArrayMap.values, wrote_message distinct]
  refine if_congr (exact_.mem_stream wired (fun _ => id) ?_) rfl rfl
  intro client joined
  exact exact_.member joined

/-- `send_message_from` reaches every other client that has joined. -/
theorem Exact.sendMessageFrom (exact_ : Exact room) (wired : Wired room)
    (succeeds : Succeeds writes) (joined : room.Joined fd client) (ne : listener ≠ fd)
    (message : Bytes) :
    ∃ made, room.clients.sendMessageFrom writes client message = (made, true) ∧
      wrote fd listener (made.map fun write => (fd, write)) =
        if hasJoined room listener then [message] else [] := by
  have present : client.name ∈ room.clients.keys :=
    List.mem_map.mpr ⟨_, exact_.member joined, rfl⟩
  rw [Clients.sendMessageFrom]
  cases index : room.clients.getIndex client.name with
  | none => exact absurd present (ArrayMap.getIndex_eq_none.mp index)
  | some idx =>
      obtain ⟨front, value, back, split, others⟩ := ArrayMap.values_eraseIdx index
      dsimp only
      rw [others, writeAll_succeeds succeeds]
      refine ⟨_, rfl, ?_⟩
      have sub : (front ++ back).Sublist room.clients.entries := by
        rw [split]
        exact (List.Sublist.refl front).append (List.sublist_cons_self _ _)
      have distinct := (exact_.streams_nodup wired).sublist (streams_sublist sub)
      rw [wrote_message distinct]
      refine if_congr (exact_.mem_stream wired (fun _ inside => sub.subset inside) ?_) rfl rfl
      intro second joinedToo
      rw [ArrayMap.mem_around split]
      refine ⟨?_, exact_.member joinedToo⟩
      intro sameName
      exact ne (exact_.unique wired joined joinedToo sameName)

/-! ### One event of the connection -/

/-- Each read of the connection leaves no newline in its buffer but one at the end. -/
def OneLine (fd : SocketFd) (room : Room) : Event → Prop
  | .read by_ (.ok data) _ =>
      by_ = fd → ∀ handler, room.handlers fd = some handler →
        needle ∉ (handler.recvFifo ++ data).dropLast
  | _ => True

/-- The messages of the connection fit the buffer. -/
def LinesFit (fd : SocketFd) (room : Room) : Event → Prop
  | .read by_ (.ok data) _ =>
      by_ = fd → ∀ handler, room.handlers fd = some handler →
        ∀ line ∈ completed handler data, (messageText handler.client.name line).length ≤ 1024
  | _ => True

/-- What a handler keeps and knows of the stream of its connection: the bytes behind the last
newline, and the first line. -/
structure Tracks (handler : Handler) : Prop where
  recvFifo : handler.recvFifo = (splitLines needle handler.received).2
  name : handler.client.joined = true →
    (completeLines needle handler.received).head? = some handler.client.name
  unnamed : handler.client.joined = false → completeLines needle handler.received = []

theorem tracks_init (fd : SocketFd) : Tracks ⟨.init fd, [], []⟩ :=
  ⟨rfl, nofun, fun _ => rfl⟩

/-- The end of a connection. -/
theorem wrote_leave (exact_ : Exact room) (wired : Wired room) (succeeds : Succeeds writes)
    (runs : room.handlers fd = some handler) (ne : listener ≠ fd) :
    wrote fd listener (leave room fd handler.client writes).history =
      wrote fd listener room.history ++
        if hasJoined room listener then leaveTexts handler.client else [] := by
  cases joined : handler.client.joined with
  | false =>
      rw [leave_unjoined joined, leaveTexts, joined]
      simp [Room.setHandler]
  | true =>
      have short : handler.client.name.length ≤ 32 := handler.client.username.fits
      obtain ⟨formatted, formats, items⟩ := format_left short
      obtain ⟨made, sent, reached⟩ := exact_.sendMessageFrom wired succeeds
        ⟨handler, runs, rfl, joined⟩ ne (leftText handler.client.name)
      have text : formatted.items = leftText handler.client.name := items
      rw [leave, if_pos joined, formats]
      dsimp only
      rw [text, sent, leaveTexts, if_pos joined]
      show wrote fd listener (room.history ++ made.map fun write => (fd, write)) = _
      rw [wrote_append, reached]

/-- A client that has joined speaks a line. -/
theorem speak_succeeds (exact_ : Exact room) (wired : Wired room) (succeeds : Succeeds writes)
    (data : Bytes) {line : Bytes} (runs : room.handlers fd = some handler)
    (joined : handler.client.joined = true) (ne : listener ≠ fd)
    (fits : (messageText handler.client.name line).length ≤ 1024) :
    (speak room fd (handler.receive data) line writes).handlers =
        Function.update room.handlers fd (some { handler.receive data with recvFifo := [] }) ∧
      wrote fd listener (speak room fd (handler.receive data) line writes).history =
        wrote fd listener room.history ++
          if hasJoined room listener then [messageText handler.client.name line] else [] := by
  have room_ : ((BoundedArray.clear : MsgBuffer).items ++
      (messagePieces handler.client.name line).flatten).length ≤ 1024 := fits
  obtain ⟨formatted, formats, items⟩ := format_fits room_
  obtain ⟨made, sent, reached⟩ := exact_.sendMessageFrom wired succeeds
    ⟨handler, runs, rfl, joined⟩ ne (messageText handler.client.name line)
  have text : formatted.items = messageText handler.client.name line := items
  have client : (handler.receive data).client = handler.client := rfl
  have spoken : speak room fd (handler.receive data) line writes =
      (room.log fd made).setHandler fd
        (some { handler.receive data with recvFifo := [] }) := by
    rw [speak, client]
    dsimp only
    rw [formats]
    dsimp only
    rw [text, sent]
    rfl
  rw [spoken]
  refine ⟨rfl, ?_⟩
  show wrote fd listener (room.history ++ made.map fun write => (fd, write)) = _
  rw [wrote_append, reached]

/-- A listener hears some texts of a connection, whose handler goes on to track its stream. -/
structure Hears (fd listener : SocketFd) (room next : Room) (texts : List Bytes) : Prop where
  heard : wrote fd listener next.history =
    wrote fd listener room.history ++ if hasJoined room listener then texts else []
  tracks : ∀ handler, next.handlers fd = some handler → Tracks handler

theorem tracks_update {after : Option Handler}
    (handlers : next.handlers = Function.update room.handlers fd after)
    (own : ∀ handler, after = some handler → Tracks handler) :
    ∀ handler, next.handlers fd = some handler → Tracks handler := by
  rwa [handlers, Function.update_self]

/-- Only the connection itself is written to. -/
theorem hears_nothing (ne : listener ≠ fd) {made : List Write}
    (own : ∀ write ∈ made, write.stream = fd)
    (history : next.history = room.history ++ made.map fun write => (fd, write))
    (tracks : ∀ handler, next.handlers fd = some handler → Tracks handler) :
    Hears fd listener room next [] := by
  refine ⟨?_, tracks⟩
  have nothing : wrote fd listener (made.map fun write => (fd, write)) = [] := by
    rw [wrote, List.map_eq_nil_iff, List.filter_eq_nil_iff]
    rintro logged member
    obtain ⟨write, inside, rfl⟩ := List.mem_map.mp member
    simp [own write inside, Ne.symm ne]
  rw [history, wrote_append, nothing, ite_self]

/-- A new client with a line. -/
theorem hears_joins (exact_ : Exact room) (wired : Wired room) (succeeds : Succeeds writes)
    {data line : Bytes} (unjoined : handler.client.joined = false) (ne : listener ≠ fd)
    (free : Client.isValidUsername line = true → line ∉ room.clients.keys)
    (first : completeLines needle (handler.received ++ data) = [line])
    (rest : (splitLines needle (handler.received ++ data)).2 = [])
    (joins : Joins room next fd (handler.receive data) line writes) :
    Hears fd listener room next (lineTexts room.clients.keys handler.client [line]) := by
  cases joins with
  | invalid bad write own nextEq =>
      subst nextEq
      have nothing : lineTexts room.clients.keys handler.client [line] = [] := by
        simp [lineTexts, unjoined, bad]
      rw [nothing]
      have handlers : ((room.log fd [write]).setHandler fd none).handlers =
          Function.update room.handlers fd none := rfl
      apply hears_nothing ne ?_ rfl (tracks_update handlers nofun)
      intro other member
      rwa [List.mem_singleton.mp member]
  | taken valid present => exact absurd present (free valid)
  | failed valid absent fails => exact absurd succeeds fails
  | joined valid absent listing made sent nextEq =>
      obtain ⟨formatted, formats, items⟩ := format_entered valid
      obtain ⟨reachedBy, sentToo, reached⟩ := exact_.sendMessage wired succeeds fd listener
        (enteredText line)
      have text : formatted.items = enteredText line := items
      rw [formats] at sent
      dsimp only at sent
      rw [text, sentToo] at sent
      cases sent
      have texts : lineTexts room.clients.keys handler.client [line] = [enteredText line] := by
        simp [lineTexts, unjoined, valid, absent]
      have handlers : next.handlers = Function.update room.handlers fd
          (some ⟨named fd line (isValidUsername_length valid), [], handler.received ++ data⟩) := by
        rw [nextEq]
        rfl
      have history : next.history = room.history ++
          ([(fd, ⟨fd, listing.items, writes fd listing.items⟩)] ++
            made.map fun write => (fd, write)) := by
        rw [nextEq]
        rfl
      rw [texts]
      refine ⟨?_, tracks_update handlers ?_⟩
      · rw [history, wrote_append, wrote_append, wrote_own_stream ne rfl, reached, List.nil_append]
      · rintro after ⟨rfl⟩
        refine ⟨rest.symm, fun _ => ?_, nofun⟩
        show (completeLines needle (handler.received ++ data)).head? = some line
        rw [first]
        rfl

/-- What a read adds to the complete lines. -/
theorem completeLines_receive (handler : Handler) (data : Bytes) :
    completeLines needle (handler.received ++ data) =
      completeLines needle handler.received ++ completed handler data :=
  completeLines_append _ _

theorem hears_read (exact_ : Exact room) (wired : Wired room) {data : Bytes}
    (runs : room.handlers fd = some handler) (tracks : Tracks handler)
    (succeeds : Succeeds writes) (noTaken : NoTaken room (.read fd (.ok data) writes))
    (oneLine : needle ∉ (handler.recvFifo ++ data).dropLast)
    (fits : ∀ line ∈ completed handler data,
      (messageText handler.client.name line).length ≤ 1024)
    (ne : listener ≠ fd) (nonempty : data ≠ [])
    (ran : chatStep room (.read fd (.ok data) writes) = some next) :
    Hears fd listener room next
      (lineTexts room.clients.keys handler.client (completed handler data)) := by
  have buffer : handler.recvFifo ++ data = (splitLines needle handler.received).2 ++ data := by
    rw [tracks.recvFifo]
  have restEq : (splitLines needle (handler.received ++ data)).2 =
      (splitLines needle (handler.recvFifo ++ data)).2 := by
    rw [splitLines_append, buffer]
  have linesEq := completeLines_receive handler data
  have completedEq : completed handler data = completeLines needle (handler.recvFifo ++ data) := by
    rw [completed, buffer]
  rw [completedEq] at fits linesEq ⊢
  rcases notMem_or_line oneLine with unmarked | ⟨line, ends, lineUnmarked⟩
  · -- The line goes on.
    have notFound := lastIndexOf_of_notMem unmarked
    have unfinished := completeLines_of_notMem unmarked
    rw [unfinished] at linesEq ⊢
    rw [splitLines_of_notMem unmarked] at restEq
    have quiet : lineTexts room.clients.keys handler.client [] = [] := by simp [lineTexts]
    rw [quiet]
    have waiting : next = room.setHandler fd (some (handler.receive data)) := by
      cases chatStep_cases wired ran with
      | gone _ _ _ _ _ ends => exact absurd (ends data rfl) nonempty
      | waits _ _ _ other runsToo _ _ nextEq =>
          rw [runs, Option.some.injEq] at runsToo
          rwa [runsToo]
      | joins _ _ _ other runsToo _ _ idx marked | speaks _ _ _ other runsToo _ _ idx marked =>
          rw [runs, Option.some.injEq] at runsToo
          rw [← runsToo, notFound] at marked
          cases marked
    have handlers : next.handlers = Function.update room.handlers fd
        (some (handler.receive data)) := by
      rw [waiting]
      rfl
    apply hears_nothing ne (List.forall_mem_nil _) (by rw [waiting]; simp [Room.setHandler])
      (tracks_update handlers ?_)
    rintro after ⟨rfl⟩
    rw [List.append_nil] at linesEq
    refine ⟨restEq.symm, fun joined => ?_, fun unjoined => ?_⟩
    · exact (congrArg List.head? linesEq).trans (tracks.name joined)
    · exact linesEq.trans (tracks.unnamed unjoined)
  · -- A line is complete, and nothing is behind it.
    have found : lastIndexOf needle (handler.recvFifo ++ data) = some line.length := by
      rw [ends]
      exact lastIndexOf_mark line List.not_mem_nil
    have taken : (handler.recvFifo ++ data).take line.length = line := by
      rw [ends, List.take_left]
    have whole := completeLines_line lineUnmarked
    rw [← ends] at whole
    rw [whole] at fits linesEq ⊢
    rw [ends, splitLines_line_rest lineUnmarked] at restEq
    cases chatStep_cases wired ran with
    | gone _ _ _ _ _ ends => exact absurd (ends data rfl) nonempty
    | waits _ _ _ other runsToo _ unmarked =>
        rw [runs, Option.some.injEq] at runsToo
        rw [← runsToo, found] at unmarked
        cases unmarked
    | joins _ _ _ other runsToo _ unjoined idx marked joins =>
        rw [runs, Option.some.injEq] at runsToo
        subst runsToo
        rw [found, Option.some.injEq] at marked
        subst marked
        rw [taken] at joins
        have attempted := attempt_joins writes runs nonempty unjoined found
        rw [taken] at attempted
        rw [tracks.unnamed unjoined, List.nil_append] at linesEq
        exact hears_joins exact_ wired succeeds unjoined ne (noTaken line attempted) linesEq restEq
          joins
    | speaks _ _ _ other runsToo _ joined idx marked nextEq =>
        rw [runs, Option.some.injEq] at runsToo
        subst runsToo
        rw [found, Option.some.injEq] at marked
        subst marked
        rw [taken] at nextEq
        obtain ⟨handlers, heard⟩ := speak_succeeds exact_ wired succeeds data runs joined
          ne (fits line (List.mem_singleton_self line))
        rw [← nextEq] at handlers heard
        have texts : lineTexts room.clients.keys handler.client [line] =
            [messageText handler.client.name line] := by simp [lineTexts, joined]
        rw [texts]
        refine ⟨heard, tracks_update handlers ?_⟩
        rintro after ⟨rfl⟩
        refine ⟨restEq.symm, fun _ => ?_, fun unjoined => ?_⟩
        · show (completeLines needle (handler.received ++ data)).head? = some handler.client.name
          rw [linesEq, List.head?_append, tracks.name joined]
          rfl
        · rw [show handler.client.joined = false from unjoined] at joined
          cases joined

/-- An event of the connection. -/
theorem hears_own (exact_ : Exact room) (wired : Wired room)
    (tracks : ∀ handler, room.handlers event.fd = some handler → Tracks handler)
    (succeeds : Succeeds event.writes) (noTaken : NoTaken room event)
    (oneLine : OneLine event.fd room event) (fits : LinesFit event.fd room event)
    (ne : listener ≠ event.fd) (ran : chatStep room event = some next) :
    Hears event.fd listener room next (eventTexts room event) := by
  cases event with
  | connect fd writes =>
      have quiet : Hears fd listener room next [] := by
        cases chatStep_cases wired ran with
        | refused _ _ write own nextEq =>
            subst nextEq
            refine hears_nothing ne (List.forall_mem_singleton.mpr own) rfl ?_
            exact tracks
        | connected _ _ write own new nextEq =>
            subst nextEq
            have handlers : ((room.log fd [write]).setHandler fd
                (some ⟨.init fd, [], []⟩)).handlers =
                Function.update room.handlers fd (some ⟨.init fd, [], []⟩) := rfl
            refine hears_nothing ne (List.forall_mem_singleton.mpr own) rfl
              (tracks_update handlers ?_)
            rintro handler ⟨rfl⟩
            exact tracks_init fd
      exact quiet
  | read fd result writes =>
      have running : ∃ handler, room.handlers fd = some handler := by
        cases chatStep_cases wired ran with
        | gone _ _ _ handler runs | waits _ _ _ handler runs | joins _ _ _ handler runs
        | speaks _ _ _ handler runs => exact ⟨handler, runs⟩
      obtain ⟨handler, runs⟩ := running
      have left (texts : eventTexts room (.read fd result writes) = leaveTexts handler.client)
          (nextEq : next = leave room fd handler.client writes) :
          Hears fd listener room next (eventTexts room (.read fd result writes)) := by
        subst nextEq
        rw [texts]
        have handlers := leave_handlers room fd handler.client writes
        exact ⟨wrote_leave exact_ wired succeeds runs ne, tracks_update handlers nofun⟩
      cases result with
      | error errorName =>
          apply left (by simp [eventTexts, runs])
          rw [chatStep, runs] at ran
          exact (Option.some.inj ran).symm
      | ok data =>
          by_cases nothing : data = []
          · apply left (by simp [eventTexts, runs, nothing])
            rw [chatStep, runs, nothing] at ran
            exact (Option.some.inj ran).symm
          · have texts : eventTexts room (.read fd (.ok data) writes) =
                lineTexts room.clients.keys handler.client (completed handler data) := by
              simp [eventTexts, runs, nothing]
            rw [texts]
            exact hears_read exact_ wired runs (tracks handler runs) succeeds noTaken
              (oneLine rfl handler runs) (fits rfl handler runs) ne nothing ran

/-! ### Every run -/

/-- An event of another connection. -/
theorem hears_other (listener : SocketFd) (wired : Wired room) (other : event.fd ≠ fd)
    (ran : chatStep room event = some next) :
    wrote fd listener next.history = wrote fd listener room.history ∧
      next.handlers fd = room.handlers fd := by
  obtain ⟨⟨after, handlers⟩, made, history⟩ := chatStep_local wired ran
  refine ⟨?_, ?_⟩
  · rw [history, wrote_append, wrote_other other, List.append_nil]
  · rw [handlers, Function.update_of_ne (Ne.symm other)]

/-- What the run of a room adds to what a listener hears. -/
theorem run_heard {events : List Event} {final : Room} (wired : Wired room)
    (exact_ : Exact room) (tracks : ∀ handler, room.handlers fd = some handler → Tracks handler)
    (succeed : ∀ event ∈ events, Succeeds event.writes)
    (fits : EachStep (LinesFit fd) chatStep room events)
    (each : EachStep (fun room event => NoTaken room event ∧ OneLine fd room event) chatStep room
      events)
    (ran : run chatStep room events = some final) (ne : listener ≠ fd) :
    wrote fd listener final.history =
        wrote fd listener room.history ++ heard fd listener room events ∧
      ∀ handler, final.handlers fd = some handler → Tracks handler := by
  induction events generalizing room with
  | nil =>
      cases ran
      exact ⟨(List.append_nil _).symm, tracks⟩
  | cons event events ih =>
      obtain ⟨next, stepEq, rest⟩ := run_cons_eq_some.mp ran
      obtain ⟨succeedsNow, succeed⟩ := List.forall_mem_cons.mp succeed
      obtain ⟨fitsNow, fits⟩ := fits
      obtain ⟨⟨noTaken, oneLine⟩, each⟩ := each
      have now : wrote fd listener next.history =
          wrote fd listener room.history ++ heardAt fd listener room event ∧
            ∀ handler, next.handlers fd = some handler → Tracks handler := by
        by_cases own : event.fd = fd
        · subst own
          have hears := hears_own exact_ wired tracks succeedsNow noTaken oneLine fitsNow ne stepEq
          refine ⟨hears.heard.trans ?_, hears.tracks⟩
          simp [heardAt]
        · obtain ⟨heardEq, handlers⟩ := hears_other listener wired own stepEq
          refine ⟨?_, by rwa [handlers]⟩
          rw [heardEq, heardAt, if_neg (fun both => own both.1), List.append_nil]
      obtain ⟨heardNow, tracksNow⟩ := now
      obtain ⟨later, tracksLater⟩ := ih (wired_step wired stepEq)
        (exact_step exact_ wired noTaken stepEq).1 tracksNow succeed (fits next stepEq)
        (each next stepEq) rest
      refine ⟨?_, tracksLater⟩
      rw [later, heardNow, heard, stepEq, List.append_assoc]

/-- In every run in which each read of a connection leaves no newline in its buffer but one at
the end, and nobody asks for a name that is taken: every other client that has joined hears
of each line of the connection once, when it is complete and in order, the first being the
name; and what the connection keeps is what is behind the last newline of its stream. -/
theorem spoken_line_by_line {events : List Event} {final : Room}
    (succeed : ∀ event ∈ events, Succeeds event.writes) (fd : SocketFd)
    (fits : EachStep (LinesFit fd) chatStep .init events)
    (each : EachStep (fun room event => NoTaken room event ∧ OneLine fd room event) chatStep .init
      events)
    (ran : run chatStep .init events = some final) :
    (∀ listener, listener ≠ fd →
      wrote fd listener final.history = heard fd listener .init events) ∧
    ∀ handler, final.handlers fd = some handler →
      handler.recvFifo = (splitLines needle handler.received).2 ∧
        (handler.client.joined = true →
          (completeLines needle handler.received).head? = some handler.client.name) ∧
        (handler.client.joined = false → completeLines needle handler.received = []) := by
  have all (listener : SocketFd) (ne : listener ≠ fd) :=
    run_heard wired_init exact_init nofun succeed fits each ran ne
  refine ⟨fun listener ne => (all listener ne).1, fun handler runs => ?_⟩
  have tracks := (all (fd + 1) (Nat.succ_ne_self fd)).2 handler runs
  exact ⟨tracks.recvFifo, tracks.name, tracks.unnamed⟩

/-- Two clients join with names cut in two, and talk. -/
def talk : List Event :=
  [.connect 5 allWritten, typed 5 "ali", typed 5 "ce\n", .connect 6 allWritten, typed 6 "bob\n",
    typed 5 "hel", typed 6 "hi\n", typed 5 "lo\n", .read 5 (.ok []) allWritten]

instance (fd : SocketFd) (room : Room) (event : Event) : Decidable (OneLine fd room event) :=
  match event with
  | .connect _ _ => .isTrue trivial
  | .read _ (.error _) _ => .isTrue trivial
  | .read by_ (.ok data) _ =>
      inferInstanceAs (Decidable (by_ = fd → ∀ handler ∈ room.handlers fd,
        needle ∉ (handler.recvFifo ++ data).dropLast))

instance (fd : SocketFd) (room : Room) (event : Event) : Decidable (LinesFit fd room event) :=
  match event with
  | .connect _ _ => .isTrue trivial
  | .read _ (.error _) _ => .isTrue trivial
  | .read by_ (.ok data) _ =>
      inferInstanceAs (Decidable (by_ = fd → ∀ handler ∈ room.handlers fd,
        ∀ line ∈ completed handler data,
          (messageText handler.client.name line).length ≤ 1024))

theorem spoken_line_by_line_talk :
    ∃ final, run chatStep .init talk = some final ∧
      wrote 5 6 final.history =
        [ascii "[alice] hello\n", ascii "* alice has left the room\n"] := by
  obtain ⟨final, ran⟩ := Option.isSome_iff_exists.mp
    (show (run chatStep .init talk).isSome by decide +kernel)
  have succeed : ∀ event ∈ talk, Succeeds event.writes := by
    simp [talk, typed, Event.writes, Succeeds, allWritten]
  obtain ⟨spoken, -⟩ := spoken_line_by_line succeed 5 (by decide +kernel) (by decide +kernel) ran
  exact ⟨final, ran, (spoken 6 (by decide)).trans (by decide +kernel)⟩

/-! ### Two lines in one read -/

/-- Two clients join, and one of them says two things at once. -/
def crowded : List Event :=
  [.connect 5 allWritten, typed 5 "alice\n", .connect 6 allWritten, typed 6 "bob\n",
    typed 5 "a\nb\n"]

/-- The two lines become one message. -/
theorem lines_run_together :
    ∃ final, run chatStep .init crowded = some final ∧
      wrote 5 6 final.history = [ascii "[alice] a\nb\n"] ∧
      heard 5 6 .init crowded = [ascii "[alice] a\n", ascii "[alice] b\n"] ∧
      (∀ event ∈ crowded, Succeeds event.writes) ∧
      EachStep (LinesFit 5) chatStep .init crowded := by
  have written : (run chatStep .init crowded).map (fun final => wrote 5 6 final.history) =
      some [ascii "[alice] a\nb\n"] := by decide +kernel
  obtain ⟨final, ran, text⟩ := Option.map_eq_some_iff.mp written
  refine ⟨final, ran, text, by decide +kernel, ?_, by decide +kernel⟩
  simp [crowded, typed, Event.writes, Succeeds, allWritten]

end NetworkExercises.BudgetChat.Zig
