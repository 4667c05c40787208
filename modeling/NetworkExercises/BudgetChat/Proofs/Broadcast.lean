/-
Module: NetworkExercises.BudgetChat.Proofs.Broadcast
Purpose: Whom a line of a member reaches when some of the writes fail, and what becomes of the
  member.
Main exports: Others, Broadcasts, Undisturbed, lineWrites, broadcasts_iff
-/
import NetworkExercises.BudgetChat.Proofs.Speaking

namespace NetworkExercises.BudgetChat.Zig

open Lib
open SpeedDaemon (SocketFd WriteResult)

variable {clients : Clients} {room : Room} {fd : SocketFd} {handler : Handler}
  {sender member : Client} {msg line : Bytes} {writes : Writes}

/-- Another member, who has joined. -/
def Others (clients : Clients) (sender member : Client) : Prop :=
  ∃ name, (name, member) ∈ clients.entries ∧ name ≠ sender.name ∧ member.joined = true

/-- A line reaches every other member whose own write succeeds, and no write that fails ends the
connection of the sender. -/
structure Broadcasts (room : Room) (fd : SocketFd) (handler : Handler) (msg : Bytes)
    (writes : Writes) (made : List Write) : Prop where
  delivered : ∀ member, Others room.clients handler.client member →
    writes member.stream (messageText handler.client.name msg) = .all →
      ⟨member.stream, messageText handler.client.name msg, .all⟩ ∈ made
  stays : (∃ write ∈ made, write.written ≠ .all) →
    (speak room fd handler msg writes).handlers fd ≠ none

/-- No write of a line fails; or the map has lost the name of the sender, and they all would. -/
structure Undisturbed (clients : Clients) (sender : Client) (writes : Writes) (line : Bytes) :
    Prop where
  found : sender.name ∈ clients.keys →
    ∀ member, Others clients sender member → writes member.stream line = .all
  lost : sender.name ∉ clients.keys →
    ∀ member, Others clients sender member → writes member.stream line ≠ .all

/-! ### The writes -/

theorem sendMessageFrom_present (present : sender.name ∈ clients.keys) :
    ∃ streams, clients.sendMessageFrom writes sender line = writeAll writes line streams ∧
      ∀ stream, stream ∈ streams ↔ ∃ member, Others clients sender member ∧
        member.stream = stream := by
  cases found : clients.getIndex sender.name with
  | none => exact absurd present (ArrayMap.getIndex_eq_none.mp found)
  | some idx =>
      obtain ⟨front, value, back, split, others⟩ := ArrayMap.values_eraseIdx found
      refine ⟨_, by rw [Clients.sendMessageFrom, found], fun stream => ?_⟩
      rw [others, List.mem_map]
      apply exists_congr
      intro member
      rw [List.mem_filter, List.mem_map]
      apply and_congr_left
      intro _
      constructor
      · rintro ⟨⟨⟨name, _⟩, around, rfl⟩, joined⟩
        obtain ⟨ne, entry⟩ := (ArrayMap.mem_around split).mp around
        exact ⟨name, entry, ne, joined⟩
      · rintro ⟨name, entry, ne, joined⟩
        exact ⟨⟨(name, member), (ArrayMap.mem_around split).mpr ⟨ne, entry⟩, rfl⟩, joined⟩

theorem sendMessageFrom_absent (absent : sender.name ∉ clients.keys) :
    clients.sendMessageFrom writes sender line = ([], false) := by
  rw [Clients.sendMessageFrom, ArrayMap.getIndex_eq_none.mpr absent]

/-- What a line of a member has written to the others. -/
def lineWrites (room : Room) (handler : Handler) (msg : Bytes) (writes : Writes) :
    List Write × Bool :=
  room.clients.sendMessageFrom writes handler.client (messageText handler.client.name msg)

/-- A line that fits the buffer is sent, and the sender stays when that goes well. -/
theorem speak_formatted
    (formatted : (format .clear (messagePieces handler.client.name msg)).2 = true) :
    speak room fd handler msg writes =
      if (lineWrites room handler msg writes).2 then
        (room.log fd (lineWrites room handler msg writes).1).setHandler fd
          (some { handler with recvFifo := [] })
      else leave (room.log fd (lineWrites room handler msg writes).1) fd handler.client writes := by
  have text : (format .clear (messagePieces handler.client.name msg)).1.items =
      messageText handler.client.name msg := format_items formatted
  unfold lineWrites
  simp only [speak, formatted, text]
  cases (room.clients.sendMessageFrom writes handler.client
    (messageText handler.client.name msg)).2 <;> rfl

theorem speak_history
    (formatted : (format .clear (messagePieces handler.client.name msg)).2 = true) :
    ∃ more, (speak room fd handler msg writes).history = room.history ++
      ((lineWrites room handler msg writes).1 ++ more).map fun write => (fd, write) := by
  rw [speak_formatted formatted]
  split
  · exact ⟨[], by rw [List.append_nil]; rfl⟩
  · obtain ⟨more, history⟩ := leave_history
      (room.log fd (lineWrites room handler msg writes).1) fd handler.client writes
    refine ⟨more, ?_⟩
    rw [history, List.map_append, ← List.append_assoc]
    rfl

/-- The handler of the sender goes on exactly when the line has been sent. -/
theorem speak_handler
    (formatted : (format .clear (messagePieces handler.client.name msg)).2 = true) :
    (speak room fd handler msg writes).handlers fd ≠ none ↔
      (lineWrites room handler msg writes).2 = true := by
  rw [speak_formatted formatted]
  cases (lineWrites room handler msg writes).2 with
  | true => simp [Room.setHandler]
  | false => simp [leave_handlers]

/-- The sender leaves with the first write that fails. -/
theorem not_broadcasts
    (formatted : (format .clear (messagePieces handler.client.name msg)).2 = true)
    (present : handler.client.name ∈ room.clients.keys)
    (other : Others room.clients handler.client member)
    (fails : writes member.stream (messageText handler.client.name msg) ≠ .all) :
    ¬ Broadcasts room fd handler msg writes (lineWrites room handler msg writes).1 := by
  rintro ⟨-, stays⟩
  obtain ⟨streams, sends, reached⟩ :=
    @sendMessageFrom_present _ _ (messageText handler.client.name msg) writes present
  have unsent : (writeAll writes (messageText handler.client.name msg) streams).2 = false := by
    rw [← Bool.not_eq_true, writeAll_iff]
    exact fun all => fails (all _ ((reached _).mpr ⟨member, other, rfl⟩))
  rw [speak_handler formatted, lineWrites, sends, unsent] at stays
  exact absurd (stays (writeAll_failed unsent)) Bool.false_ne_true

/-- A line that fits the buffer reaches everyone whom it can, and leaves its sender in the room,
exactly when no write of it fails (but for a sender whom the map has lost, who reaches nobody). -/
theorem broadcasts_iff (room : Room) (fd : SocketFd) (handler : Handler) (msg : Bytes)
    (writes : Writes)
    (formatted : (format .clear (messagePieces handler.client.name msg)).2 = true) :
    (∃ more, (speak room fd handler msg writes).history = room.history ++
      ((lineWrites room handler msg writes).1 ++ more).map fun write => (fd, write)) ∧
    (Broadcasts room fd handler msg writes (lineWrites room handler msg writes).1 ↔
      Undisturbed room.clients handler.client writes (messageText handler.client.name msg)) := by
  refine ⟨speak_history formatted, ?_⟩
  by_cases present : handler.client.name ∈ room.clients.keys
  · constructor
    · intro broadcasts
      refine ⟨fun _ member other => ?_, fun absent => absurd present absent⟩
      by_contra fails
      exact not_broadcasts formatted present other fails broadcasts
    · intro undisturbed
      obtain ⟨streams, sends, reached⟩ :=
        @sendMessageFrom_present _ _ (messageText handler.client.name msg) writes present
      have sent : (lineWrites room handler msg writes).2 = true := by
        rw [lineWrites, sends, writeAll_iff]
        intro stream member
        obtain ⟨client, other, rfl⟩ := (reached stream).mp member
        exact undisturbed.found present client other
      refine ⟨fun member other _ => ?_, fun _ => (speak_handler formatted).mpr sent⟩
      rw [lineWrites, sends] at sent ⊢
      rw [writeAll_true sent]
      exact List.mem_map_of_mem ((reached _).mpr ⟨member, other, rfl⟩)
  · have nothing : (lineWrites room handler msg writes).1 = [] := by
      rw [lineWrites, sendMessageFrom_absent present]
    rw [nothing]
    constructor
    · intro broadcasts
      refine ⟨fun found => absurd found present, fun _ member other written => ?_⟩
      exact absurd (broadcasts.delivered member other written) List.not_mem_nil
    · intro undisturbed
      refine ⟨fun member other written => ?_, ?_⟩
      · exact absurd written (undisturbed.lost present member other)
      · rintro ⟨write, member, -⟩
        exact absurd member List.not_mem_nil

/-- Three clients join. -/
def gathered : List Event :=
  [.connect 5 allWritten, typed 5 "alice\n", .connect 6 allWritten, typed 6 "bob\n",
    .connect 7 allWritten, typed 7 "carol\n"]

/-- The second one has gone. -/
def bobGone : Writes := fun stream _ => if stream = 6 then .failed 0 "BrokenPipe" else .all

theorem broadcasts_iff_gathered :
    ∃ room handler, run chatStep .init gathered = some room ∧ room.handlers 5 = some handler ∧
      (Broadcasts room 5 handler (ascii "hi") allWritten
          (lineWrites room handler (ascii "hi") allWritten).1 ↔
        Undisturbed room.clients handler.client allWritten
          (messageText handler.client.name (ascii "hi"))) := by
  have outcome : ((run chatStep .init gathered).bind fun room =>
      (room.handlers 5).map fun handler =>
      (format .clear (messagePieces handler.client.name (ascii "hi"))).2) = some true := by
    decide +kernel
  obtain ⟨room, ran, found⟩ := Option.bind_eq_some_iff.mp outcome
  obtain ⟨handler, runs, formatted⟩ := Option.map_eq_some_iff.mp found
  exact ⟨room, handler, ran, runs,
    (broadcasts_iff room 5 handler (ascii "hi") allWritten formatted).2⟩

/-- A line of the first one is not written to the third one, and the first one is out. -/
theorem line_stops_at_failure :
    ∃ room handler, run chatStep .init gathered = some room ∧ room.handlers 5 = some handler ∧
      (∃ carol, Others room.clients handler.client carol ∧ carol.stream = 7 ∧
        bobGone carol.stream (messageText handler.client.name (ascii "hi")) = .all ∧
        ⟨carol.stream, messageText handler.client.name (ascii "hi"), .all⟩ ∉
          (lineWrites room handler (ascii "hi") bobGone).1) ∧
      (speak room 5 handler (ascii "hi") bobGone).handlers 5 = none ∧
      ¬ Broadcasts room 5 handler (ascii "hi") bobGone
        (lineWrites room handler (ascii "hi") bobGone).1 := by
  have outcome : ((run chatStep .init gathered).bind fun room =>
      (room.handlers 5).map fun handler =>
      ((lineWrites room handler (ascii "hi") bobGone).1.map Write.stream,
        decide (∃ entry ∈ room.clients.entries, entry.1 ≠ handler.client.name ∧
          entry.2.joined = true ∧ entry.2.stream = 7),
        ((speak room 5 handler (ascii "hi") bobGone).handlers 5).isNone)) =
      some ([6], true, true) := by
    decide +kernel
  obtain ⟨room, ran, found⟩ := Option.bind_eq_some_iff.mp outcome
  obtain ⟨handler, runs, outcome⟩ := Option.map_eq_some_iff.mp found
  obtain ⟨streams, others, out⟩ := Prod.mk.inj outcome |>.imp id Prod.mk.inj
  obtain ⟨⟨name, carol⟩, entry, ne, joined, stream⟩ := of_decide_eq_true others
  have other : Others room.clients handler.client carol := ⟨name, entry, ne, joined⟩
  have written : bobGone carol.stream (messageText handler.client.name (ascii "hi")) = .all := by
    rw [stream]
    rfl
  have missed : ⟨carol.stream, messageText handler.client.name (ascii "hi"), .all⟩ ∉
      (lineWrites room handler (ascii "hi") bobGone).1 := by
    intro member
    have streamed := List.mem_map_of_mem (f := Write.stream) member
    rw [streams, List.mem_singleton] at streamed
    exact absurd (stream.symm.trans streamed) (by decide)
  exact ⟨room, handler, ran, runs, ⟨carol, other, stream, written, missed⟩,
    Option.isNone_iff_eq_none.mp out,
    fun broadcasts => missed (broadcasts.delivered carol other written)⟩

end NetworkExercises.BudgetChat.Zig
