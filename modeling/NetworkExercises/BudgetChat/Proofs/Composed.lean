/-
Module: NetworkExercises.BudgetChat.Proofs.Composed
Purpose: What the C server makes of a message: the name and the message are read as texts, of
  which only the memory says where they end.
Main exports: cString_eq_some, composed_eq_some, Written, Written.step, broadcastText,
  handleRequest_broadcasts, expectedText, BroadcastsExactly, Terminated, broadcastText_iff,
  broadcast_exact_iff
-/
import NetworkExercises.BudgetChat.Proofs.UniqueNames

namespace NetworkExercises.BudgetChat.C

open Lib CUtils
open SpeedDaemon (SocketFd)

variable {memory : Nat → UInt8} {size : Nat} {text : Bytes}

/-! ### Texts in memory -/

theorem zero_mem_load : 0 ∈ load memory size ↔ ∃ i < size, memory i = 0 := by
  simp [load]

/-- A text is read up to the first NUL. -/
theorem cString_eq_some :
    cString memory size = some text ↔
      ∃ n < size, memory n = 0 ∧ 0 ∉ load memory n ∧ text = load memory n := by
  have reads : ∀ n < size, memory n = 0 → 0 ∉ load memory n →
      cString memory size = some (load memory n) := by
    intro n inside zero before
    obtain ⟨more, rfl⟩ := Nat.exists_eq_add_of_lt inside
    have split : load memory (n + more + 1) =
        load memory n ++ memory n :: load (fun i => memory (n + (1 + i))) more := by
      rw [Nat.add_assoc, Nat.add_comm more 1, load_add, load_add]
      rfl
    have found : 0 ∈ load memory (n + more + 1) := zero_mem_load.mpr ⟨n, inside, zero⟩
    rw [cString]
    simp only [if_pos found]
    rw [split, List.takeWhile_append_of_pos, List.takeWhile_cons_of_neg, List.append_nil]
    · simpa using zero
    · intro byte member
      rw [decide_eq_true_eq]
      rintro rfl
      exact before member
  constructor
  · intro isText
    have found : 0 ∈ load memory size := by
      by_contra none
      simp [cString, none] at isText
    obtain ⟨i, inside, zero⟩ := zero_mem_load.mp found
    -- The first NUL is no later than the one that was found.
    have exists_ : ∃ n, memory n = 0 := ⟨i, zero⟩
    have first := Nat.find_spec exists_
    have before : 0 ∉ load memory (Nat.find exists_) := by
      rw [zero_mem_load]
      rintro ⟨j, earlier, zero⟩
      exact Nat.find_min exists_ earlier zero
    have inBounds := Nat.lt_of_le_of_lt (Nat.find_min' exists_ zero) inside
    rw [reads _ inBounds first before, Option.some.injEq] at isText
    exact ⟨_, inBounds, first, before, isText.symm⟩
  · rintro ⟨n, inside, zero, before, rfl⟩
    exact reads n inside zero before

/-- A text that is shorter than the buffer is composed as it is; one of the size of the buffer
loses its last byte to the NUL. -/
theorem composed_eq_some {mesg : Bytes} :
    composed text = some mesg ↔
      (text.length < clientMaxComposedMessageSize ∧ mesg = text) ∨
      (text.length = clientMaxComposedMessageSize ∧
        mesg = text.take (clientMaxComposedMessageSize - 1) ++ [0]) := by
  unfold composed
  split
  · next short =>
    have differ := Nat.ne_of_lt short
    simp [short, differ, eq_comm]
  · next long =>
    split
    · next same =>
      simp [same, eq_comm]
    · next differ =>
      simp [long, differ]

/-! ### What history leaves in a client -/

variable {heap start : Heap Client} {cells : List (Ptr × Client)} {p : Ptr} {me changed : Client}
  {sends : Sends} {log : Log}

/-- A client that was opened over this memory: behind its name lies what lay there, and then the
NUL that is written one byte too far. -/
structure Written (memory : Nat → UInt8) (client : Client) : Prop where
  valid : client.recvQu.Valid
  unnamed : client.named = false → client.name = memory
  proper : client.named = true → Proper client.called
  behind : client.named = true → client.name client.nameSize = memory client.nameSize
  ends : client.named = true → client.name (client.nameSize + 1) = 0

theorem written_opened (fd : SocketFd) (memory : Malloc) :
    Written (Function.update memory.name 0 0) (opened fd memory) := by
  have unnamed : (opened fd memory).named = false := by simp [Client.named, opened]
  have holds : Holds (queueInit memory.data 1024) [] := holds_init memory.data (by decide)
  refine ⟨holds.valid, fun _ => rfl, ?_, ?_, ?_⟩ <;>
  · rw [unnamed]
    intro named
    cases named

/-- A request keeps it so, accepted or not. -/
theorem Written.step (written : Written memory me) (changes : Changed cells me changed) :
    Written memory changed := by
  cases changes.name with
  | kept nameEq sizeEq =>
      obtain ⟨namedEq, calledEq⟩ := called_eq_of_kept nameEq sizeEq
      refine ⟨changes.valid written.valid, ?_, ?_, ?_, ?_⟩
      · rw [namedEq, nameEq]
        exact written.unnamed
      · rw [namedEq, calledEq]
        exact written.proper
      · rw [namedEq, nameEq, sizeEq]
        exact written.behind
      · rw [namedEq, nameEq, sizeEq]
        exact written.ends
  | accepted unnamed data name proper unused taken copied sizeEq =>
      have called : changed.called = name := by
        rw [Client.called, sizeEq, copied, load_copyName, taken]
      have named : changed.named = true := by
        have first : copyName me.name data name.length 0 = data 0 := if_pos proper.nonempty
        have member : data 0 ∈ name := by
          rw [← taken]
          exact List.mem_map_of_mem (List.mem_range.mpr proper.nonempty)
        rw [Client.named, copied, first]
        exact decide_eq_true (proper.ne_zero member)
      refine ⟨changes.valid written.valid, ?_, fun _ => called ▸ proper, fun _ => ?_, fun _ => ?_⟩
      · rw [named]
        intro absurdity
        cases absurdity
      · rw [copied, sizeEq, copyName, if_neg (Nat.lt_irrefl _),
          if_neg (Nat.ne_of_lt (Nat.lt_succ_self _)), written.unnamed unnamed]
      · rw [copied, sizeEq, copyName, if_neg (Nat.not_lt_of_le (Nat.le_succ _)), if_pos rfl]

/-- Any run of requests by any clients keeps it so. -/
theorem written_run {fd : SocketFd} {memory : Malloc} (wellLinked : WellLinked start cells)
    (member : (p, opened fd memory) ∈ cells) {requests : List Request} {now : Heap Client × Log}
    (ran : run (requestStep sends) (start, log) requests = some now) :
    ∃ cells client, WellLinked now.1 cells ∧ (p, client) ∈ cells ∧
      Written (Function.update memory.name 0 0) client := by
  refine run_preserves (fun state => ∃ cells client, WellLinked state.1 cells ∧
    (p, client) ∈ cells ∧ Written (Function.update memory.name 0 0) client) ?_
    ⟨cells, _, wellLinked, member, written_opened fd memory⟩ ran
  rintro state request next ⟨cells, client, linked, isClient, written⟩ step
  obtain ⟨front, q, me, back, changed, rfl, linkedAfter, changes⟩ :=
    requestStep_changes linked step
  by_cases same : p = q
  · subst same
    cases linked.cell_unique isClient List.mem_append_cons_self rfl
    exact ⟨_, changed, linkedAfter, List.mem_append_cons_self,
      written.step changes⟩
  · exact ⟨_, client, linkedAfter, (mem_changed_iff same).mpr isClient, written⟩

/-! ### The text of a broadcast -/

/-- The text that is broadcast for what is pending. -/
def broadcastText (client : Client) : Option Bytes := do
  let name ← client.text
  let msg ← cString client.pop.recvQu.data client.pop.recvQu.capacity
  composed (ascii "[" ++ name ++ ascii "] " ++ msg)

/-- The message that is pending, without its last byte. -/
def Client.message (client : Client) : Bytes := client.recvQu.contents.dropLast

/-- A message of an allowed length is broadcast as this text. -/
theorem handleRequest_broadcasts {node : Node Client} (isNode : heap.node p = some node)
    (named : node.item.named = true) (nonempty : 1 ≤ node.item.message.length)
    (short : node.item.message.length ≤ clientMaxMessageSize) :
    clientHandleRequest sends heap p log =
      (broadcastText node.item).bind fun mesg =>
        (clientBroadcastMessageFrom sends (heap.setItem p node.item.pop) p mesg log).map
          fun log => (1, heap.setItem p node.item.pop, log) := by
  have size : toSizeT ((queuePopNoCopy node.item.recvQu).1 - 1) = node.item.message.length := by
    rw [Client.message, List.length_dropLast, Queue.contents, load_length] at *
    unfold clientMaxMessageSize at short
    rw [popNoCopy_fst, toInt_of_lt (by omega), toSizeT_pred_of_pos (by omega) (by omega)]
    rfl
  simp only [clientHandleRequest, isNode, Option.bind_eq_bind, Option.bind_some, named,
    Bool.not_true, Bool.false_eq_true, if_false, size]
  rw [if_neg (Nat.ne_of_gt nonempty), if_neg (Nat.not_lt_of_le short)]
  simp only [broadcastText, Option.bind_eq_bind, Option.bind_assoc, Option.map_eq_bind]
  rfl

/-! ### When it is right -/

/-- The name in brackets, and the message without its last byte. -/
def expectedText (client : Client) : Bytes :=
  ascii "[" ++ client.called ++ ascii "] " ++ client.message

/-- This is broadcast, and it fits the buffer. -/
structure BroadcastsExactly (client : Client) : Prop where
  text : broadcastText client = some (expectedText client)
  fits : (expectedText client).length ≤ clientMaxComposedMessageSize

/-- There is a NUL where `malloc` left the byte behind the name, the last pending byte is the
first one that is NUL, and the buffer has a byte to spare. -/
structure Terminated (memory : Nat → UInt8) (called pending : Bytes) : Prop where
  name : memory called.length = 0
  last : pending.getLast? = some 0
  inside : 0 ∉ pending.dropLast
  fits : called.length + pending.dropLast.length + 3 < clientMaxComposedMessageSize

@[simp] theorem popNoCopy_capacity (qu : Queue) : (queuePopNoCopy qu).2.capacity = qu.capacity := by
  unfold queuePopNoCopy
  split <;> rfl

theorem load_succ (data : Nat → UInt8) (size : Nat) :
    load data (size + 1) = load data size ++ [data size] := by
  rw [load_add]
  rfl

section Text

variable {client : Client} (written : Written memory client) (named : client.named = true)
include written named

/-- The name is read as it is, or with the byte behind it. -/
theorem Written.text_eq :
    client.text = some (if memory client.nameSize = 0 then client.called
      else client.called ++ [memory client.nameSize]) := by
  have proper := written.proper named
  have short : client.nameSize < clientMaxName := by
    simpa [Client.called] using proper.short
  have noZero : 0 ∉ load client.name client.nameSize := fun member => proper.ne_zero member rfl
  rw [Client.text, cString_eq_some]
  split
  · next zero =>
    rw [← written.behind named] at zero
    exact ⟨client.nameSize, by omega, zero, noZero, rfl⟩
  · next nonzero =>
    rw [← written.behind named] at nonzero ⊢
    refine ⟨client.nameSize + 1, Nat.succ_lt_succ short, written.ends named, ?_, ?_⟩
    · rw [load_succ, List.mem_append, List.mem_singleton]
      rintro (member | zero)
      · exact noZero member
      · exact nonzero zero.symm
    · rw [load_succ]
      rfl

end Text

/-- What is read as the message lies in the queue up to the first NUL. -/
theorem message_read {qu : Queue} {msg : Bytes} :
    cString (queuePopNoCopy qu).2.data (queuePopNoCopy qu).2.capacity = some msg ↔
      ∃ n < qu.capacity, qu.data n = 0 ∧ 0 ∉ load qu.data n ∧ msg = load qu.data n := by
  rw [popNoCopy_data, popNoCopy_capacity, cString_eq_some]

theorem getLast?_load {data : Nat → UInt8} (positive : 0 < size) :
    (load data size).getLast? = some (data (size - 1)) := by
  obtain ⟨size, rfl⟩ := Nat.exists_eq_succ_of_ne_zero (Nat.ne_of_gt positive)
  rw [load_succ, List.getLast?_concat]
  rfl

/-- The message is read as it is exactly when the last pending byte is the first NUL. -/
theorem message_eq_iff {qu : Queue} (valid : qu.Valid)
    (nonempty : 1 ≤ qu.contents.dropLast.length) :
    cString (queuePopNoCopy qu).2.data (queuePopNoCopy qu).2.capacity = some qu.contents.dropLast ↔
      qu.contents.getLast? = some 0 ∧ 0 ∉ qu.contents.dropLast := by
  rw [Queue.contents, dropLast_load, load_length] at *
  rw [message_read, getLast?_load (by omega), Option.some.injEq]
  constructor
  · rintro ⟨n, inside, zero, before, same⟩
    have length := congrArg List.length same
    rw [load_length, load_length] at length
    rw [length]
    exact ⟨zero, before⟩
  · rintro ⟨zero, before⟩
    have room := valid.room
    exact ⟨qu.size - 1, by omega, zero, before, rfl⟩

/-- A message that contains a NUL is not read to its end. -/
theorem message_short {qu : Queue} {msg : Bytes}
    (read : cString (queuePopNoCopy qu).2.data (queuePopNoCopy qu).2.capacity = some msg)
    (zero : 0 ∈ qu.contents.dropLast) : msg.length < qu.contents.dropLast.length := by
  obtain ⟨n, -, -, before, rfl⟩ := message_read.mp read
  rw [Queue.contents, dropLast_load, zero_mem_load] at zero
  obtain ⟨i, inside, zero⟩ := zero
  rw [Queue.contents, dropLast_load, load_length, load_length]
  by_contra longer
  exact before (zero_mem_load.mpr ⟨i, by omega, zero⟩)

/-- Before its last byte, the composed message is the text. -/
theorem composed_getElem? {mesg : Bytes} (composes : composed text = some mesg) {i : Nat}
    (inside : i + 1 < clientMaxComposedMessageSize) : mesg[i]? = text[i]? := by
  rcases composed_eq_some.mp composes with ⟨-, rfl⟩ | ⟨length, rfl⟩
  · rfl
  · rw [List.getElem?_append_left, List.getElem?_take_of_lt (by omega)]
    rw [List.length_take, length]
    omega

@[simp] theorem ascii_bracket : ascii "[" = [91] := by decide

@[simp] theorem ascii_bracket_end : ascii "] " = [93, 32] := by decide

/-- A byte behind the name shows in the text, whatever the message is: the bracket is not where it
belongs. -/
theorem behind_shows {called msg : Bytes} {byte : UInt8} (message : Bytes)
    (short : called.length < clientMaxName) :
    composed (ascii "[" ++ (called ++ [byte]) ++ ascii "] " ++ msg) ≠
      some (ascii "[" ++ called ++ ascii "] " ++ message) := by
  intro composes
  have inside : called.length + 2 + 1 < clientMaxComposedMessageSize :=
    Nat.lt_trans (Nat.add_lt_add_right short 3) (by decide)
  have same := composed_getElem? composes inside
  have expected : (ascii "[" ++ called ++ ascii "] " ++ message)[called.length + 2]? = some 32 := by
    have length : (ascii "[" ++ called ++ [93]).length = called.length + 2 := by simp
    have split : ascii "[" ++ called ++ ascii "] " ++ message =
        (ascii "[" ++ called ++ [93]) ++ 32 :: message := by simp
    rw [split, ← length, List.getElem?_append_right (le_refl _), Nat.sub_self]
    rfl
  have found : (ascii "[" ++ (called ++ [byte]) ++ ascii "] " ++ msg)[called.length + 2]? =
      some 93 := by
    have length : (ascii "[" ++ (called ++ [byte])).length = called.length + 2 := by simp
    have split : ascii "[" ++ (called ++ [byte]) ++ ascii "] " ++ msg =
        (ascii "[" ++ (called ++ [byte])) ++ 93 :: 32 :: msg := by simp
    rw [split, ← length, List.getElem?_append_right (le_refl _), Nat.sub_self]
    rfl
  rw [expected, found] at same
  cases same

/-- With the name as it is, the text is right exactly when the message is read as it is and the
buffer has a byte to spare. -/
theorem composed_expected_iff {qu : Queue} (valid : qu.Valid) (called : Bytes)
    (nonempty : 1 ≤ qu.contents.dropLast.length) :
    ((cString (queuePopNoCopy qu).2.data (queuePopNoCopy qu).2.capacity).bind fun msg =>
        composed (ascii "[" ++ called ++ ascii "] " ++ msg)) =
      some (ascii "[" ++ called ++ ascii "] " ++ qu.contents.dropLast) ↔
    (qu.contents.getLast? = some 0 ∧ 0 ∉ qu.contents.dropLast) ∧
      called.length + qu.contents.dropLast.length + 3 < clientMaxComposedMessageSize := by
  have length : ∀ msg : Bytes, (ascii "[" ++ called ++ ascii "] " ++ msg).length =
      called.length + msg.length + 3 := by
    intro msg
    simp
    omega
  rw [← message_eq_iff valid nonempty, Option.bind_eq_some_iff]
  constructor
  · rintro ⟨msg, read, composes⟩
    rcases composed_eq_some.mp composes with ⟨short, same⟩ | ⟨full, same⟩
    · have isMessage := List.append_cancel_left same
      rw [length] at short
      rw [← isMessage] at read short
      exact ⟨read, short⟩
    · -- The last byte of the message would be NUL, but then it is not read to its end.
      have isSome : qu.contents.dropLast ≠ [] := List.ne_nil_of_length_pos nonempty
      have lengths := congrArg List.length same
      have ends := congrArg List.getLast? same
      rw [List.getLast?_concat, List.getLast?_append_of_ne_nil _ isSome] at ends
      have shorter := message_short read (List.mem_of_getLast? ends)
      rw [length, List.length_append, List.length_take, full, List.length_singleton] at lengths
      rw [length] at full
      omega
  · rintro ⟨read, fits⟩
    refine ⟨_, read, composed_eq_some.mpr (.inl ⟨?_, rfl⟩)⟩
    rw [length]
    exact fits

/-- The text is right exactly when the byte behind the name is NUL and the message is read as it
is. -/
theorem Written.text_iff {client : Client} (written : Written memory client)
    (named : client.named = true) (nonempty : 1 ≤ client.message.length) :
    broadcastText client = some (expectedText client) ↔
      memory client.called.length = 0 ∧
        (client.recvQu.contents.getLast? = some 0 ∧ 0 ∉ client.recvQu.contents.dropLast) ∧
        client.called.length + client.recvQu.contents.dropLast.length + 3 <
          clientMaxComposedMessageSize := by
  have lengthEq : client.called.length = client.nameSize := load_length _ _
  rw [← composed_expected_iff written.valid client.called nonempty]
  by_cases zero : memory client.nameSize = 0
  · rw [lengthEq, broadcastText, written.text_eq named, if_pos zero]
    exact (and_iff_right zero).symm
  · rw [lengthEq]
    refine iff_of_false (fun same => ?_) fun both => zero both.1
    rw [broadcastText, written.text_eq named, if_neg zero] at same
    obtain ⟨name, ⟨⟩, same⟩ := Option.bind_eq_some_iff.mp same
    obtain ⟨msg, -, composes⟩ := Option.bind_eq_some_iff.mp same
    exact behind_shows client.message (written.proper named).short composes

theorem expectedText_length (client : Client) :
    (expectedText client).length =
      client.called.length + client.recvQu.contents.dropLast.length + 3 := by
  simp [expectedText, Client.message]
  omega

/-- What is broadcast for a message of an allowed length is right exactly when the memory happens
to end the name and the message where they end. -/
theorem Written.exact_iff {client : Client} (written : Written memory client)
    (named : client.named = true) (nonempty : 1 ≤ client.message.length) :
    BroadcastsExactly client ↔ Terminated memory client.called client.recvQu.contents := by
  have text := written.text_iff named nonempty
  constructor
  · intro exactly
    obtain ⟨name, ⟨last, inside⟩, fits⟩ := text.mp exactly.text
    exact ⟨name, last, inside, fits⟩
  · rintro ⟨name, last, inside, fits⟩
    refine ⟨text.mpr ⟨name, ⟨last, inside⟩, fits⟩, ?_⟩
    rw [expectedText_length]
    exact Nat.le_of_lt fits

/-- At any time in any history of a client, on any list and over any memory, a message of an
allowed length is broadcast as the name in brackets and the message without its last byte exactly
when memory ends both texts there. -/
theorem broadcast_exact_iff {fd : SocketFd} {memory : Malloc} (wellLinked : WellLinked start cells)
    (member : (p, opened fd memory) ∈ cells) {requests : List Request} {now : Heap Client × Log}
    (ran : run (requestStep sends) (start, log) requests = some now) :
    ∃ node, now.1.node p = some node ∧
      (node.item.named = true → 1 ≤ node.item.message.length →
        node.item.message.length ≤ clientMaxMessageSize →
          clientHandleRequest sends now.1 p now.2 =
            ((broadcastText node.item).bind fun mesg =>
              (clientBroadcastMessageFrom sends (now.1.setItem p node.item.pop) p mesg now.2).map
                fun log => (1, now.1.setItem p node.item.pop, log)) ∧
          (BroadcastsExactly node.item ↔
            Terminated memory.name node.item.called node.item.recvQu.contents)) := by
  obtain ⟨cells, client, linked, isClient, written⟩ := written_run wellLinked member ran
  obtain ⟨node, isNode, rfl⟩ := linked.node_of_mem isClient
  refine ⟨node, isNode, fun named nonempty short => ?_⟩
  refine ⟨handleRequest_broadcasts isNode named nonempty short, ?_⟩
  rw [written.exact_iff named nonempty]
  -- The first byte was set to NUL, but it is never the one behind the name.
  have behind : Function.update memory.name 0 0 node.item.called.length =
      memory.name node.item.called.length :=
    Function.update_of_ne (Nat.ne_of_gt (written.proper named).nonempty) _ _
  constructor
  · rintro ⟨name, last, inside, fits⟩
    exact ⟨behind ▸ name, last, inside, fits⟩
  · rintro ⟨name, last, inside, fits⟩
    exact ⟨behind.trans name, last, inside, fits⟩

section Leftovers

/-- Memory that is zero. -/
def zeroed : Malloc := ⟨fun _ => 0, 0, fun _ => 0⟩

/-- `alice` has joined, and a message of hers has arrived. -/
def greeting : List Request :=
  speaks 0 (ascii "alice\n") (by decide) ++
    [.receive 0 ⟨[ascii "hi\n"], .wouldBlock, SpeedDaemon.atOnce_nonempty (by decide)⟩]

theorem greeting_runs :
    ∃ now node, run (requestStep joiningSends) (openedHeap zeroed, []) greeting = some now ∧
      now.1.node 0 = some node ∧ node.item.named = true ∧ node.item.called = ascii "alice" ∧
      node.item.message = ascii "hi" ∧
      broadcastText node.item = some (ascii "[alice] hi\nhe room contains: ") := by
  have runs : (run (requestStep joiningSends) (openedHeap zeroed, []) greeting).bind (fun now =>
      (now.1.node 0).map fun node => (node.item.named, node.item.called, node.item.message,
        broadcastText node.item)) =
      some (true, ascii "alice", ascii "hi", some (ascii "[alice] hi\nhe room contains: ")) := by
    decide +kernel
  obtain ⟨now, ran, rest⟩ := Option.bind_eq_some_iff.mp runs
  obtain ⟨node, isNode, same⟩ := Option.map_eq_some_iff.mp rest
  rw [Prod.mk.injEq, Prod.mk.injEq, Prod.mk.injEq] at same
  exact ⟨now, node, ran, isNode, same⟩

theorem broadcast_exact_iff_greeting :
    ∃ now node, run (requestStep joiningSends) (openedHeap zeroed, []) greeting = some now ∧
      now.1.node 0 = some node ∧
      (BroadcastsExactly node.item ↔
        Terminated zeroed.name node.item.called node.item.recvQu.contents) := by
  obtain ⟨now, node, ran, isNode, named, -, message, -⟩ := greeting_runs
  obtain ⟨other, isOther, exact_⟩ :=
    broadcast_exact_iff (wellLinked_opened zeroed) (.head _) ran
  rw [isNode, Option.some.injEq] at isOther
  subst isOther
  refine ⟨now, node, ran, isNode, (exact_ named ?_ ?_).2⟩
  · rw [message]
    decide
  · rw [message]
    decide

/-- Behind the message of `alice`, what the queue held before is broadcast. -/
theorem leftovers_broadcast :
    WellLinked (openedHeap zeroed) (openedCells zeroed) ∧
    ∃ now node, run (requestStep joiningSends) (openedHeap zeroed, []) greeting = some now ∧
      now.1.node 0 = some node ∧ node.item.named = true ∧ node.item.called = ascii "alice" ∧
      node.item.message = ascii "hi" ∧
      broadcastText node.item = some (ascii "[alice] hi\nhe room contains: ") ∧
      ¬ BroadcastsExactly node.item := by
  obtain ⟨now, node, ran, isNode, named, called, message, text⟩ := greeting_runs
  refine ⟨wellLinked_opened zeroed, now, node, ran, isNode, named, called, message, text, ?_⟩
  intro exactly
  have same := text.symm.trans exactly.text
  rw [expectedText, called, message] at same
  revert same
  decide

end Leftovers

end NetworkExercises.BudgetChat.C
