/-
Module: NetworkExercises.BudgetChat.Proofs.Recipients
Purpose: Whom the C server sends a broadcast to: the first client of the list, once for every
  client that it is meant for.
Main exports: clientFirst_eq, sendAsserted_eq_some, foldlM_sends, broadcastFrom_eq, Delivered,
  recipients, FirstOnly, broadcast_delivered_iff
-/
import NetworkExercises.BudgetChat.C.Client

namespace NetworkExercises.BudgetChat.C

open Lib CUtils
open SpeedDaemon (SocketFd)

variable {heap : Heap Client} {cells : List (Ptr × Client)} {first : Ptr × Client} {p : Ptr}
  {me : Client} {sends : Sends} {log sent : Log} {fd : SocketFd} {msg : Bytes}

/-! ### One call after the other -/

/-- A call that the assertion lets pass. -/
theorem sendAsserted_eq_some :
    sendAsserted sends log fd msg = some sent ↔
      fd ≠ 0 ∧ msg ≠ [] ∧ ∃ handed, sendall msg (sends log.length) = some (handed, 0) ∧
        sent = log ++ [(fd, handed)] := by
  unfold sendAsserted
  by_cases refused : fd = 0 ∨ msg = []
  · rw [if_pos refused]
    rcases refused with none | none <;> simp [none]
  · rw [if_neg refused]
    obtain ⟨positive, nonempty⟩ := not_or.mp refused
    constructor
    · intro passes
      split at passes
      · next handed answered =>
        rw [Option.some.injEq] at passes
        exact ⟨positive, nonempty, handed, answered, passes.symm⟩
      · cases passes
    · rintro ⟨-, -, handed, answered, rfl⟩
      simp only [answered]

/-- These are calls of `sendall` with the message that returned 0. -/
def CallsWith (msg : Bytes) (calls : Log) : Prop :=
  ∀ call ∈ calls, ∃ answers, sendall msg answers = some (call.2, 0)

/-- A loop that sends to one descriptor for every client of some kind. -/
theorem foldlM_sends (test : Client → Bool)
    (ran : cells.foldlM (fun log cell =>
      if test cell.2 then sendAsserted sends log fd msg else some log) log = some sent) :
    ∃ calls, sent = log ++ calls ∧
      calls.map Prod.fst = List.replicate (cells.filter fun cell => test cell.2).length fd ∧
      CallsWith msg calls := by
  induction cells generalizing log with
  | nil =>
      cases ran
      exact ⟨[], (List.append_nil _).symm, rfl, List.forall_mem_nil _⟩
  | cons cell cells ih =>
      rw [List.foldlM_cons] at ran
      obtain ⟨middle, now, later⟩ := Option.bind_eq_some_iff.mp ran
      obtain ⟨calls, sentEq, descriptors, with_⟩ := ih later
      cases passes : test cell.2 with
      | false =>
          rw [passes] at now
          cases now
          rw [List.filter_cons_of_neg (by simp [passes])]
          exact ⟨calls, sentEq, descriptors, with_⟩
      | true =>
          rw [passes, if_pos rfl] at now
          obtain ⟨-, -, handed, answered, rfl⟩ := sendAsserted_eq_some.mp now
          rw [List.filter_cons_of_pos (by simp [passes])]
          refine ⟨(fd, handed) :: calls, ?_, ?_, ?_⟩
          · rw [sentEq, List.append_assoc, List.singleton_append]
          · rw [List.map_cons, descriptors, List.length_cons, List.replicate_succ]
          · exact List.forall_mem_cons.mpr ⟨⟨_, answered⟩, with_⟩

/-- The loop goes on to the end when every message is taken. -/
theorem foldlM_sends_returns (test : Client → Bool) (positive : fd ≠ 0) (nonempty : msg ≠ [])
    (taken : ∀ i, sendall msg (sends i) = some (msg, 0)) (log : Log) :
    ∃ sent, cells.foldlM (fun log cell =>
      if test cell.2 then sendAsserted sends log fd msg else some log) log = some sent := by
  induction cells generalizing log with
  | nil => exact ⟨log, rfl⟩
  | cons cell cells ih =>
      rw [List.foldlM_cons]
      cases test cell.2 with
      | false => exact ih log
      | true =>
          have passes : sendAsserted sends log fd msg = some (log ++ [(fd, msg)]) :=
            sendAsserted_eq_some.mpr ⟨positive, nonempty, msg, taken _, rfl⟩
          rw [if_pos rfl, passes]
          exact ih _

/-! ### The loops of the broadcasts -/

theorem clientFirst_eq (wellLinked : WellLinked heap cells) (member : (p, me) ∈ cells) :
    ∃ first others, cells = first :: others ∧ clientFirst heap p = some first.1 :=
  wellLinked.walk_first member

/-- The message is sent to the first client for every other client with a name. -/
theorem broadcastFrom_eq (wellLinked : WellLinked heap cells) (member : (p, me) ∈ cells)
    (sends : Sends) (msg : Bytes) (log : Log) :
    ∃ first others, cells = first :: others ∧
      clientBroadcastMessageFrom sends heap p msg log =
        cells.foldlM (fun log cell =>
          if isOtherNamed me.id cell.2 then sendAsserted sends log first.2.id msg else some log)
          log := by
  obtain ⟨first, others, rfl, isFirst⟩ := clientFirst_eq wellLinked member
  obtain ⟨node, isNode, rfl⟩ := wellLinked.node_of_mem member
  obtain ⟨firstNode, isFirstNode, itemEq⟩ := wellLinked.node_of_mem (List.mem_cons_self ..)
  refine ⟨first, others, rfl, ?_⟩
  simp only [clientBroadcastMessageFrom, isNode, isFirst, isFirstNode, itemEq,
    Option.bind_eq_bind, Option.bind_some]
  exact wellLinked.visit_all _ log

/-- The message is sent to the first client for every client with a name. -/
theorem broadcastToAll_eq (wellLinked : WellLinked heap cells) (member : (p, me) ∈ cells)
    (sends : Sends) (msg : Bytes) (log : Log) :
    ∃ first others, cells = first :: others ∧
      clientBroadcastMessageToAll sends heap p msg log =
        cells.foldlM (fun log cell =>
          if cell.2.named then sendAsserted sends log first.2.id msg else some log) log := by
  obtain ⟨first, others, rfl, isFirst⟩ := clientFirst_eq wellLinked member
  obtain ⟨firstNode, isFirstNode, itemEq⟩ := wellLinked.node_of_mem (List.mem_cons_self ..)
  refine ⟨first, others, rfl, ?_⟩
  simp only [clientBroadcastMessageToAll, isFirst, isFirstNode, itemEq,
    Option.bind_eq_bind, Option.bind_some]
  exact wellLinked.visit_all _ log

/-! ### Who gets the message -/

/-- The message went to these descriptors, to each as often as it is listed, and to no other. -/
structure Delivered (msg : Bytes) (descriptors : List SocketFd) (calls : Log) : Prop where
  once : (calls.map Prod.fst).Perm descriptors
  message : CallsWith msg calls

/-- The descriptors of the clients of some kind. -/
def descriptorsOf (test : Client → Bool) (cells : List (Ptr × Client)) : List SocketFd :=
  (cells.filter fun cell => test cell.2).map fun cell => cell.2.id

/-- The descriptors of the clients other than the sender that have a name. -/
def recipients (me : SocketFd) : List (Ptr × Client) → List SocketFd :=
  descriptorsOf (isOtherNamed me)

/-- Every client of some kind is the first of the list. -/
def FirstOnly (test : Client → Bool) (cells : List (Ptr × Client)) : Prop :=
  ∀ cell ∈ cells, test cell.2 = true → cells.head? = some cell

/-- As many calls for the first client as there are clients of a kind reach exactly these when
none but the first is one. -/
theorem delivered_iff_firstOnly {others : List (Ptr × Client)} {calls : Log}
    (distinct : ((first :: others).map fun cell => cell.2.id).Nodup) (test : Client → Bool)
    (descriptors : calls.map Prod.fst =
      List.replicate ((first :: others).filter fun cell => test cell.2).length first.2.id)
    (with_ : CallsWith msg calls) :
    Delivered msg (descriptorsOf test (first :: others)) calls ↔
      FirstOnly test (first :: others) := by
  have alone : ∀ cell ∈ first :: others, cell.2.id = first.2.id → cell = first :=
    fun cell member same => List.inj_on_of_nodup_map distinct member (List.mem_cons_self ..) same
  constructor
  · intro delivered cell member passes
    have same := delivered.once
    rw [descriptors, List.replicate_perm, eq_comm] at same
    have chosen : cell.2.id ∈ descriptorsOf test (first :: others) :=
      List.mem_map_of_mem (List.mem_filter.mpr ⟨member, passes⟩)
    rw [same] at chosen
    rw [alone cell member (List.eq_of_mem_replicate chosen), List.head?_cons]
  · intro firstOnly
    refine ⟨?_, with_⟩
    rw [descriptors, List.replicate_perm, eq_comm, List.eq_replicate_iff]
    refine ⟨by rw [descriptorsOf, List.length_map], ?_⟩
    intro id chosen
    obtain ⟨cell, isChosen, rfl⟩ := List.mem_map.mp chosen
    obtain ⟨member, passes⟩ := List.mem_filter.mp isChosen
    rw [Option.some.inj (firstOnly cell member passes)]

/-- A message from a client reaches exactly the others with a name when none of them is behind
the first client; and the loop of the broadcast goes on to its end when every message is taken. -/
theorem broadcast_delivered_iff (wellLinked : WellLinked heap cells)
    (distinct : (cells.map fun cell => cell.2.id).Nodup) (member : (p, me) ∈ cells)
    (sends : Sends) (msg : Bytes) (log : Log) :
    (∀ sent, clientBroadcastMessageFrom sends heap p msg log = some sent →
      ∃ calls, sent = log ++ calls ∧
        (Delivered msg (recipients me.id cells) calls ↔
          FirstOnly (isOtherNamed me.id) cells)) ∧
    ((∀ cell ∈ cells, cell.2.id ≠ 0) → msg ≠ [] →
      (∀ i, sendall msg (sends i) = some (msg, 0)) →
        ∃ sent, clientBroadcastMessageFrom sends heap p msg log = some sent) := by
  obtain ⟨first, others, rfl, loop⟩ := broadcastFrom_eq wellLinked member sends msg log
  rw [loop]
  constructor
  · intro sent ran
    obtain ⟨calls, sentEq, descriptors, with_⟩ := foldlM_sends (isOtherNamed me.id) ran
    exact ⟨calls, sentEq, delivered_iff_firstOnly distinct _ descriptors with_⟩
  · intro positive nonempty taken
    exact foldlM_sends_returns _ (positive first (List.mem_cons_self ..)) nonempty taken log

/-- The same of a message to all: it reaches the clients with a name when none of them is behind
the first client. -/
theorem broadcastToAll_delivered_iff (wellLinked : WellLinked heap cells)
    (distinct : (cells.map fun cell => cell.2.id).Nodup) (member : (p, me) ∈ cells)
    (ran : clientBroadcastMessageToAll sends heap p msg log = some sent) :
    ∃ calls, sent = log ++ calls ∧
      (Delivered msg (descriptorsOf Client.named cells) calls ↔
        FirstOnly Client.named cells) := by
  obtain ⟨first, others, rfl, loop⟩ := broadcastToAll_eq wellLinked member sends msg log
  rw [loop] at ran
  obtain ⟨calls, sentEq, descriptors, with_⟩ := foldlM_sends Client.named ran
  exact ⟨calls, sentEq, delivered_iff_firstOnly distinct _ descriptors with_⟩

section Trio

/-- A client that has taken a name, over memory that is zero. -/
def clientCalled (id : SocketFd) (name : Bytes) : Client :=
  ⟨id, fun i => name.getD i 0, name.length, queueInit (fun _ => 0) 1024⟩

/-- Three clients, `a`, `b` and `c`. -/
def trioCells : List (Ptr × Client) :=
  [(0, clientCalled 5 [97]), (1, clientCalled 6 [98]), (2, clientCalled 7 [99])]

def trio : Heap Client :=
  append (append (Heap.empty.alloc ⟨clientCalled 5 [97], none, none⟩) 0 (clientCalled 6 [98])) 1
    (clientCalled 7 [99])

theorem wellLinked_trio : WellLinked trio trioCells :=
  wellLinked_append (wellLinked_append (wellLinked_alloc wellLinked_empty _) rfl _) rfl _

/-- Every call takes two bytes. -/
def twoTaken : Sends := fun _ => ⟨4096, 0, false, [.sent 2]⟩

theorem broadcast_delivered_iff_trio :
    ∃ calls, clientBroadcastMessageFrom twoTaken trio 1 [104, 105] [] = some calls ∧
      (Delivered [104, 105] (recipients 6 trioCells) calls ↔
        FirstOnly (isOtherNamed 6) trioCells) := by
  have member : (1, clientCalled 6 [98]) ∈ trioCells := .tail _ (.head _)
  obtain ⟨delivers, returns⟩ :=
    broadcast_delivered_iff wellLinked_trio (by decide) member twoTaken [104, 105] []
  obtain ⟨sent, ran⟩ := returns (by simp [trioCells, clientCalled]) (by decide) fun _ => rfl
  obtain ⟨calls, sentEq, iff_⟩ := delivers sent ran
  rw [List.nil_append] at sentEq
  exact ⟨calls, by rw [← sentEq, ran], iff_⟩

/-- A message from `b` is sent to `a` twice, and not to `c`. -/
theorem broadcast_misses_last :
    WellLinked trio trioCells ∧ (trioCells.map fun cell => cell.2.id).Nodup ∧
      (1, clientCalled 6 [98]) ∈ trioCells ∧ recipients 6 trioCells = [5, 7] ∧
      clientBroadcastMessageFrom twoTaken trio 1 [104, 105] [] =
        some [(5, [104, 105]), (5, [104, 105])] ∧
      ¬ Delivered [104, 105] (recipients 6 trioCells) [(5, [104, 105]), (5, [104, 105])] := by
  refine ⟨wellLinked_trio, by decide, .tail _ (.head _), by decide, by decide, ?_⟩
  intro delivered
  have once := delivered.once
  revert once
  decide

end Trio

end NetworkExercises.BudgetChat.C
