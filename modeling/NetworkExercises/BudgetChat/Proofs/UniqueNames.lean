/-
Module: NetworkExercises.BudgetChat.Proofs.UniqueNames
Purpose: What requests do to the clients of the C server, and that over any run of them the names
  that are accepted are proper, differ from one another and stay as they are.
Main exports: Request, requestStep, NameChange, Changed, requestStep_changes, AcceptedAs,
  NamesApart, accepted_names_kept
-/
import NetworkExercises.BudgetChat.Proofs.Usernames
import NetworkExercises.Lib.Run

namespace NetworkExercises.BudgetChat.C

open Lib CUtils
open SpeedDaemon (SocketFd Arrival)

/-- What happens to a client: it receives bytes, or its pending bytes are handled. -/
inductive Request where
  | receive (c : Ptr) (arrival : Arrival)
  | handle (c : Ptr)

/-- `recv_request` into the queue of a client, or `client_handle_request`. -/
def requestStep (sends : Sends) (state : Heap Client × Log) :
    Request → Option (Heap Client × Log)
  | .receive c arrival => do
      let node ← state.1.node c
      let (_, recvQu) ← recvRequest node.item.recvQu arrival
      return (state.1.setItem c { node.item with recvQu := recvQu }, state.2)
  | .handle c => (clientHandleRequest sends state.1 c state.2).map Prod.snd

variable {heap after : Heap Client} {front back cells : List (Ptr × Client)} {p q : Ptr}
  {me changed : Client} {name : Bytes} {sends : Sends} {log sent : Log} {request : Request}
  {result : Int}

/-! ### What a request changes -/

/-- The name of a client stays, or it is the one that the client is accepted under, with which no
other begins. -/
inductive NameChange (cells : List (Ptr × Client)) (me changed : Client) : Prop where
  | kept (name : changed.name = me.name) (nameSize : changed.nameSize = me.nameSize)
  | accepted (unnamed : me.named = false) (data : Nat → UInt8) (name : Bytes)
      (proper : Proper name) (unused : Unused me.id cells name)
      (taken : load data name.length = name)
      (copied : changed.name = copyName me.name data name.length)
      (nameSize : changed.nameSize = name.length)

/-- A client before and after a request. -/
structure Changed (cells : List (Ptr × Client)) (me changed : Client) : Prop where
  id : changed.id = me.id
  valid : me.recvQu.Valid → changed.recvQu.Valid
  name : NameChange cells me changed

theorem valid_pop {qu : Queue} (valid : qu.Valid) : (queuePopNoCopy qu).2.Valid := by
  obtain ⟨popped, pops, holds, -⟩ := holds_pop ⟨valid, rfl⟩
  rw [pops]
  exact holds.valid

theorem valid_push {qu : Queue} (valid : qu.Valid) (bytes : Bytes) : (queuePush qu bytes).Valid :=
  (holds_push ⟨valid, rfl⟩ bytes).valid

theorem changed_pop (me : Client) : Changed cells me me.pop :=
  ⟨rfl, valid_pop, .kept rfl rfl⟩

/-- The names of the others are pushed one after the other. -/
theorem foldlM_pushes (test : Client → Bool) (qu : Queue) :
    ∃ pushed, cells.foldlM (fun recvQu cell =>
        if test cell.2 then
          some (queuePush (queuePush recvQu (ascii ", ")) (load cell.2.name cell.2.nameSize))
        else some recvQu) qu = some pushed ∧
      (qu.Valid → pushed.Valid) := by
  induction cells generalizing qu with
  | nil => exact ⟨qu, rfl, id⟩
  | cons cell cells ih =>
      rw [List.foldlM_cons]
      cases test cell.2 with
      | false => exact ih qu
      | true =>
          obtain ⟨pushed, pushes, valid⟩ :=
            ih (queuePush (queuePush qu (ascii ", ")) (load cell.2.name cell.2.nameSize))
          exact ⟨pushed, pushes, fun before => valid (valid_push (valid_push before _) _)⟩

/-- The names of the others are collected in the queue of the client. -/
theorem collect_changes (wellLinked : WellLinked heap (front ++ (p, me) :: back)) :
    ∃ recvQu, clientCollectListOfNamesOtherNames heap p =
        some (heap.setItem p { me with recvQu := recvQu }) ∧
      (me.recvQu.Valid → recvQu.Valid) := by
  have isNode := wellLinked.linked.node_mid
  obtain ⟨first, others, cellsEq, isFirst⟩ :=
    clientFirst_eq wellLinked List.mem_append_cons_self
  rw [cellsEq] at wellLinked
  obtain ⟨pushed, pushes, valid⟩ := foldlM_pushes (isOtherNamed me.id)
    (queuePush me.recvQu clientMembers)
  refine ⟨pushed, ?_, fun before => valid (valid_push before _)⟩
  simp only [clientCollectListOfNamesOtherNames, isNode, isFirst, Option.bind_eq_bind,
    Option.bind_some, wellLinked.visit_all]
  rw [pushes]
  rfl

/-- A client without a name is answered, and accepted if its pending bytes can be its name. -/
theorem newclient_changes (wellLinked : WellLinked heap (front ++ (p, me) :: back))
    (unnamed : me.named = false)
    (handled : clientHandleNewclient sends heap p log = some (result, after, sent)) :
    ∃ changed, WellLinked after (front ++ (p, changed) :: back) ∧
      Changed (front ++ (p, me) :: back) me changed := by
  obtain ⟨accepts, rejects⟩ := validateUsername_spec wellLinked
  have popped := wellLinked_setItem wellLinked me.pop
  by_cases accepted : Proper (readName me.recvQu) ∧
      Unused me.id (front ++ (p, me) :: back) (readName me.recvQu)
  · have named := wellLinked_setItem popped (me.accept (readName me.recvQu).length)
    obtain ⟨recvQu, collects, valid⟩ := collect_changes named
    have collected := wellLinked_setItem named
      { me.accept (readName me.recvQu).length with recvQu := recvQu }
    have final := wellLinked_setItem collected
      { me.accept (readName me.recvQu).length with recvQu := (queuePopNoCopy recvQu).2 }
    simp only [clientHandleNewclient, accepts accepted, named.linked.node_mid, collects,
      collected.linked.node_mid, Option.bind_eq_bind, Option.bind_some,
      Option.bind_eq_some_iff, Option.pure_def, Option.some.injEq, Prod.mk.injEq] at handled
    obtain ⟨greeted, -, text, -, told, -, -, rfl, -⟩ := handled
    refine ⟨_, final, rfl, fun before => valid_pop (valid (valid_pop before)), ?_⟩
    exact .accepted unnamed me.recvQu.data _ accepted.1 accepted.2 (load_readName _) rfl rfl
  · obtain ⟨response, rejected⟩ := rejects accepted
    simp only [clientHandleNewclient, rejected, popped.linked.node_mid, Option.bind_eq_bind,
      Option.bind_some, Option.bind_eq_some_iff, Option.pure_def, Option.some.injEq,
      Prod.mk.injEq] at handled
    obtain ⟨answered, -, -, rfl, -⟩ := handled
    exact ⟨me.pop, popped, changed_pop me⟩

/-- The queue of a client with a name is popped, whatever becomes of its message. -/
theorem named_changes (wellLinked : WellLinked heap (front ++ (p, me) :: back))
    (named : me.named = true)
    (handled : clientHandleRequest sends heap p log = some (result, after, sent)) :
    after = heap.setItem p me.pop := by
  have isNode := wellLinked.linked.node_mid
  simp only [clientHandleRequest, isNode, Option.bind_eq_bind, Option.bind_some, named,
    Bool.not_true, Bool.false_eq_true, if_false, Option.pure_def] at handled
  split at handled
  · cases handled
    rfl
  · split at handled
    · cases handled
      rfl
    · simp only [Option.bind_eq_some_iff, Option.some.injEq, Prod.mk.injEq] at handled
      obtain ⟨name, -, msg, -, mesg, -, told, -, -, rfl, -⟩ := handled
      rfl

/-- What arrives is put into the queue. -/
theorem changed_receive {arrival : Arrival} {received : Queue}
    (receives : recvRequest me.recvQu arrival = some (result, received)) :
    Changed cells me { me with recvQu := received } := by
  obtain ⟨queue, loop, pair⟩ := Option.map_eq_some_iff.mp receives
  cases pair
  exact ⟨rfl, fun valid => (holds_recvLoop ⟨valid, rfl⟩ loop).valid, .kept rfl rfl⟩

/-- A step is about one client of the list, and all others stay as they are. -/
theorem requestStep_changes (wellLinked : WellLinked heap cells)
    (step : requestStep sends (heap, log) request = some (after, sent)) :
    ∃ front p me back changed, cells = front ++ (p, me) :: back ∧
      WellLinked after (front ++ (p, changed) :: back) ∧ Changed cells me changed := by
  cases request with
  | receive c arrival =>
      obtain ⟨node, isNode, step⟩ := Option.bind_eq_some_iff.mp step
      obtain ⟨⟨result, received⟩, receives, pair⟩ := Option.bind_eq_some_iff.mp step
      cases pair
      obtain ⟨front, back, rfl⟩ := List.append_of_mem (wellLinked.mem_of_node isNode)
      exact ⟨front, c, node.item, back, _, rfl, wellLinked_setItem wellLinked _,
        changed_receive receives⟩
  | handle c =>
      obtain ⟨⟨result, state⟩, handled, rfl⟩ := Option.map_eq_some_iff.mp step
      cases found : heap.node c with
      | none => simp [clientHandleRequest, found] at handled
      | some node =>
          obtain ⟨front, back, rfl⟩ := List.append_of_mem (wellLinked.mem_of_node found)
          cases named : node.item.named with
          | true =>
              obtain rfl := named_changes wellLinked named handled
              exact ⟨front, c, node.item, back, _, rfl, wellLinked_setItem wellLinked _,
                changed_pop _⟩
          | false =>
              have isNewclient : clientHandleRequest sends heap c log =
                  clientHandleNewclient sends heap c log := by
                simp only [clientHandleRequest, found, named, Option.bind_eq_bind,
                  Option.bind_some, Bool.not_false, if_true]
              obtain ⟨changed, linked, changes⟩ :=
                newclient_changes wellLinked named (isNewclient ▸ handled)
              exact ⟨front, c, node.item, back, changed, rfl, linked, changes⟩

/-! ### Accepted names -/

/-- A client that had no name at the start has this one now. -/
def AcceptedAs (start now : Heap Client) (p : Ptr) (name : Bytes) : Prop :=
  Unnamed start p ∧
    ∃ node, now.node p = some node ∧ node.item.named = true ∧ node.item.called = name

variable {start : Heap Client}

theorem acceptedAs_of_mem (wellLinked : WellLinked heap cells) (unnamed : Unnamed start p)
    (member : (p, me) ∈ cells) (named : me.named = true) : AcceptedAs start heap p me.called := by
  obtain ⟨node, isNode, rfl⟩ := wellLinked.node_of_mem member
  exact ⟨unnamed, node, isNode, named, rfl⟩

theorem AcceptedAs.mem (accepted : AcceptedAs start heap p name)
    (wellLinked : WellLinked heap cells) :
    ∃ client, (p, client) ∈ cells ∧ client.named = true ∧ client.called = name := by
  obtain ⟨-, node, isNode, named, called⟩ := accepted
  exact ⟨node.item, wellLinked.mem_of_node isNode, named, called⟩

/-- The cells other than the one that was changed. -/
theorem mem_changed_iff {other : Client} (ne : q ≠ p) :
    (q, other) ∈ front ++ (p, changed) :: back ↔ (q, other) ∈ front ++ (p, me) :: back := by
  simp [ne]

theorem called_eq_of_kept (nameEq : changed.name = me.name)
    (sizeEq : changed.nameSize = me.nameSize) :
    changed.named = me.named ∧ changed.called = me.called := by
  rw [Client.named, Client.called, nameEq, sizeEq]
  exact ⟨rfl, rfl⟩

theorem load_copyName (memory data : Nat → UInt8) (size : Nat) :
    load (copyName memory data size) size = load data size :=
  load_eq_load_iff.mpr fun _ inside => if_pos inside

section Step

variable (before : WellLinked heap (front ++ (p, me) :: back))
  (linked : WellLinked after (front ++ (p, changed) :: back))
  (changes : Changed (front ++ (p, me) :: back) me changed)
include before linked changes

/-- A name is accepted by the step, or was before. -/
theorem AcceptedAs.of_step (accepted : AcceptedAs start after q name) :
    AcceptedAs start heap q name ∨
      (q = p ∧ Proper name ∧ Unused me.id (front ++ (p, me) :: back) name) := by
  have unnamed := accepted.1
  obtain ⟨client, member, named, rfl⟩ := accepted.mem linked
  by_cases same : q = p
  · subst same
    have isChanged := linked.cell_unique member
      List.mem_append_cons_self rfl
    cases isChanged
    cases changes.name with
    | kept nameEq sizeEq =>
        obtain ⟨namedEq, calledEq⟩ := called_eq_of_kept nameEq sizeEq
        rw [namedEq] at named
        rw [calledEq]
        exact .inl (acceptedAs_of_mem before unnamed
          List.mem_append_cons_self named)
    | accepted _ data name proper unused taken copied sizeEq =>
        right
        rw [Client.called, sizeEq, copied, load_copyName, taken]
        exact ⟨rfl, proper, unused⟩
  · exact .inl (acceptedAs_of_mem before unnamed ((mem_changed_iff same).mp member) named)

/-- An accepted name stays. -/
theorem AcceptedAs.step (accepted : AcceptedAs start heap q name) :
    AcceptedAs start after q name := by
  have unnamed := accepted.1
  obtain ⟨client, member, named, rfl⟩ := accepted.mem before
  by_cases same : q = p
  · subst same
    have isMe := before.cell_unique member
      List.mem_append_cons_self rfl
    cases isMe
    cases changes.name with
    | kept nameEq sizeEq =>
        obtain ⟨namedEq, calledEq⟩ := called_eq_of_kept nameEq sizeEq
        rw [← calledEq]
        exact acceptedAs_of_mem linked unnamed
          List.mem_append_cons_self (namedEq.trans named)
    | accepted none =>
        rw [none] at named
        cases named
  · exact acceptedAs_of_mem linked unnamed ((mem_changed_iff same).mpr member) named

end Step

/-- The names that were accepted since the start are proper and differ from one another. -/
structure NamesApart (start now : Heap Client) : Prop where
  linked : ∃ cells, WellLinked now cells ∧ (cells.map fun cell => cell.2.id).Nodup
  proper : ∀ p name, AcceptedAs start now p name → Proper name
  apart : ∀ p q name, AcceptedAs start now p name → AcceptedAs start now q name → p = q

/-- No name has been accepted at the start. -/
theorem namesApart_start (wellLinked : WellLinked start cells)
    (distinct : (cells.map fun cell => cell.2.id).Nodup) : NamesApart start start := by
  have none_accepted : ∀ p name, ¬ AcceptedAs start start p name := by
    rintro p name ⟨⟨node, isNode, unnamed⟩, other, isOther, named, -⟩
    rw [isNode, Option.some.injEq] at isOther
    rw [← isOther, unnamed] at named
    cases named
  exact ⟨⟨cells, wellLinked, distinct⟩,
    fun p name accepted => absurd accepted (none_accepted p name),
    fun p q name accepted => absurd accepted (none_accepted p name)⟩

theorem NamesApart.step (names : NamesApart start heap)
    (step : requestStep sends (heap, log) request = some (after, sent)) :
    NamesApart start after := by
  obtain ⟨cells, wellLinked, distinct⟩ := names.linked
  obtain ⟨front, p, me, back, changed, rfl, linked, changes⟩ := requestStep_changes wellLinked step
  -- Nobody else has the name that is accepted now.
  have unused_apart : ∀ q name, Unused me.id (front ++ (p, me) :: back) name →
      AcceptedAs start heap q name → p = q := by
    intro q name unused accepted
    obtain ⟨client, member, named, rfl⟩ := accepted.mem wellLinked
    by_contra ne
    refine absurd (begins_called client) (unused (q, client) member ?_)
    have other : client.id ≠ me.id := by
      intro same
      have isMe := List.inj_on_of_nodup_map distinct member
        (List.mem_append_right front (List.mem_cons_self (a := (p, me)))) same
      exact ne (congrArg Prod.fst isMe).symm
    simp [isOtherNamed, other, named]
  refine ⟨⟨_, linked, ?_⟩, ?_, ?_⟩
  · simpa [changes.id] using distinct
  · intro q name accepted
    rcases accepted.of_step wellLinked linked changes with earlier | ⟨-, proper, -⟩
    · exact names.proper q name earlier
    · exact proper
  · intro q r name first second
    rcases first.of_step wellLinked linked changes with earlier | ⟨rfl, -, unused⟩
    · rcases second.of_step wellLinked linked changes with early | ⟨rfl, -, unused⟩
      · exact names.apart q r name earlier early
      · exact (unused_apart q name unused earlier).symm
    · rcases second.of_step wellLinked linked changes with early | ⟨rfl, -, -⟩
      · exact unused_apart r name unused early
      · rfl

/-- In any run of requests by any clients, the names that were accepted are 1 to 31 letters and
digits, no two clients have the same, and none of them changes any more. -/
theorem accepted_names_kept (wellLinked : WellLinked start cells)
    (distinct : (cells.map fun cell => cell.2.id).Nodup) (sends : Sends) (log : Log)
    {requests later : List Request} {middle final : Heap Client × Log}
    (ran : run (requestStep sends) (start, log) requests = some middle)
    (ranOn : run (requestStep sends) middle later = some final) :
    (∀ p name, AcceptedAs start middle.1 p name → Proper name) ∧
    (∀ p q name, AcceptedAs start middle.1 p name → AcceptedAs start middle.1 q name → p = q) ∧
    (∀ p name, AcceptedAs start middle.1 p name → AcceptedAs start final.1 p name) := by
  have names : NamesApart start middle.1 :=
    run_preserves (fun state => NamesApart start state.1)
      (fun _ _ _ before step => before.step step) (namesApart_start wellLinked distinct) ran
  refine ⟨names.proper, names.apart, ?_⟩
  intro p name accepted
  have kept := run_preserves
    (fun state => (∃ cells, WellLinked state.1 cells) ∧ AcceptedAs start state.1 p name)
    (fun state request next before step => ?_) ⟨names.linked.imp fun _ both => both.1, accepted⟩
    ranOn
  · exact kept.2
  · obtain ⟨⟨cells, linked⟩, accepted⟩ := before
    obtain ⟨front, q, me, back, changed, rfl, linkedAfter, changes⟩ :=
      requestStep_changes linked step
    exact ⟨⟨_, linkedAfter⟩, accepted.step linked linkedAfter changes⟩

/-- A client as `client_open` leaves it, over the memory that it was given. -/
def opened (fd : SocketFd) (memory : Malloc) : Client :=
  ⟨fd, Function.update memory.name 0 0, memory.nameSize, queueInit memory.data 1024⟩

theorem clientOpen_opened {clients moved : Clients} {fd : SocketFd} {memory : Malloc}
    (opens : clientOpen sends clients fd memory log = some (moved, sent)) :
    moved.heap = clients.heap.alloc ⟨opened fd memory, none, none⟩ := by
  obtain ⟨_, -, pair⟩ := Option.map_eq_some_iff.mp opens
  cases pair
  rfl

section Joining

/-- Two clients that have been opened. -/
def openedCells (memory : Malloc) : List (Ptr × Client) :=
  [(0, opened 5 memory), (1, opened 6 memory)]

def openedHeap (memory : Malloc) : Heap Client :=
  append (Heap.empty.alloc ⟨opened 5 memory, none, none⟩) 0 (opened 6 memory)

theorem wellLinked_opened (memory : Malloc) : WellLinked (openedHeap memory) (openedCells memory) :=
  wellLinked_append (wellLinked_alloc wellLinked_empty _) rfl _

/-- Memory that is full of `x`. -/
def crossed : Malloc := ⟨fun _ => 120, 0, fun _ => 120⟩

/-- A line arrives and is handled. -/
def speaks (c : Ptr) (line : Bytes) (nonempty : line ≠ []) : List Request :=
  [.receive c ⟨[line], .wouldBlock, SpeedDaemon.atOnce_nonempty nonempty⟩, .handle c]

/-- The list for `alice`, the list for `bob`, the announcement of `bob`. -/
def joiningSends : Sends := fun i => ⟨4096, 0, false, [.sent ([21, 28, 28].getD i 0)]⟩

/-- `alice` stays `alice` when `bob` joins. -/
theorem accepted_names_kept_two :
    ∃ middle final, run (requestStep joiningSends) (openedHeap crossed, [])
        (speaks 0 (ascii "alice\n") (by decide)) = some middle ∧
      run (requestStep joiningSends) middle (speaks 1 (ascii "bob\n") (by decide)) = some final ∧
      AcceptedAs (openedHeap crossed) final.1 0 (ascii "alice") := by
  have runs : ((run (requestStep joiningSends) (openedHeap crossed, [])
      (speaks 0 (ascii "alice\n") (by decide))).bind fun middle =>
        (run (requestStep joiningSends) middle (speaks 1 (ascii "bob\n") (by decide))).bind
          fun _ => (middle.1.node 0).map fun node => (node.item.named, node.item.called)) =
      some (true, ascii "alice") := by decide +kernel
  obtain ⟨middle, ran, rest⟩ := Option.bind_eq_some_iff.mp runs
  obtain ⟨final, ranOn, accepted⟩ := Option.bind_eq_some_iff.mp rest
  obtain ⟨node, isNode, same⟩ := Option.map_eq_some_iff.mp accepted
  obtain ⟨named, called⟩ := Prod.mk.inj same
  refine ⟨middle, final, ran, ranOn, ?_⟩
  exact (accepted_names_kept (wellLinked_opened crossed) (by decide) joiningSends [] ran
    ranOn).2.2 0 _ ⟨⟨_, rfl, rfl⟩, node, isNode, named, called⟩

end Joining

end NetworkExercises.BudgetChat.C
