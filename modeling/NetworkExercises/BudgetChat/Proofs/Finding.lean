/-
Module: NetworkExercises.BudgetChat.Proofs.Finding
Purpose: The C server opens every client for the descriptor of its listening socket, so that
  the descriptor of an accepted connection is never found.
Main exports: findNode_sound, clientFind_sound, AllListen, Found, dataStep_aborts,
  open_forgets, found_iff_none_accepted
-/
import NetworkExercises.BudgetChat.C.Server
import NetworkExercises.Lib.Run

namespace NetworkExercises.BudgetChat.C

open Lib CUtils
open SpeedDaemon (SocketFd Arrival)

variable {listenFd fd : SocketFd} {clients moved : Clients} {state next : ServerState}
  {sends : Sends} {memory : Malloc} {log sent : Log}

/-! ### What is found -/

/-- A client that is found has the descriptor, and the pointer is on it. -/
theorem clientFind_sound (found : clientFind clients fd = some (true, moved)) :
    ∃ p node, clients.heap.node p = some node ∧ node.item.id = fd := by
  unfold clientFind at found
  split at found
  · cases found
  · split at found
    · cases found
    · obtain ⟨first, -, found⟩ := Option.bind_eq_some_iff.mp found
      obtain ⟨reached, search, found⟩ := Option.bind_eq_some_iff.mp found
      cases reached with
      | none => cases found
      | some p =>
          obtain ⟨node, isNode, test⟩ := findNode_sound search
          exact ⟨p, node, isNode, beq_iff_eq.mp test⟩

/-- A client that is opened is all that is found afterwards, whatever its descriptor: it is
not linked to the others. -/
theorem open_forgets (opened : clientOpen sends clients fd memory log = some (moved, sent))
    {id : SocketFd} (positive : id ≠ 0) (other : id ≠ fd) :
    clientFind moved id = some (false, moved) := by
  obtain ⟨_, -, pair⟩ := Option.map_eq_some_iff.mp opened
  cases pair
  have fresh : ∀ node : Node Client, (clients.heap.alloc node).fresh = clients.heap.fresh + 1 :=
    fun _ => rfl
  simp [clientFind, if_neg positive, clientFirst, fresh, walk, findNode,
    other.symm]

/-- The descriptor of every open connection is found. -/
def Found (state : ServerState) : Prop :=
  ∀ fd ∈ state.live, ∃ moved, clientFind state.clients fd = some (true, moved)

/-! ### The descriptor of the listening socket -/

/-- Every client has been opened for the listening socket. -/
def AllListen (listenFd : SocketFd) (clients : Clients) : Prop :=
  ∀ p node, clients.heap.node p = some node → node.item.id = listenFd

theorem AllListen.open (all : AllListen listenFd clients)
    (opened : clientOpen sends clients listenFd memory log = some (moved, sent)) :
    AllListen listenFd moved := by
  obtain ⟨_, -, pair⟩ := Option.map_eq_some_iff.mp opened
  cases pair
  intro p node isNode
  by_cases isNew : p = clients.heap.fresh
  · subst isNew
    rw [Heap.alloc_node_self] at isNode
    cases isNode
    rfl
  · rw [Heap.alloc_node_of_ne isNew] at isNode
    exact all p node isNode

theorem AllListen.not_found (all : AllListen listenFd clients) (other : fd ≠ listenFd) :
    clientFind clients fd ≠ some (true, moved) := by
  intro found
  obtain ⟨p, node, isNode, same⟩ := clientFind_sound found
  exact other (same.symm.trans (all p node isNode))

/-- Reading from a connection ends with the assertion `client_found`. -/
theorem dataStep_aborts (all : AllListen listenFd state.clients) (other : fd ≠ listenFd)
    (arrival : Arrival) (sends : Sends) : dataStep state fd arrival sends = none := by
  unfold dataStep
  cases found : clientFind state.clients fd with
  | none => rfl
  | some result =>
      obtain ⟨clientFound, moved⟩ := result
      cases clientFound with
      | false => rfl
      | true => exact absurd found (all.not_found other)

/-! ### Whole runs -/

def Event.isAccept : Event → Bool
  | .accept _ _ _ => true
  | .data _ _ _ => false

/-- After some events: connections are open when one was accepted, none of them on the
listening socket. -/
structure Deaf (listenFd : SocketFd) (past : List Event) (state : ServerState) : Prop where
  all : AllListen listenFd state.clients
  others : listenFd ∉ state.live
  opened : state.live.Nonempty ↔ ∃ event ∈ past, event.isAccept = true

theorem deaf_init : Deaf listenFd [] .init where
  all := nofun
  others := Finset.notMem_empty _
  opened := by simp [ServerState.init]

theorem Deaf.step {past : List Event} {event : Event} (deaf : Deaf listenFd past state)
    (step : eventStep listenFd state event = some next) : Deaf listenFd (past ++ [event]) next := by
  cases event with
  | accept fd memory sends =>
      obtain ⟨isNew, accepted⟩ := Option.ite_none_left_eq_some.mp step
      obtain ⟨⟨clients, log⟩, opened, rfl⟩ := Option.map_eq_some_iff.mp accepted
      refine ⟨deaf.all.open opened, ?_, ?_⟩
      · rw [Finset.mem_insert]
        rintro (same | member)
        · exact isNew (.inr same.symm)
        · exact deaf.others member
      · have accepts : ∃ event ∈ past ++ [Event.accept fd memory sends],
            event.isAccept = true :=
          ⟨_, List.mem_append_right _ (List.mem_singleton_self _), rfl⟩
        exact iff_of_true ⟨fd, Finset.mem_insert_self _ _⟩ accepts
  | data fd arrival sends =>
      obtain ⟨member, read⟩ := Option.ite_none_right_eq_some.mp step
      have other : fd ≠ listenFd := fun same => deaf.others (same ▸ member)
      rw [dataStep_aborts deaf.all other] at read
      cases read

theorem Deaf.found_iff {past : List Event} (deaf : Deaf listenFd past state) :
    Found state ↔ ∀ event ∈ past, event.isAccept = false := by
  constructor
  · intro found event member
    by_contra accepts
    obtain ⟨fd, live⟩ := deaf.opened.mpr ⟨event, member, Bool.eq_true_of_not_eq_false accepts⟩
    obtain ⟨moved, isFound⟩ := found fd live
    exact deaf.all.not_found (fun same => deaf.others (same ▸ live)) isFound
  · intro none_ fd live
    obtain ⟨event, member, accepts⟩ := deaf.opened.mp ⟨fd, live⟩
    rw [none_ event member] at accepts
    cases accepts

/-- The descriptors of all open connections are found only as long as none was accepted. -/
theorem found_iff_none_accepted (listenFd : SocketFd) {events : List Event}
    {final : ServerState} (ran : run (eventStep listenFd) .init events = some final) :
    Found final ↔ ∀ event ∈ events, event.isAccept = false := by
  have deaf : Deaf listenFd ([] ++ events) final :=
    run_relates (Deaf listenFd) (fun _ _ _ _ before step => before.step step) deaf_init ran
  exact deaf.found_iff

section Events

def blank : Malloc := ⟨fun _ => 0, 0, fun _ => 0⟩

/-- The greeting is taken at once. -/
def greeted : Sends := fun _ => ⟨4096, 0, false, [.sent 45]⟩

/-- The first connection. -/
def firstConnection : List Event := [.accept 5 blank greeted]

theorem found_iff_none_accepted_first :
    ∃ final, run (eventStep 3) .init firstConnection = some final ∧ ¬ Found final := by
  obtain ⟨final, ran⟩ := Option.isSome_iff_exists.mp
    (show (run (eventStep 3) .init firstConnection).isSome by decide +kernel)
  refine ⟨final, ran, fun found => ?_⟩
  have none_ := (found_iff_none_accepted 3 ran).mp found _ (List.mem_singleton_self _)
  cases none_

/-- The first bytes of the first connection end the program. -/
theorem first_connection_not_found :
    ∃ final, run (eventStep 3) .init firstConnection = some final ∧ 5 ∈ final.live ∧
      (∀ moved, clientFind final.clients 5 ≠ some (true, moved)) ∧
      ∀ arrival sends, eventStep 3 final (.data 5 arrival sends) = none := by
  have live : (run (eventStep 3) .init firstConnection).map ServerState.live = some {5} := by
    decide +kernel
  obtain ⟨final, ran, liveEq⟩ := Option.map_eq_some_iff.mp live
  have deaf : Deaf 3 ([] ++ firstConnection) final :=
    run_relates (Deaf 3) (fun _ _ _ _ before step => before.step step) deaf_init ran
  have member : 5 ∈ final.live := by simp [liveEq]
  refine ⟨final, ran, member, fun moved => deaf.all.not_found (by decide), ?_⟩
  intro arrival sends
  exact (if_pos member).trans (dataStep_aborts deaf.all (by decide) arrival sends)

end Events

end NetworkExercises.BudgetChat.C
