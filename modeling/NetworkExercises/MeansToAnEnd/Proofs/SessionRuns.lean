/-
Module: NetworkExercises.MeansToAnEnd.Proofs.SessionRuns
Purpose: Any run of calls on the sessions of the C server, from the handle that is `NULL`: the
  list that the handle leads into, and what the next call does with it.
Main exports: SessionCall, answer, live, Lists, live_simulated, WellKept, sessions_kept
-/
import NetworkExercises.Lib.Refinement
import NetworkExercises.MeansToAnEnd.Proofs.Sessions

namespace NetworkExercises.MeansToAnEnd.C

open Lib CUtils
open SpeedDaemon (SocketFd)

/-- The calls; `memory` is what the queue of a new session is allocated over. -/
inductive SessionCall where
  | add (id : SocketFd) (memory : Nat → UInt8)
  | find (id : SocketFd)
  | remove (id : SocketFd)

/-- What a call returns, and where it leaves the sessions. -/
def answer (clients : Clients) : SessionCall → Option (Option Bool × Clients)
  | .add id memory => (clientsSessionAdd clients id memory).map fun clients => (none, clients)
  | .find id =>
      (clientsSessionFind clients id).map fun found => (some found.1, found.2)
  | .remove id =>
      (clientsSessionRemove clients id).map fun removed => (some removed.1, removed.2)

/-- The calls on the ids that are live, in the order in which they came.  An id is added when
it is not live; nothing is removed from no session at all. -/
def live (ids : List SocketFd) : SessionCall → Option (Option Bool × List SocketFd)
  | .add id _ => if id = 0 ∨ id ∈ ids then none else some (none, ids ++ [id])
  | .find id => if id = 0 ∧ ids ≠ [] then none else some (some (decide (id ∈ ids)), ids)
  | .remove id =>
      if id = 0 ∨ ids = [] then none else some (some (decide (id ∈ ids)), ids.erase id)

/-- The handle leads into a list of the sessions with these ids. -/
structure Lists (clients : Clients) (ids : List SocketFd) (cells : List (Ptr × Session)) :
    Prop where
  linked : Linked clients cells
  ids_eq : cells.map (fun cell => cell.2.clientId) = ids
  nodup : ids.Nodup
  positive : 0 ∉ ids

variable {clients : Clients} {front back cells : List (Ptr × Session)} {cell : Ptr × Session}
  {ids : List SocketFd} {id : SocketFd}

theorem lists_empty : Lists Clients.empty [] [] :=
  ⟨linked_empty, rfl, List.nodup_nil, List.not_mem_nil⟩

/-- A search for an id that is not live finds no cell. -/
theorem Lists.search_dead (lists : Lists clients ids cells) (dead : id ∉ ids) :
    (cells.find? fun cell => cell.2.clientId == id) = none := by
  rw [List.find?_eq_none]
  intro cell member
  rw [beq_iff_eq]
  rintro rfl
  apply dead
  rw [← lists.ids_eq]
  exact List.mem_map_of_mem member

/-- A search for a live id finds its cell. -/
theorem Lists.search_live (lists : Lists clients ids (front ++ cell :: back)) :
    ((front ++ cell :: back).find? fun other => other.2.clientId == cell.2.clientId) =
      some cell :=
  find?_middle (lists.ids_eq ▸ lists.nodup)

theorem Lists.id_ne_zero (lists : Lists clients ids cells) (member : cell ∈ cells) :
    cell.2.clientId ≠ 0 := by
  intro isZero
  apply lists.positive
  rw [← lists.ids_eq, ← isZero]
  exact List.mem_map_of_mem member

theorem Lists.eq_nil_iff (lists : Lists clients ids cells) : cells = [] ↔ ids = [] := by
  rw [← lists.ids_eq, List.map_eq_nil_iff]

theorem Lists.null_iff (lists : Lists clients ids cells) : clients.ca = none ↔ ids = [] := by
  rw [← lists.eq_nil_iff]
  refine ⟨lists.linked.null, ?_⟩
  rintro rfl
  cases handle : clients.ca with
  | none => rfl
  | some ca => exact absurd (lists.linked.inside ca handle) List.not_mem_nil

/-- The cell of a live id, between the cells of the ids before it and behind it. -/
theorem Lists.split (lists : Lists clients ids cells) (isLive : id ∈ ids) :
    ∃ front cell back, cells = front ++ cell :: back ∧ cell.2.clientId = id := by
  rw [← lists.ids_eq] at isLive
  obtain ⟨cell, member, rfl⟩ := List.mem_map.mp isLive
  obtain ⟨front, back, rfl⟩ := List.append_of_mem member
  exact ⟨front, cell, back, rfl, rfl⟩

/-! ### The calls -/

theorem Lists.add (lists : Lists clients ids cells) (positive : id ≠ 0) (isNew : id ∉ ids)
    (memory : Nat → UInt8) :
    ∃ added cells, clientsSessionAdd clients id memory = some added ∧
      Lists added (ids ++ [id]) cells := by
  obtain ⟨added, p, adds, linked⟩ := add_linked lists.linked positive memory
  refine ⟨added, _, adds, linked, ?_, ?_, ?_⟩
  · rw [List.map_append, lists.ids_eq]
    rfl
  · exact List.nodup_append.mpr ⟨lists.nodup, List.nodup_singleton _, by
      rintro other member _ (_ | ⟨_, ⟨⟩⟩) rfl
      exact isNew member⟩
  · rw [List.mem_append, List.mem_singleton, not_or]
    exact ⟨lists.positive, Ne.symm positive⟩

/-- The handle is moved to the session. -/
theorem Lists.find (lists : Lists clients ids cells) (member : cell ∈ cells) :
    clientsSessionFind clients cell.2.clientId =
      some (true, { clients with ca := some cell.1 }) := by
  have positive := lists.id_ne_zero member
  obtain ⟨front, back, rfl⟩ := List.append_of_mem member
  exact find_eq lists.linked positive lists.search_live

/-- Without a session the handle stays on one of the others. -/
theorem Lists.find_dead (lists : Lists clients ids cells) (positive : ids = [] ∨ id ≠ 0)
    (dead : id ∉ ids) :
    ∃ after, clientsSessionFind clients id = some (false, after) ∧ after.heap = clients.heap ∧
      Lists after ids cells := by
  cases cells with
  | nil =>
      have null := lists.null_iff.mpr (lists.eq_nil_iff.mp rfl)
      exact ⟨clients, by rw [clientsSessionFind, null], rfl, lists⟩
  | cons first cells =>
      have notNil : ids ≠ [] := fun nil => absurd (lists.eq_nil_iff.mpr nil) (List.cons_ne_nil _ _)
      exact ⟨_, find_cells lists.linked (positive.resolve_left notNil) (lists.search_dead dead),
        rfl, lists.linked.moved List.mem_cons_self, lists.ids_eq, lists.nodup, lists.positive⟩

/-- The session is taken out, and the handle is left on the one before it, or else on the one
behind it. -/
theorem Lists.remove (lists : Lists clients ids (front ++ cell :: back)) :
    ∃ removed, clientsSessionRemove clients cell.2.clientId = some (true, removed) ∧
      removed.ca = (lastPtr none front).or (headPtr none back) ∧
      Lists removed (ids.erase cell.2.clientId) (front ++ back) := by
  have positive : cell.2.clientId ≠ 0 := lists.id_ne_zero (by simp)
  obtain ⟨removed, removes, handle, linked⟩ :=
    remove_linked lists.linked positive lists.search_live
  refine ⟨removed, removes, handle, linked, ?_, lists.nodup.erase _,
    fun member => lists.positive (List.mem_of_mem_erase member)⟩
  have nodup := lists.nodup
  rw [← lists.ids_eq] at nodup ⊢
  simp only [List.map_append, List.map_cons] at nodup ⊢
  have notFront : cell.2.clientId ∉ front.map fun cell => cell.2.clientId := fun inFront =>
    (List.nodup_cons.mp (List.nodup_middle.mp nodup)).1 (List.mem_append_left _ inFront)
  rw [List.erase_append_right _ notFront, List.erase_cons_head]

theorem Lists.remove_dead (lists : Lists clients ids cells) (nonempty : ids ≠ [])
    (positive : id ≠ 0) (dead : id ∉ ids) :
    ∃ after, clientsSessionRemove clients id = some (false, after) ∧
      after.heap = clients.heap ∧ Lists after ids cells := by
  obtain ⟨after, finds, same, listsAfter⟩ := lists.find_dead (.inr positive) dead
  have notNull : clients.ca.isNone = false := by
    rw [← Bool.not_eq_true, Option.isNone_iff_eq_none, lists.null_iff]
    exact nonempty
  exact ⟨after, by simp [clientsSessionRemove, notNull, finds], same, listsAfter⟩

/-- Every session is freed once, from the first one on. -/
theorem freeAllLoop_eq {turns : Nat} {freed : List Ptr} (linked : Linked clients cells)
    (first : clients.ca = headPtr none cells) (enough : cells.length < turns) :
    ∃ after, freeAllLoop turns freed clients = some (freed ++ cells.map Prod.fst, after) ∧
      Linked after [] := by
  induction cells generalizing clients turns freed with
  | nil =>
      obtain ⟨turns, rfl⟩ := Nat.exists_eq_succ_of_ne_zero (Nat.ne_zero_of_lt enough)
      exact ⟨clients, by rw [freeAllLoop, first, List.map_nil, List.append_nil]; rfl, linked⟩
  | cons cell cells ih =>
      obtain ⟨turns, rfl⟩ := Nat.exists_eq_succ_of_ne_zero (Nat.ne_zero_of_lt enough)
      obtain ⟨rest, frees, handle, -, restLinked⟩ := @free_linked clients [] cells cell linked
      have isFirst : some cell.1 = clients.ca := first.symm
      have here : { clients with ca := some cell.1 } = clients := by rw [isFirst]
      rw [here] at frees
      obtain ⟨after, freesAll, emptied⟩ :=
        @ih rest turns (freed ++ [cell.1]) restLinked handle (Nat.lt_of_succ_lt_succ enough)
      refine ⟨after, ?_, emptied⟩
      rw [freeAllLoop, first, headPtr]
      simp [frees, freesAll]

theorem Lists.freeAll (lists : Lists clients ids cells) (nonempty : ids ≠ []) :
    ∃ after, clientsSessionFreeAll clients = some (cells.map Prod.fst, after) ∧
      Linked after [] := by
  cases handle : clients.ca with
  | none => exact absurd (lists.null_iff.mp handle) nonempty
  | some ca =>
      cases cells with
      | nil => exact absurd (lists.eq_nil_iff.mp rfl) nonempty
      | cons first cells =>
          have enough := lists.linked.wellLinked.length_le
          obtain ⟨after, frees, emptied⟩ := @freeAllLoop_eq _ _ (clients.heap.fresh + 1) []
            (lists.linked.moved List.mem_cons_self) rfl (Nat.lt_succ_of_le enough)
          refine ⟨after, ?_, emptied⟩
          simp [clientsSessionFreeAll, handle, getBeg_eq lists.linked handle, frees]

/-! ### Runs -/

/-- Every call on the ids is one on the sessions, with the same result. -/
theorem live_simulated (clients : Clients) (ids : List SocketFd) (call : SessionCall)
    (output : Option Bool) (after : List SocketFd) (lists : ∃ cells, Lists clients ids cells)
    (specified : live ids call = some (output, after)) :
    ∃ changed, answer clients call = some (output, changed) ∧
      ∃ cells, Lists changed after cells := by
  obtain ⟨cells, lists⟩ := lists
  cases call with
  | add id memory =>
      rw [live, Option.ite_none_left_eq_some, not_or] at specified
      obtain ⟨⟨positive, isNew⟩, ⟨⟩⟩ := specified
      obtain ⟨added, cells, adds, listsAfter⟩ := lists.add positive isNew memory
      exact ⟨added, by rw [answer, adds, Option.map_some], cells, listsAfter⟩
  | find id =>
      rw [live, Option.ite_none_left_eq_some] at specified
      obtain ⟨positive, ⟨⟩⟩ := specified
      by_cases isLive : id ∈ ids
      · obtain ⟨front, cell, back, rfl, rfl⟩ := lists.split isLive
        have member : cell ∈ front ++ cell :: back := by simp
        exact ⟨{ clients with ca := some cell.1 }, by simp [answer, lists.find member, isLive],
          _, lists.linked.moved member, lists.ids_eq, lists.nodup, lists.positive⟩
      · obtain ⟨found, finds, -, listsAfter⟩ := lists.find_dead (by tauto) isLive
        exact ⟨found, by simp [answer, finds, isLive], cells, listsAfter⟩
  | remove id =>
      rw [live, Option.ite_none_left_eq_some, not_or] at specified
      obtain ⟨⟨positive, nonempty⟩, ⟨⟩⟩ := specified
      by_cases isLive : id ∈ ids
      · obtain ⟨front, cell, back, rfl, rfl⟩ := lists.split isLive
        obtain ⟨removed, removes, -, listsAfter⟩ := lists.remove
        exact ⟨removed, by simp [answer, removes, isLive], _, listsAfter⟩
      · obtain ⟨after, removes, -, listsAfter⟩ := lists.remove_dead nonempty positive isLive
        rw [List.erase_of_not_mem isLive]
        exact ⟨after, by simp [answer, removes, isLive], cells, listsAfter⟩

/-- What the sessions are between two calls, and what the next call does with them. -/
structure WellKept (clients : Clients) (ids : List SocketFd) (cells : List (Ptr × Session)) :
    Prop where
  wellLinked : WellLinked clients.heap cells
  ids_eq : cells.map (fun cell => cell.2.clientId) = ids
  nodup : ids.Nodup
  null : clients.ca = none ↔ ids = []
  reached : ∀ ca, clients.ca = some ca → ∀ p,
    Relation.ReflTransGen (Joined clients.heap) ca p ↔ p ∈ cells.map Prod.fst
  finds : ∀ cell ∈ cells,
    clientsSessionFind clients cell.2.clientId = some (true, { clients with ca := some cell.1 })
  findsNot : ∀ id, id ≠ 0 → id ∉ ids →
    ∃ after, clientsSessionFind clients id = some (false, after) ∧ after.heap = clients.heap
  removes : ∀ front cell back, cells = front ++ cell :: back →
    ∃ removed, clientsSessionRemove clients cell.2.clientId = some (true, removed) ∧
      WellLinked removed.heap (front ++ back) ∧
      removed.ca = (lastPtr none front).or (headPtr none back)
  removesNot : ids ≠ [] → ∀ id, id ≠ 0 → id ∉ ids →
    ∃ after, clientsSessionRemove clients id = some (false, after) ∧ after.heap = clients.heap
  freesAll : ids ≠ [] →
    ∃ after, clientsSessionFreeAll clients = some (cells.map Prod.fst, after) ∧
      after.ca = none ∧ WellLinked after.heap []

theorem Lists.wellKept (lists : Lists clients ids cells) : WellKept clients ids cells where
  wellLinked := lists.linked.wellLinked
  ids_eq := lists.ids_eq
  nodup := lists.nodup
  null := lists.null_iff
  reached ca handle := lists.linked.wellLinked.reaches_iff (lists.linked.inside ca handle)
  finds cell := lists.find
  findsNot id positive dead := by
    obtain ⟨after, finds, same, -⟩ := lists.find_dead (.inr positive) dead
    exact ⟨after, finds, same⟩
  removes front cell back split := by
    subst split
    obtain ⟨removed, removes, handle, listsAfter⟩ := lists.remove
    exact ⟨removed, removes, listsAfter.linked.wellLinked, handle⟩
  removesNot nonempty id positive dead := by
    obtain ⟨after, removes, same, -⟩ := lists.remove_dead nonempty positive dead
    exact ⟨after, removes, same⟩
  freesAll nonempty := by
    obtain ⟨after, frees, emptied⟩ := lists.freeAll nonempty
    refine ⟨after, frees, ?_, emptied.wellLinked⟩
    cases handle : after.ca with
    | none => rfl
    | some ca => exact absurd (emptied.inside ca handle) List.not_mem_nil

/-- Any run of calls answers as the ids do, and leaves the handle in one list that is linked
both ways, with the live ids in the order in which they came.  From there a search ends on the
session, a removal takes it out and steps to a neighbour, and everything can be freed. -/
theorem sessions_kept {calls : List SessionCall} {outputs : List (Option Bool)}
    {ids : List SocketFd} (allowed : observe live [] calls = some (outputs, ids)) :
    ∃ clients cells, observe answer Clients.empty calls = some (outputs, clients) ∧
      WellKept clients ids cells := by
  obtain ⟨clients, ran, cells, lists⟩ := observe_simulates _ live_simulated
    ⟨_, lists_empty⟩ allowed
  exact ⟨clients, cells, ran, lists.wellKept⟩

/-- The session in the middle and the first one are removed, behind a search that fails. -/
theorem sessions_kept_middle :
    ∃ clients cells,
      observe answer Clients.empty
        [.add 4 fun _ => 0, .add 5 fun _ => 0, .add 6 fun _ => 0, .remove 5, .find 5, .remove 4] =
          some ([none, none, none, some true, some false, some true], clients) ∧
      WellKept clients [6] cells :=
  sessions_kept rfl

end NetworkExercises.MeansToAnEnd.C
