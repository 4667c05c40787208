/-
Module: NetworkExercises.MeansToAnEnd.Proofs.Sessions
Purpose: The operations on the sessions of the C server, on the list that the handle leads
  into.
Main exports: Linked, find_cells, find_eq, add_linked, setItem_linked, free_linked,
  remove_linked
-/
import NetworkExercises.MeansToAnEnd.C.Server

namespace NetworkExercises.MeansToAnEnd.C

open Lib CUtils
open SpeedDaemon (SocketFd)

/-- The sessions form one list, and the handle is one of them, unless there is none. -/
structure Linked (clients : Clients) (cells : List (Ptr × Session)) : Prop where
  wellLinked : WellLinked clients.heap cells
  null : clients.ca = none → cells = []
  inside : ∀ ca, clients.ca = some ca → ca ∈ cells.map Prod.fst

variable {clients : Clients} {front back cells : List (Ptr × Session)} {cell : Ptr × Session}
  {id : SocketFd}

theorem linked_empty : Linked Clients.empty [] :=
  ⟨wellLinked_empty, fun _ => rfl, nofun⟩

/-- The cell that the handle points to. -/
theorem Linked.split (linked : Linked clients cells) {ca : Ptr} (handle : clients.ca = some ca) :
    ∃ front cell back, cells = front ++ cell :: back ∧ cell.1 = ca := by
  obtain ⟨cell, member, rfl⟩ := List.mem_map.mp (linked.inside ca handle)
  obtain ⟨front, back, rfl⟩ := List.append_of_mem member
  exact ⟨front, cell, back, rfl, rfl⟩

/-- The handle is found again on one of the cells. -/
theorem Linked.moved (linked : Linked clients cells) (member : cell ∈ cells) :
    Linked { clients with ca := some cell.1 } cells := by
  refine ⟨linked.wellLinked, nofun, ?_⟩
  rintro ca ⟨rfl⟩
  exact List.mem_map_of_mem member

/-! ### Finding -/

theorem getBeg_eq (linked : Linked clients (cell :: cells)) {ca : Ptr}
    (handle : clients.ca = some ca) :
    clientsSessionGetBeg clients.heap ca = some cell.1 := by
  obtain ⟨here, member, rfl⟩ := List.mem_map.mp (linked.inside ca handle)
  obtain ⟨first, others, cellsEq, walked⟩ := linked.wellLinked.walk_first member
  cases cellsEq
  exact walked

theorem getEnd_eq (linked : Linked clients cells) {ca : Ptr} (handle : clients.ca = some ca) :
    clientsSessionGetEnd clients.heap ca = lastPtr none cells := by
  obtain ⟨front, here, back, rfl, rfl⟩ := linked.split handle
  have enough := linked.wellLinked.length_le
  have shorter : back.length < clients.heap.fresh := by
    rw [List.length_append, List.length_cons] at enough
    omega
  rw [clientsSessionGetEnd, walk_next linked.wellLinked.linked shorter, lastPtr_append]
  rfl

/-- `clients_session_find` looks for the first session with the descriptor, and leaves the
handle on it, or on the first session when there is none. -/
theorem find_cells {first : Ptr × Session} (linked : Linked clients (first :: cells))
    (positive : id ≠ 0) {search : Option (Ptr × Session)}
    (searched : ((first :: cells).find? fun cell => cell.2.clientId == id) = search) :
    clientsSessionFind clients id =
      some (search.isSome, { clients with ca := some (search.getD first).1 }) := by
  cases handle : clients.ca with
  | none => exact absurd (linked.null handle) (List.cons_ne_nil _ _)
  | some ca =>
      have found := linked.wellLinked.find_all fun session => session.clientId == id
      rw [searched] at found
      cases search <;>
        simp [clientsSessionFind, handle, positive, getBeg_eq linked handle, found]

/-- `clients_session_find` finds the first session with the descriptor. -/
theorem find_eq (linked : Linked clients cells) (positive : id ≠ 0)
    (found : (cells.find? fun cell => cell.2.clientId == id) = some cell) :
    clientsSessionFind clients id = some (true, { clients with ca := some cell.1 }) := by
  cases cells with
  | nil => cases found
  | cons first cells => exact find_cells linked positive found

/-- With distinct descriptors, the first session with a descriptor is the only one. -/
theorem find?_middle (distinct : ((front ++ cell :: back).map fun cell => cell.2.clientId).Nodup) :
    ((front ++ cell :: back).find? fun other => other.2.clientId == cell.2.clientId) =
      some cell := by
  rw [List.map_append, List.map_cons] at distinct
  have others := (List.nodup_cons.mp (List.nodup_middle.mp distinct)).1
  rw [List.find?_append, List.find?_eq_none.mpr, Option.none_or, List.find?_cons_of_pos (by simp)]
  intro other member
  rw [beq_iff_eq]
  intro same
  apply others
  exact List.mem_append_left _ (List.mem_map.mpr ⟨other, member, same⟩)

/-! ### Changing the list -/

/-- `clients_session_add` puts a session at the end. -/
theorem add_linked (linked : Linked clients cells) (positive : id ≠ 0)
    (memory : Nat → UInt8) :
    ∃ added p, clientsSessionAdd clients id memory = some added ∧
      Linked added (cells ++ [(p, clientsSessionInit id memory)]) := by
  cases handle : clients.ca with
  | none =>
      rw [linked.null handle]
      have wellLinked := linked.wellLinked
      rw [linked.null handle] at wellLinked
      refine ⟨⟨_, some clients.heap.fresh⟩, clients.heap.fresh,
        by simp [clientsSessionAdd, handle, positive]; rfl, ?_⟩
      refine ⟨wellLinked_alloc wellLinked _, nofun, ?_⟩
      rintro ca ⟨rfl⟩
      simp
  | some ca =>
      have end_ := getEnd_eq linked handle
      obtain ⟨front, here, back, rfl, rfl⟩ := linked.split handle
      obtain ⟨last, isLast⟩ : ∃ last, lastPtr none (front ++ here :: back) = some last := by
        rw [lastPtr_append]
        exact lastPtr_isSome _ _
      rw [isLast] at end_
      refine ⟨⟨_, some last⟩, clients.heap.fresh,
        by simp [clientsSessionAdd, handle, positive, end_]; rfl, ?_⟩
      refine ⟨wellLinked_append linked.wellLinked isLast _, nofun, ?_⟩
      rintro ca ⟨rfl⟩
      rw [List.map_append]
      exact List.mem_append_left _ ((mem_of_lastPtr isLast).resolve_right nofun)

/-- A session is changed in its place. -/
theorem setItem_linked (linked : Linked clients (front ++ cell :: back)) (session : Session) :
    Linked { clients with heap := clients.heap.setItem cell.1 session }
      (front ++ (cell.1, session) :: back) := by
  refine ⟨wellLinked_setItem linked.wellLinked session, ?_, ?_⟩
  · intro handle
    have := linked.null handle
    simp at this
  · intro ca handle
    simpa using linked.inside ca handle

/-- `clients_session_free` takes out the session under the handle, and leaves the handle on
the one before it, or else on the one behind it. -/
theorem free_linked (linked : Linked clients (front ++ cell :: back)) :
    ∃ freed, clientsSessionFree { clients with ca := some cell.1 } = some freed ∧
      freed.ca = (lastPtr none front).or (headPtr none back) ∧
      freed.heap.fresh = clients.heap.fresh ∧ Linked freed (front ++ back) := by
  obtain ⟨unlinked, unlinks, sameFresh, wellLinked⟩ := wellLinked_unlink linked.wellLinked
  have node := linked.wellLinked.linked.node_mid
  refine ⟨⟨unlinked, (lastPtr none front).or (headPtr none back)⟩,
    by simp [clientsSessionFree, node, unlinks], rfl, sameFresh, wellLinked, ?_, ?_⟩
  · intro null
    rw [Option.or_eq_none_iff] at null
    rw [eq_nil_of_lastPtr null.1, eq_nil_of_headPtr null.2, List.nil_append]
  · intro ca handle
    rw [List.map_append, List.mem_append]
    rcases Option.or_eq_some_iff.mp handle with isLast | ⟨-, isHead⟩
    · exact .inl ((mem_of_lastPtr isLast).resolve_right nofun)
    · exact .inr (mem_of_headPtr isHead)

/-- `clients_session_remove` takes out the session that it finds. -/
theorem remove_linked (linked : Linked clients (front ++ cell :: back)) (positive : id ≠ 0)
    (found : ((front ++ cell :: back).find? fun cell => cell.2.clientId == id) = some cell) :
    ∃ removed, clientsSessionRemove clients id = some (true, removed) ∧
      removed.ca = (lastPtr none front).or (headPtr none back) ∧
      Linked removed (front ++ back) := by
  obtain ⟨freed, frees, handle, -, freedLinked⟩ := free_linked linked
  have notNull : clients.ca.isNone = false := by
    cases handle : clients.ca with
    | none => simpa using linked.null handle
    | some ca => rfl
  refine ⟨freed, ?_, handle, freedLinked⟩
  simp [clientsSessionRemove, notNull, find_eq linked positive found, frees]

end NetworkExercises.MeansToAnEnd.C
