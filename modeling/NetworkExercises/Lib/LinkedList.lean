/-
Module: NetworkExercises.Lib.LinkedList
Purpose: Doubly linked lists in a heap of nodes, reached through a pointer to any of them:
  walking to an end, searching, linking a node in and out.
Main exports: Heap, walk, findNode, visit, append, unlink, Segment, WellLinked, Joined,
  WellLinked.reaches_iff, walk_prev, walk_next, findNode_cells, visit_cells, findNode_sound,
  WellLinked.walk_first, WellLinked.visit_all, WellLinked.find_all, wellLinked_append,
  wellLinked_unlink, wellLinked_setItem
-/
import Mathlib.Tactic

namespace NetworkExercises.Lib

abbrev Ptr := Nat

structure Node (α : Type) where
  item : α
  next : Option Ptr
  prev : Option Ptr
deriving DecidableEq

/-- The nodes that are allocated; every address from `fresh` on is still free. -/
structure Heap (α : Type) where
  node : Ptr → Option (Node α)
  fresh : Ptr

variable {α : Type}

/-! ### The operations -/

namespace Heap

def empty : Heap α := ⟨fun _ => none, 0⟩

/-- Set a node that is allocated. -/
def set (heap : Heap α) (p : Ptr) (node : Node α) : Heap α :=
  { heap with node := Function.update heap.node p (some node) }

/-- Allocate a node; its address is `heap.fresh`. -/
def alloc (heap : Heap α) (node : Node α) : Heap α :=
  ⟨Function.update heap.node heap.fresh (some node), heap.fresh + 1⟩

def free (heap : Heap α) (p : Ptr) : Heap α :=
  { heap with node := Function.update heap.node p none }

/-- Change the item of a node. -/
def setItem (heap : Heap α) (p : Ptr) (item : α) : Heap α :=
  match heap.node p with
  | none => heap
  | some node => heap.set p { node with item := item }

/-- Change the link of a node to the next one, if there is a node. -/
def setNext (heap : Heap α) (p next : Option Ptr) : Heap α :=
  match p with
  | none => heap
  | some p =>
      match heap.node p with
      | none => heap
      | some node => heap.set p { node with next := next }

/-- Change the link of a node to the one before it, if there is a node. -/
def setPrev (heap : Heap α) (p prev : Option Ptr) : Heap α :=
  match p with
  | none => heap
  | some p =>
      match heap.node p with
      | none => heap
      | some node => heap.set p { node with prev := prev }

end Heap

/-- Follow a link until there is no further node; no result where a pointer dangles. -/
def walk (link : Node α → Option Ptr) (heap : Heap α) : (turns : Nat) → Ptr → Option Ptr
  | 0, _ => none
  | turns + 1, p =>
      heap.node p >>= fun node =>
        match link node with
        | none => some p
        | some further => walk link heap turns further

/-- The first node from `p` on whose item passes a test, if one does; no result where a
pointer dangles. -/
def findNode (test : α → Bool) (heap : Heap α) : (turns : Nat) → Ptr → Option (Option Ptr)
  | 0, _ => none
  | turns + 1, p =>
      heap.node p >>= fun node =>
        if test node.item then some (some p)
        else
          match node.next with
          | none => some none
          | some further => findNode test heap turns further

/-- Do something with the item of every node from `p` on; no result where it fails, or where
a pointer dangles. -/
def visit {β : Type} (act : β → α → Option β) (heap : Heap α) :
    (turns : Nat) → Ptr → β → Option β
  | 0, _, _ => none
  | turns + 1, p, state => do
      let node ← heap.node p
      let state ← act state node.item
      match node.next with
      | none => some state
      | some further => visit act heap turns further state

/-- Allocate a node and link it behind the last one. -/
def append (heap : Heap α) (last : Ptr) (item : α) : Heap α :=
  ((heap.alloc ⟨item, none, none⟩).setNext (some last) (some heap.fresh)).setPrev
    (some heap.fresh) (some last)

/-- Take a node out of its list and free it. -/
def unlink (heap : Heap α) (p : Ptr) : Option (Heap α) :=
  (heap.node p).map fun node =>
    ((heap.setNext node.prev node.next).setPrev node.next node.prev).free p

/-! ### What is linked -/

/-- The address of the first cell, `next` when there is none. -/
def headPtr (next : Option Ptr) : List (Ptr × α) → Option Ptr
  | [] => next
  | cell :: _ => some cell.1

/-- The address of the last cell, `prev` when there is none. -/
def lastPtr (prev : Option Ptr) : List (Ptr × α) → Option Ptr
  | [] => prev
  | cell :: cells => lastPtr (some cell.1) cells

/-- The cells lie in the heap, linked both ways, between `prev` and `next`. -/
def Segment (heap : Heap α) (prev : Option Ptr) : List (Ptr × α) → Option Ptr → Prop
  | [], _ => True
  | cell :: cells, next =>
      heap.node cell.1 = some ⟨cell.2, headPtr next cells, prev⟩ ∧
        Segment heap (some cell.1) cells next

/-- The heap holds these cells as one list, and nothing else. -/
structure WellLinked (heap : Heap α) (cells : List (Ptr × α)) : Prop where
  linked : Segment heap none cells none
  distinct : (cells.map Prod.fst).Nodup
  below : ∀ p ∈ cells.map Prod.fst, p < heap.fresh
  only : ∀ p, (heap.node p).isSome → p ∈ cells.map Prod.fst

/-- A node has a link to another one. -/
def Joined (heap : Heap α) (p q : Ptr) : Prop :=
  ∃ node, heap.node p = some node ∧ (node.next = some q ∨ node.prev = some q)

variable {heap other : Heap α} {front back cells : List (Ptr × α)} {cell : Ptr × α}
  {prev next : Option Ptr} {p : Ptr}

@[simp] theorem headPtr_append :
    headPtr next (front ++ back) = headPtr (headPtr next back) front := by
  cases front <;> rfl

@[simp] theorem lastPtr_append :
    lastPtr prev (front ++ back) = lastPtr (lastPtr prev front) back := by
  induction front generalizing prev with
  | nil => rfl
  | cons cell front ih => exact ih

theorem segment_append :
    Segment heap prev (front ++ back) next ↔
      Segment heap prev front (headPtr next back) ∧
        Segment heap (lastPtr prev front) back next := by
  induction front generalizing prev with
  | nil => simp [Segment, lastPtr]
  | cons cell front ih => rw [List.cons_append, Segment, Segment, ih, headPtr_append,
      and_assoc, lastPtr]

/-- A segment depends on its own nodes only. -/
theorem Segment.congr (segment : Segment heap prev cells next)
    (same : ∀ p ∈ cells.map Prod.fst, other.node p = heap.node p) :
    Segment other prev cells next := by
  induction cells generalizing prev with
  | nil => trivial
  | cons cell cells ih =>
      obtain ⟨first, others⟩ := segment
      rw [List.map_cons, List.forall_mem_cons] at same
      exact ⟨(same.1).trans first, ih others same.2⟩

/-- A node of a segment. -/
theorem Segment.node_mid (segment : Segment heap prev (front ++ cell :: back) next) :
    heap.node cell.1 = some ⟨cell.2, headPtr next back, lastPtr prev front⟩ :=
  (segment_append.mp segment).2.1

theorem mem_of_headPtr (isHead : headPtr none cells = some p) : p ∈ cells.map Prod.fst := by
  cases cells with
  | nil => cases isHead
  | cons cell cells =>
      rw [headPtr, Option.some.injEq] at isHead
      simp [isHead]

theorem mem_of_lastPtr (isLast : lastPtr prev cells = some p) :
    p ∈ cells.map Prod.fst ∨ prev = some p := by
  induction cells generalizing prev with
  | nil => exact .inr isLast
  | cons cell cells ih =>
      rcases ih isLast with member | same
      · exact .inl (List.mem_cons_of_mem _ member)
      · exact .inl (by simp [Option.some.inj same])

theorem lastPtr_isSome (p : Ptr) (cells : List (Ptr × α)) :
    ∃ last, lastPtr (some p) cells = some last := by
  induction cells generalizing p with
  | nil => exact ⟨p, rfl⟩
  | cons cell cells ih => exact ih cell.1

theorem eq_nil_of_headPtr (none_ : headPtr none cells = none) : cells = [] := by
  cases cells with
  | nil => rfl
  | cons cell cells => cases none_

theorem eq_nil_of_lastPtr (none_ : lastPtr none cells = none) : cells = [] := by
  cases cells with
  | nil => rfl
  | cons cell cells =>
      obtain ⟨last, isLast⟩ := lastPtr_isSome cell.1 cells
      rw [lastPtr, isLast] at none_
      cases none_

theorem WellLinked.length_le (wellLinked : WellLinked heap cells) : cells.length ≤ heap.fresh := by
  have below : cells.map Prod.fst ⊆ List.range heap.fresh :=
    fun p member => List.mem_range.mpr (wellLinked.below p member)
  simpa using (wellLinked.distinct.subperm below).length_le

theorem wellLinked_empty : WellLinked (Heap.empty : Heap α) [] :=
  ⟨trivial, List.nodup_nil, nofun, nofun⟩

/-! ### What the links reach -/

theorem Segment.joined_mem (segment : Segment heap none cells none)
    (member : p ∈ cells.map Prod.fst) {q : Ptr} (joined : Joined heap p q) :
    q ∈ cells.map Prod.fst := by
  obtain ⟨cell, isCell, rfl⟩ := List.mem_map.mp member
  obtain ⟨front, back, rfl⟩ := List.append_of_mem isCell
  obtain ⟨node, isNode, link⟩ := joined
  rw [segment.node_mid, Option.some.injEq] at isNode
  subst isNode
  rw [List.map_append, List.mem_append, List.map_cons]
  rcases link with isHead | isLast
  · exact .inr (List.mem_cons_of_mem _ (mem_of_headPtr isHead))
  · exact .inl ((mem_of_lastPtr isLast).resolve_right nofun)

/-- Neighbours are linked both ways, so that every cell of a segment reaches every other. -/
theorem Segment.reaches (segment : Segment heap prev (cell :: cells) next)
    (member : p ∈ (cell :: cells).map Prod.fst) :
    Relation.ReflTransGen (Joined heap) cell.1 p ∧
      Relation.ReflTransGen (Joined heap) p cell.1 := by
  induction cells generalizing prev cell with
  | nil =>
      rw [List.map_singleton, List.mem_singleton] at member
      subst member
      exact ⟨.refl, .refl⟩
  | cons second cells ih =>
      obtain ⟨isFirst, others⟩ := segment
      rw [List.map_cons, List.mem_cons] at member
      rcases member with rfl | member
      · exact ⟨.refl, .refl⟩
      · obtain ⟨forth, back⟩ := ih others member
        have on : Joined heap cell.1 second.1 := ⟨_, isFirst, .inl rfl⟩
        have off : Joined heap second.1 cell.1 := ⟨_, others.1, .inr rfl⟩
        exact ⟨.head on forth, back.tail off⟩

/-- From any cell, the links reach the cells and nothing else. -/
theorem WellLinked.reaches_iff (wellLinked : WellLinked heap cells)
    (member : p ∈ cells.map Prod.fst) (q : Ptr) :
    Relation.ReflTransGen (Joined heap) p q ↔ q ∈ cells.map Prod.fst := by
  constructor
  · intro reaches
    induction reaches with
    | refl => exact member
    | tail _ joined ih => exact wellLinked.linked.joined_mem ih joined
  · intro isCell
    cases cells with
    | nil => cases member
    | cons first cells =>
        exact (wellLinked.linked.reaches member).2.trans (wellLinked.linked.reaches isCell).1

/-! ### Walking and searching -/

/-- Walking back from a cell ends at the first one. -/
theorem walk_prev {turns : Nat} (segment : Segment heap none (front ++ cell :: back) next)
    (enough : front.length < turns) :
    walk Node.prev heap turns cell.1 = headPtr (some cell.1) front := by
  induction front using List.reverseRecOn generalizing cell back turns with
  | nil =>
      obtain ⟨turns, rfl⟩ := Nat.exists_eq_succ_of_ne_zero (Nat.ne_zero_of_lt enough)
      rw [walk, segment.node_mid]
      rfl
  | append_singleton front last ih =>
      obtain ⟨turns, rfl⟩ := Nat.exists_eq_succ_of_ne_zero (Nat.ne_zero_of_lt enough)
      rw [walk, segment.node_mid]
      rw [List.append_assoc, List.singleton_append] at segment
      rw [List.length_append, List.length_singleton] at enough
      simp only [Option.bind_eq_bind, Option.bind_some, lastPtr_append, headPtr_append]
      exact ih segment (Nat.lt_of_succ_lt_succ enough)

/-- Walking on from a cell ends at the last one. -/
theorem walk_next {turns : Nat} (segment : Segment heap prev (front ++ cell :: back) none)
    (enough : back.length < turns) :
    walk Node.next heap turns cell.1 = lastPtr (some cell.1) back := by
  induction back generalizing front cell turns with
  | nil =>
      obtain ⟨turns, rfl⟩ := Nat.exists_eq_succ_of_ne_zero (Nat.ne_zero_of_lt enough)
      rw [walk, segment.node_mid]
      rfl
  | cons further back ih =>
      obtain ⟨turns, rfl⟩ := Nat.exists_eq_succ_of_ne_zero (Nat.ne_zero_of_lt enough)
      rw [walk, segment.node_mid]
      rw [← List.singleton_append, ← List.append_assoc] at segment
      exact ih segment (Nat.lt_of_succ_lt_succ enough)

/-- Searching from a cell on finds the first cell that passes the test. -/
theorem findNode_cells (test : α → Bool) {turns : Nat}
    (segment : Segment heap prev (cell :: cells) none) (enough : cells.length < turns) :
    findNode test heap turns cell.1 =
      some (((cell :: cells).find? fun cell => test cell.2).map Prod.fst) := by
  induction cells generalizing prev cell turns with
  | nil =>
      obtain ⟨turns, rfl⟩ := Nat.exists_eq_succ_of_ne_zero (Nat.ne_zero_of_lt enough)
      rw [findNode, segment.1, List.find?_cons]
      cases passes : test cell.2 <;> simp [passes, headPtr]
  | cons further cells ih =>
      obtain ⟨turns, rfl⟩ := Nat.exists_eq_succ_of_ne_zero (Nat.ne_zero_of_lt enough)
      have rest := ih segment.2 (Nat.lt_of_succ_lt_succ enough)
      rw [findNode, segment.1, List.find?_cons]
      cases passes : test cell.2 with
      | true => simp [passes]
      | false => simpa [passes, headPtr] using rest

/-- Visiting from a cell on does something with every cell that follows, in their order. -/
theorem visit_cells {β : Type} (act : β → α → Option β) {turns : Nat} (state : β)
    (segment : Segment heap prev (cell :: cells) none) (enough : cells.length < turns) :
    visit act heap turns cell.1 state =
      (cell :: cells).foldlM (fun state cell => act state cell.2) state := by
  induction cells generalizing prev cell turns state with
  | nil =>
      obtain ⟨turns, rfl⟩ := Nat.exists_eq_succ_of_ne_zero (Nat.ne_zero_of_lt enough)
      rw [visit, segment.1, List.foldlM_cons]
      rfl
  | cons further cells ih =>
      obtain ⟨turns, rfl⟩ := Nat.exists_eq_succ_of_ne_zero (Nat.ne_zero_of_lt enough)
      rw [visit, segment.1, List.foldlM_cons]
      simp only [Option.bind_eq_bind, Option.bind_some, headPtr]
      congr 1
      funext after
      exact ih after segment.2 (Nat.lt_of_succ_lt_succ enough)

/-- The node of a cell holds its item. -/
theorem WellLinked.node_of_mem (wellLinked : WellLinked heap cells) (member : cell ∈ cells) :
    ∃ node, heap.node cell.1 = some node ∧ node.item = cell.2 := by
  obtain ⟨front, back, rfl⟩ := List.append_of_mem member
  exact ⟨_, wellLinked.linked.node_mid, rfl⟩

/-- What a node holds is a cell. -/
theorem WellLinked.mem_of_node (wellLinked : WellLinked heap cells) {node : Node α}
    (isNode : heap.node p = some node) : (p, node.item) ∈ cells := by
  obtain ⟨cell, member, rfl⟩ :=
    List.mem_map.mp (wellLinked.only p (by rw [isNode, Option.isSome_some]))
  obtain ⟨other, isOther, itemEq⟩ := wellLinked.node_of_mem member
  rw [isNode, Option.some.injEq] at isOther
  rw [isOther, itemEq]
  exact member

/-- Two cells at one address are the same. -/
theorem WellLinked.cell_unique (wellLinked : WellLinked heap cells) {other : Ptr × α}
    (member : cell ∈ cells) (isOther : other ∈ cells) (same : cell.1 = other.1) : cell = other :=
  List.inj_on_of_nodup_map wellLinked.distinct member isOther same

/-- From any cell of a list, walking back leads to the first one. -/
theorem WellLinked.walk_first (wellLinked : WellLinked heap cells) (member : cell ∈ cells) :
    ∃ first others, cells = first :: others ∧
      walk Node.prev heap heap.fresh cell.1 = some first.1 := by
  obtain ⟨front, back, rfl⟩ := List.append_of_mem member
  have length := wellLinked.length_le
  rw [List.length_append, List.length_cons] at length
  rw [walk_prev wellLinked.linked (by omega)]
  cases front with
  | nil => exact ⟨cell, back, rfl, rfl⟩
  | cons first front => exact ⟨first, _, rfl, rfl⟩

/-- The visit from the first cell goes through all of them. -/
theorem WellLinked.visit_all {β : Type} (wellLinked : WellLinked heap (cell :: cells))
    (act : β → α → Option β) (state : β) :
    visit act heap heap.fresh cell.1 state =
      (cell :: cells).foldlM (fun state cell => act state cell.2) state :=
  visit_cells act state wellLinked.linked (Nat.lt_of_succ_le wellLinked.length_le)

/-- The search from the first cell goes through all of them. -/
theorem WellLinked.find_all (wellLinked : WellLinked heap (cell :: cells)) (test : α → Bool) :
    findNode test heap heap.fresh cell.1 =
      some (((cell :: cells).find? fun cell => test cell.2).map Prod.fst) :=
  findNode_cells test wellLinked.linked (Nat.lt_of_succ_le wellLinked.length_le)

/-- What is found lies in the heap and passes the test. -/
theorem findNode_sound {test : α → Bool} {turns : Nat} {found : Ptr}
    (search : findNode test heap turns p = some (some found)) :
    ∃ node, heap.node found = some node ∧ test node.item = true := by
  induction turns generalizing p with
  | zero => cases search
  | succ turns ih =>
      obtain ⟨node, isNode, search⟩ := Option.bind_eq_some_iff.mp search
      split at search
      · next passes =>
        cases search
        exact ⟨node, isNode, passes⟩
      · split at search
        · cases search
        · exact ih search

/-! ### Changing a node -/

@[simp] theorem Heap.set_node_of_ne {node : Node α} {q : Ptr} (ne : q ≠ p) :
    (heap.set p node).node q = heap.node q := Function.update_of_ne ne _ _

@[simp] theorem Heap.set_node_self {node : Node α} : (heap.set p node).node p = some node :=
  Function.update_self _ _ _

@[simp] theorem Heap.free_node_of_ne {q : Ptr} (ne : q ≠ p) :
    (heap.free p).node q = heap.node q := Function.update_of_ne ne _ _

@[simp] theorem Heap.alloc_node_of_ne {node : Node α} {q : Ptr} (ne : q ≠ heap.fresh) :
    (heap.alloc node).node q = heap.node q := Function.update_of_ne ne _ _

@[simp] theorem Heap.alloc_node_self {node : Node α} :
    (heap.alloc node).node heap.fresh = some node := Function.update_self _ _ _

theorem Heap.set_isSome {node : Node α} {q : Ptr} (isNode : (heap.node p).isSome) :
    ((heap.set p node).node q).isSome = (heap.node q).isSome := by
  by_cases same : q = p
  · rw [same, Heap.set_node_self, isNode, Option.isSome_some]
  · rw [Heap.set_node_of_ne same]

section Links

variable {pointer link : Option Ptr} {q : Ptr}

@[simp] theorem Heap.setNext_fresh : (heap.setNext pointer link).fresh = heap.fresh := by
  unfold Heap.setNext
  split
  · rfl
  · split <;> rfl

@[simp] theorem Heap.setPrev_fresh : (heap.setPrev pointer link).fresh = heap.fresh := by
  unfold Heap.setPrev
  split
  · rfl
  · split <;> rfl

@[simp] theorem Heap.setNext_isSome :
    ((heap.setNext pointer link).node q).isSome = (heap.node q).isSome := by
  unfold Heap.setNext
  split
  · rfl
  · split
    · rfl
    · next found => exact Heap.set_isSome (by rw [found, Option.isSome_some])

@[simp] theorem Heap.setPrev_isSome :
    ((heap.setPrev pointer link).node q).isSome = (heap.node q).isSome := by
  unfold Heap.setPrev
  split
  · rfl
  · split
    · rfl
    · next found => exact Heap.set_isSome (by rw [found, Option.isSome_some])

theorem Heap.setNext_node_of_ne (ne : pointer ≠ some q) :
    (heap.setNext pointer link).node q = heap.node q := by
  unfold Heap.setNext
  split
  · rfl
  · split
    · rfl
    · exact Heap.set_node_of_ne fun same => ne (by rw [same])

theorem Heap.setPrev_node_of_ne (ne : pointer ≠ some q) :
    (heap.setPrev pointer link).node q = heap.node q := by
  unfold Heap.setPrev
  split
  · rfl
  · split
    · rfl
    · exact Heap.set_node_of_ne fun same => ne (by rw [same])

end Links

/-- Linking the last cell to something else. -/
theorem Segment.setNext (segment : Segment heap prev front next)
    (distinct : (front.map Prod.fst).Nodup) (link : Option Ptr) :
    Segment (heap.setNext (lastPtr none front) link) prev front link := by
  rcases List.eq_nil_or_concat front with rfl | ⟨init, last, rfl⟩
  · trivial
  · rw [List.concat_eq_append] at segment distinct ⊢
    have node := segment.node_mid
    obtain ⟨initLinked, -⟩ := segment_append.mp segment
    rw [List.map_append, List.nodup_append] at distinct
    have set : heap.setNext (lastPtr none (init ++ [last])) link =
        heap.set last.1 ⟨last.2, link, lastPtr prev init⟩ := by
      simp [lastPtr, Heap.setNext, node]
    rw [set, segment_append]
    refine ⟨?_, by simp [headPtr], trivial⟩
    apply initLinked.congr
    intro p member
    apply Heap.set_node_of_ne
    exact distinct.2.2 p member last.1 (by simp)

/-- Linking the first cell back to something else. -/
theorem Segment.setPrev (segment : Segment heap prev back next)
    (distinct : (back.map Prod.fst).Nodup) (link : Option Ptr) :
    Segment (heap.setPrev (headPtr none back) link) link back next := by
  cases back with
  | nil => trivial
  | cons cell back =>
      obtain ⟨node, others⟩ := segment
      have set : heap.setPrev (headPtr none (cell :: back)) link =
          heap.set cell.1 ⟨cell.2, headPtr next back, link⟩ := by
        simp [headPtr, Heap.setPrev, node]
      rw [List.map_cons, List.nodup_cons] at distinct
      rw [set]
      refine ⟨Heap.set_node_self, others.congr fun p member => Heap.set_node_of_ne ?_⟩
      rintro rfl
      exact distinct.1 member

/-! ### Linking in and out -/

/-- The list without one of its cells. -/
theorem wellLinked_unlink (wellLinked : WellLinked heap (front ++ cell :: back)) :
    ∃ unlinked, unlink heap cell.1 = some unlinked ∧ unlinked.fresh = heap.fresh ∧
      WellLinked unlinked (front ++ back) := by
  obtain ⟨linked, distinct, below, only⟩ := wellLinked
  have node := linked.node_mid
  obtain ⟨frontLinked, -, backLinked⟩ := segment_append.mp linked
  have ptrs : (front ++ cell :: back).map Prod.fst =
      front.map Prod.fst ++ cell.1 :: back.map Prod.fst := by simp
  rw [ptrs] at distinct below only
  obtain ⟨cellOut, both⟩ := List.nodup_cons.mp (List.nodup_middle.mp distinct)
  obtain ⟨frontDistinct, backDistinct, apart⟩ := List.nodup_append.mp both
  refine ⟨_, by rw [unlink, node, Option.map_some], by simp [Heap.free], ?_⟩
  refine ⟨segment_append.mpr ⟨?_, ?_⟩, by rwa [List.map_append], ?_, ?_⟩
  · -- The part in front only feels the change of its last link.
    apply (frontLinked.setNext frontDistinct (headPtr none back)).congr
    intro p member
    rw [Heap.free_node_of_ne, Heap.setPrev_node_of_ne]
    · intro isHead
      exact apart p member p (mem_of_headPtr isHead) rfl
    · rintro rfl
      exact cellOut (List.mem_append_left _ member)
  · -- The part behind only feels the change of its first link back.
    have unmoved : Segment (heap.setNext (lastPtr none front) (headPtr none back))
        (some cell.1) back none := by
      apply backLinked.congr
      intro p member
      apply Heap.setNext_node_of_ne
      intro isLast
      have inFront := (mem_of_lastPtr isLast).resolve_right nofun
      exact apart p inFront p member rfl
    apply (unmoved.setPrev backDistinct (lastPtr none front)).congr
    intro p member
    apply Heap.free_node_of_ne
    rintro rfl
    exact cellOut (List.mem_append_right _ member)
  · intro p member
    rw [List.map_append] at member
    have := below p (by
      rcases List.mem_append.mp member with inFront | inBack
      · exact List.mem_append_left _ inFront
      · exact List.mem_append_right _ (List.mem_cons_of_mem _ inBack))
    simpa [Heap.free] using this
  · intro p isNode
    have ne : p ≠ cell.1 := by
      rintro rfl
      simp [Heap.free] at isNode
    rw [Heap.free_node_of_ne ne, Heap.setPrev_isSome, Heap.setNext_isSome] at isNode
    have member := only p isNode
    rw [List.map_append]
    simpa [ne] using member

/-- A list of one cell. -/
theorem wellLinked_alloc (wellLinked : WellLinked heap []) (item : α) :
    WellLinked (heap.alloc ⟨item, none, none⟩) [(heap.fresh, item)] := by
  refine ⟨⟨Heap.alloc_node_self, trivial⟩, List.nodup_singleton _, ?_, ?_⟩
  · intro p member
    rw [List.map_singleton, List.mem_singleton] at member
    rw [member]
    exact Nat.lt_succ_self _
  · intro p isNode
    by_contra other
    have ne : p ≠ heap.fresh := fun same => other (by rw [same]; simp)
    rw [Heap.alloc_node_of_ne ne] at isNode
    exact absurd (wellLinked.only p isNode) List.not_mem_nil

/-- The list with one more cell at its end. -/
theorem wellLinked_append (wellLinked : WellLinked heap cells) {last : Ptr}
    (isLast : lastPtr none cells = some last) (item : α) :
    WellLinked (append heap last item) (cells ++ [(heap.fresh, item)]) := by
  obtain ⟨linked, distinct, below, only⟩ := wellLinked
  have lastMember := (mem_of_lastPtr isLast).resolve_right nofun
  have freshOut : heap.fresh ∉ cells.map Prod.fst :=
    fun member => absurd (below _ member) (Nat.lt_irrefl _)
  have allocated : Segment (heap.alloc ⟨item, none, none⟩) none cells none := by
    apply linked.congr
    intro p member
    apply Heap.alloc_node_of_ne
    rintro rfl
    exact freshOut member
  have linkedOn := allocated.setNext distinct (some heap.fresh)
  rw [isLast] at linkedOn
  have lastNe : some last ≠ some heap.fresh := by
    rintro ⟨⟩
    exact freshOut lastMember
  refine ⟨segment_append.mpr ⟨?_, ?_, trivial⟩, ?_, ?_, ?_⟩
  · apply linkedOn.congr
    intro p member
    apply Heap.setPrev_node_of_ne
    rintro ⟨⟩
    exact freshOut member
  · rw [isLast, append, Heap.setPrev, Heap.setNext_node_of_ne lastNe,
      Heap.alloc_node_self]
    exact Heap.set_node_self
  · rw [List.map_append, List.map_singleton, List.nodup_append]
    refine ⟨distinct, List.nodup_singleton _, ?_⟩
    rintro p member q isNew rfl
    rw [List.mem_singleton.mp isNew] at member
    exact freshOut member
  · intro p member
    rw [append, Heap.setPrev_fresh, Heap.setNext_fresh]
    rw [List.map_append, List.map_singleton, List.mem_append, List.mem_singleton] at member
    rcases member with member | rfl
    · exact Nat.lt_succ_of_lt (below p member)
    · exact Nat.lt_succ_self _
  · intro p isNode
    rw [append, Heap.setPrev_isSome, Heap.setNext_isSome] at isNode
    rw [List.map_append, List.map_singleton, List.mem_append, List.mem_singleton]
    by_cases isNew : p = heap.fresh
    · exact .inr isNew
    · rw [Heap.alloc_node_of_ne isNew] at isNode
      exact .inl (only p isNode)

/-- Another item in one of the cells. -/
theorem wellLinked_setItem (wellLinked : WellLinked heap (front ++ cell :: back)) (item : α) :
    WellLinked (heap.setItem cell.1 item) (front ++ (cell.1, item) :: back) := by
  obtain ⟨linked, distinct, below, only⟩ := wellLinked
  have node := linked.node_mid
  obtain ⟨frontLinked, -, backLinked⟩ := segment_append.mp linked
  have samePtrs : (front ++ (cell.1, item) :: back).map Prod.fst =
      (front ++ cell :: back).map Prod.fst := by simp
  have ptrs : (front ++ cell :: back).map Prod.fst =
      front.map Prod.fst ++ cell.1 :: back.map Prod.fst := by simp
  have cellOut := (List.nodup_cons.mp (List.nodup_middle.mp (ptrs ▸ distinct))).1
  have set : heap.setItem cell.1 item =
      heap.set cell.1 ⟨item, headPtr none back, lastPtr none front⟩ := by
    simp [Heap.setItem, node]
  rw [set]
  refine ⟨segment_append.mpr ⟨?_, Heap.set_node_self, ?_⟩, by rwa [samePtrs],
    by rwa [samePtrs], ?_⟩
  · apply frontLinked.congr
    intro p member
    apply Heap.set_node_of_ne
    rintro rfl
    exact cellOut (List.mem_append_left _ member)
  · apply backLinked.congr
    intro p member
    apply Heap.set_node_of_ne
    rintro rfl
    exact cellOut (List.mem_append_right _ member)
  · intro p isNode
    rw [Heap.set_isSome (by rw [node, Option.isSome_some])] at isNode
    rw [samePtrs]
    exact only p isNode

end NetworkExercises.Lib
