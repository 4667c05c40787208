/-
Module: NetworkExercises.BudgetChat.Proofs.Usernames
Purpose: Which names the C server accepts.  Names are compared up to the length of the new one
  only, so that a name is refused with which another one begins.
Main exports: strncmpEqual_iff, Client.called, Proper, Begins, Unused, readName, Client.pop,
  Client.accept, validateUsername_accepts, validateUsername_rejects, Acceptable, Decisive,
  validateUsername_iff
-/
import NetworkExercises.BudgetChat.Proofs.Recipients
import NetworkExercises.CUtils.Proofs.Queue

namespace NetworkExercises.BudgetChat.C

open Lib CUtils
open SpeedDaemon (SocketFd)

variable {heap : Heap Client} {front back cells : List (Ptr × Client)} {p : Ptr}
  {me : Client} {name : Bytes} {size : Nat} {qu : Queue}

/-! ### Memory -/

theorem load_eq_load_iff {first second : Nat → UInt8} :
    load first size = load second size ↔ ∀ i < size, first i = second i := by
  rw [load, load, List.map_inj_left]
  simp only [List.mem_range]

theorem dropLast_load (data : Nat → UInt8) (size : Nat) :
    (load data size).dropLast = load data (size - 1) := by
  rw [List.dropLast_eq_take, load_length, take_load _ (Nat.sub_le _ _)]

/-- Against a text without a NUL, texts are equal when their bytes are. -/
theorem strncmpEqual_iff {s1 s2 : Nat → UInt8} (nonzero : ∀ i < size, s2 i ≠ 0) :
    strncmpEqual s1 s2 size = true ↔ load s1 size = load s2 size := by
  rw [load_eq_load_iff]
  unfold strncmpEqual
  split
  · next same =>
    rw [List.find?_eq_none] at same
    refine iff_of_true rfl fun i inside => ?_
    have both := same i (List.mem_range.mpr inside)
    rw [decide_eq_true_eq, not_or] at both
    exact not_not.mp both.1
  · next i found =>
    have inside := List.mem_range.mp (List.mem_of_find?_eq_some found)
    have differ := List.find?_some found
    rw [decide_eq_true_eq] at differ ⊢
    constructor
    · intro same
      rcases differ with other | ends
      · exact absurd same other
      · exact absurd (same ▸ ends) (nonzero i inside)
    · exact fun all => all i inside

/-! ### What the code reads -/

/-- The name that a client has been accepted under. -/
def Client.called (client : Client) : Bytes := load client.name client.nameSize

/-- 1 to 31 letters and digits. -/
structure Proper (name : Bytes) : Prop where
  nonempty : 1 ≤ name.length
  short : name.length < clientMaxName
  alnum : name.all isalnum = true

/-- The memory of the client's name begins with these bytes. -/
def Begins (name : Bytes) (client : Client) : Prop := load client.name name.length = name

/-- No other client with a name has one that begins so. -/
def Unused (me : SocketFd) (cells : List (Ptr × Client)) (name : Bytes) : Prop :=
  ∀ cell ∈ cells, isOtherNamed me cell.2 = true → ¬ Begins name cell.2

/-- The bytes that are taken for a name. -/
def readName (qu : Queue) : Bytes := (given qu.contents).dropLast

/-- The client after its queue was popped. -/
def Client.pop (client : Client) : Client :=
  { client with recvQu := (queuePopNoCopy client.recvQu).2 }

/-- The client after so many bytes of its queue have become its name. -/
def Client.accept (client : Client) (size : Nat) : Client :=
  { client.pop with name := copyName client.name client.recvQu.data size, nameSize := size }

@[simp] theorem isalnum_zero : isalnum 0 = false := by decide

theorem Proper.ne_zero (proper : Proper name) {byte : UInt8} (member : byte ∈ name) :
    byte ≠ 0 := by
  rintro rfl
  have alnum := List.all_eq_true.mp proper.alnum 0 member
  rw [isalnum_zero] at alnum
  cases alnum

theorem popNoCopy_fst (qu : Queue) : (queuePopNoCopy qu).1 = toInt qu.size := by
  unfold queuePopNoCopy
  split
  · next none => rw [none, toInt_zero]
  · rfl

@[simp] theorem popNoCopy_data (qu : Queue) : (queuePopNoCopy qu).2.data = qu.data := by
  unfold queuePopNoCopy
  split <;> rfl

theorem given_contents (qu : Queue) :
    given qu.contents = load qu.data (toInt qu.size).toNat := by
  rw [given, Queue.contents, load_length, take_load _ (toInt_toNat_le _)]

theorem toSizeT_pred_of_pos {value : Int} (positive : 0 < value) (small : value.toNat < 2 ^ 31) :
    toSizeT (value - 1) = value.toNat - 1 := by
  unfold toSizeT
  omega

theorem toSizeT_pred_of_nonpos {value : Int} (nonpositive : value ≤ 0) (large : -2 ^ 31 ≤ value) :
    2 ^ 32 ≤ toSizeT (value - 1) := by
  unfold toSizeT
  omega

theorem neg_le_toInt (size : Nat) : -2 ^ 31 ≤ toInt size := by
  have low := Int.le_bmod (x := size) (m := 2 ^ 32) (by decide)
  unfold toInt
  omega

theorem readName_eq (qu : Queue) : readName qu = load qu.data ((toInt qu.size).toNat - 1) := by
  rw [readName, given_contents, dropLast_load]

theorem load_readName (qu : Queue) : load qu.data (readName qu).length = readName qu := by
  rw [readName_eq, load_length]

/-- The number of bytes that are taken for a name: none are when it would be negative, and the
number is then far too large. -/
theorem readName_size (qu : Queue) :
    toSizeT ((queuePopNoCopy qu).1 - 1) = (readName qu).length ∨
      (readName qu = [] ∧ clientMaxName ≤ toSizeT ((queuePopNoCopy qu).1 - 1)) := by
  rw [popNoCopy_fst, readName_eq, load_length]
  rcases lt_or_ge 0 (toInt qu.size) with positive | nonpositive
  · exact .inl (toSizeT_pred_of_pos positive (toInt_toNat_lt _))
  · right
    have large := toSizeT_pred_of_nonpos nonpositive (neg_le_toInt _)
    have none : (toInt qu.size).toNat = 0 := Int.toNat_of_nonpos nonpositive
    refine ⟨by rw [none]; rfl, ?_⟩
    unfold clientMaxName
    omega

/-! ### Accepting and rejecting -/

/-- The search for a client whose name begins so. -/
theorem nameExists_iff (wellLinked : WellLinked heap cells) (member : (p, me) ∈ cells)
    (data : Nat → UInt8) (nonzero : ∀ i < size, data i ≠ 0) :
    ∃ found, clientNameExists heap p data size = some found ∧
      (found = false ↔ Unused me.id cells (load data size)) := by
  obtain ⟨first, others, rfl, isFirst⟩ := clientFirst_eq wellLinked member
  obtain ⟨node, isNode, rfl⟩ := wellLinked.node_of_mem member
  have search := wellLinked.find_all fun last =>
    isOtherNamed node.item.id last && strncmpEqual last.name data size
  let hit := (first :: others).find? fun cell =>
    isOtherNamed node.item.id cell.2 && strncmpEqual cell.2.name data size
  refine ⟨(hit.map Prod.fst).isSome, ?_, ?_⟩
  · simp only [clientNameExists, isNode, isFirst, search, Option.bind_eq_bind, Option.bind_some]
    rfl
  · rw [Option.isSome_map, ← Bool.not_eq_true, List.find?_isSome, Unused]
    simp only [Bool.and_eq_true, strncmpEqual_iff nonzero, Begins, load_length, not_exists,
      not_and]

/-- Whatever the client itself holds, the others stay the same. -/
theorem unused_replace {before after : Client} (sameAfter : after.id = me.id)
    (unused : Unused me.id (front ++ (p, before) :: back) name) :
    Unused me.id (front ++ (p, after) :: back) name := by
  intro cell member other
  rw [List.mem_append, List.mem_cons] at member
  rcases member with inFront | rfl | inBack
  · exact unused cell (List.mem_append_left _ inFront) other
  · simp [isOtherNamed, sameAfter] at other
  · exact unused cell (List.mem_append_right _ (List.mem_cons_of_mem _ inBack)) other

theorem unused_pop_iff :
    Unused me.id (front ++ (p, me.pop) :: back) name ↔
      Unused me.id (front ++ (p, me) :: back) name :=
  ⟨unused_replace rfl, unused_replace rfl⟩

/-- What the validation does: the pending bytes are popped; a name that is proper and with which
no other begins is taken over, any other is answered with a reason. -/
theorem validateUsername_spec (wellLinked : WellLinked heap (front ++ (p, me) :: back)) :
    (Proper (readName me.recvQu) ∧ Unused me.id (front ++ (p, me) :: back) (readName me.recvQu) →
      clientValidateUsername heap p =
        some (none, (heap.setItem p me.pop).setItem p (me.accept (readName me.recvQu).length))) ∧
    (¬ (Proper (readName me.recvQu) ∧
        Unused me.id (front ++ (p, me) :: back) (readName me.recvQu)) →
      ∃ response, clientValidateUsername heap p = some (some response, heap.setItem p me.pop)) := by
  have isNode := wellLinked.linked.node_mid
  have popped := wellLinked_setItem wellLinked me.pop
  have size := readName_size me.recvQu
  simp only [clientValidateUsername, isNode, Option.bind_eq_bind, Option.bind_some,
    Option.pure_def]
  generalize toSizeT ((queuePopNoCopy me.recvQu).1 - 1) = taken at size ⊢
  have properSize : Proper (readName me.recvQu) → taken = (readName me.recvQu).length := by
    intro proper
    rcases size with sizeEq | ⟨nothing, -⟩
    · exact sizeEq
    · exact absurd proper.nonempty (by rw [nothing]; exact Nat.not_succ_le_zero 0)
  by_cases empty : taken < 1
  · rw [if_pos empty]
    refine ⟨fun accepted => ?_, fun _ => ⟨_, rfl⟩⟩
    rw [properSize accepted.1] at empty
    exact absurd accepted.1.nonempty (Nat.not_le_of_lt empty)
  rw [if_neg empty]
  by_cases long : taken ≥ clientMaxName
  · rw [if_pos long]
    refine ⟨fun accepted => ?_, fun _ => ⟨_, rfl⟩⟩
    rw [properSize accepted.1] at long
    exact absurd accepted.1.short (Nat.not_lt_of_le long)
  rw [if_neg long]
  obtain rfl := size.resolve_right fun large => long large.2
  have loaded := load_readName me.recvQu
  rw [popNoCopy_data, loaded]
  cases alnum : (readName me.recvQu).all isalnum with
  | false =>
      refine ⟨fun accepted => ?_, fun _ => ⟨_, rfl⟩⟩
      have isAlnum := accepted.1.alnum
      rw [alnum] at isAlnum
      cases isAlnum
  | true =>
      have proper : Proper (readName me.recvQu) :=
        ⟨Nat.le_of_not_lt empty, Nat.lt_of_not_le long, alnum⟩
      have nonzero : ∀ i < (readName me.recvQu).length, me.recvQu.data i ≠ 0 := by
        intro i inside
        apply proper.ne_zero
        rw [← loaded]
        exact List.mem_map_of_mem (List.mem_range.mpr inside)
      obtain ⟨found, search, foundIff⟩ := nameExists_iff popped
        List.mem_append_cons_self me.recvQu.data nonzero
      rw [loaded] at foundIff
      have unusedIff := foundIff.trans unused_pop_iff
      rw [if_neg (by decide)]
      unfold Client.pop at search
      simp only [search, Option.bind_some]
      cases found with
      | false => exact ⟨fun _ => rfl, fun rejected => absurd ⟨proper, unusedIff.mp rfl⟩ rejected⟩
      | true =>
          refine ⟨fun accepted => ?_, fun _ => ⟨_, rfl⟩⟩
          cases unusedIff.mpr accepted.2

/-! ### What should be accepted -/

/-- The pending bytes without the last one are proper, and no other client has that name. -/
structure Acceptable (p : Ptr) (cells : List (Ptr × Client)) (pending : Bytes) : Prop where
  proper : Proper pending.dropLast
  free : ∀ cell ∈ cells, cell.1 ≠ p → cell.2.named = true → cell.2.called ≠ pending.dropLast

/-- Some other client with a name has one that begins so. -/
def BeginsOther (p : Ptr) (cells : List (Ptr × Client)) (name : Bytes) : Prop :=
  ∃ cell ∈ cells, cell.1 ≠ p ∧ cell.2.named = true ∧ Begins name cell.2

/-- Comparing beginnings decides rightly: where another client's memory begins with a proper name
some client has that name; and of 2^31 pending bytes or more, what their number leaves as an `int`
is not taken for a name. -/
structure Decisive (p : Ptr) (cells : List (Ptr × Client)) (pending : Bytes) : Prop where
  whole : Proper pending.dropLast → BeginsOther p cells pending.dropLast →
    ∃ cell ∈ cells, cell.1 ≠ p ∧ cell.2.named = true ∧ cell.2.called = pending.dropLast
  counted : 2 ^ 31 ≤ pending.length → Proper (given pending).dropLast →
    BeginsOther p cells (given pending).dropLast

/-- A client that has a name has one whose memory begins with it. -/
theorem begins_called (client : Client) : Begins client.called client := by
  rw [Begins, Client.called, load_length]

/-- With distinct descriptors, the others are those of another descriptor. -/
theorem unused_iff (distinct : (cells.map fun cell => cell.2.id).Nodup)
    (member : (p, me) ∈ cells) (pointers : (cells.map Prod.fst).Nodup) :
    Unused me.id cells name ↔ ¬ BeginsOther p cells name := by
  have otherIff : ∀ cell ∈ cells, (cell.2.id ≠ me.id ↔ cell.1 ≠ p) := by
    intro cell isCell
    refine not_congr ⟨fun same => ?_, fun same => ?_⟩
    · rw [List.inj_on_of_nodup_map distinct isCell member same]
    · rw [List.inj_on_of_nodup_map pointers isCell member same]
  simp only [Unused, BeginsOther, isOtherNamed, Bool.and_eq_true, decide_eq_true_eq, not_exists,
    not_and]
  constructor
  · intro unused cell isCell other named
    exact unused cell isCell ⟨(otherIff cell isCell).mpr other, named⟩
  · intro unused cell isCell both
    exact unused cell isCell ((otherIff cell isCell).mp both.1) both.2

/-- What is accepted is acceptable, and conversely, when comparing beginnings decides rightly. -/
theorem acceptable_iff_decisive {pending : Bytes} :
    ((Proper (given pending).dropLast ∧ ¬ BeginsOther p cells (given pending).dropLast) ↔
      Acceptable p cells pending) ↔ Decisive p cells pending := by
  rcases Nat.lt_or_ge pending.length (2 ^ 31) with small | large
  · rw [given_of_lt small]
    constructor
    · intro same
      refine ⟨fun proper begins => ?_, fun large => absurd large (Nat.not_le_of_lt small)⟩
      by_contra free
      refine (same.mpr ⟨proper, ?_⟩).2 begins
      intro cell isCell other named called
      exact free ⟨cell, isCell, other, named, called⟩
    · intro decisive
      constructor
      · intro accepted
        refine ⟨accepted.1, ?_⟩
        intro cell isCell other named called
        exact accepted.2 ⟨cell, isCell, other, named, called ▸ begins_called _⟩
      · intro acceptable
        refine ⟨acceptable.proper, fun begins => ?_⟩
        obtain ⟨cell, isCell, other, named, called⟩ := decisive.whole acceptable.proper begins
        exact acceptable.free cell isCell other named called
  · have improper : ¬ Proper pending.dropLast := by
      intro proper
      have short := proper.short
      rw [List.length_dropLast] at short
      unfold clientMaxName at short
      omega
    constructor
    · intro same
      refine ⟨fun proper => absurd proper improper, fun _ proper => ?_⟩
      by_contra unused
      exact improper (same.mp ⟨proper, unused⟩).proper
    · intro decisive
      constructor
      · intro accepted
        exact absurd (decisive.counted large accepted.1) accepted.2
      · intro acceptable
        exact absurd acceptable.proper improper

/-- The client at this pointer has no name. -/
def Unnamed (heap : Heap Client) (p : Ptr) : Prop :=
  ∃ node, heap.node p = some node ∧ node.item.named = false

/-- A client without a name is accepted under the pending bytes without the last one exactly when
these are acceptable, and stays without a name otherwise, when comparing beginnings decides
rightly. -/
theorem validateUsername_iff (wellLinked : WellLinked heap cells)
    (distinct : (cells.map fun cell => cell.2.id).Nodup) (member : (p, me) ∈ cells)
    (unnamed : me.named = false) :
    ∃ invalid after, clientValidateUsername heap p = some (invalid, after) ∧
      (((invalid = none ↔ Acceptable p cells me.recvQu.contents) ∧
        (invalid ≠ none → Unnamed after p)) ↔ Decisive p cells me.recvQu.contents) := by
  have pointers := wellLinked.distinct
  rw [← acceptable_iff_decisive, ← unused_iff distinct member pointers]
  obtain ⟨front, back, rfl⟩ := List.append_of_mem member
  obtain ⟨accepts, rejects⟩ := validateUsername_spec wellLinked
  by_cases accepted : Proper (readName me.recvQu) ∧
      Unused me.id (front ++ (p, me) :: back) (readName me.recvQu)
  · refine ⟨_, _, accepts accepted, ?_⟩
    simp only [true_iff, ne_eq, not_true_eq_false, false_implies, and_true]
    exact (iff_true_left accepted).symm
  · obtain ⟨response, rejected⟩ := rejects accepted
    refine ⟨_, _, rejected, ?_⟩
    have stays : Unnamed (heap.setItem p me.pop) p :=
      ⟨_, (wellLinked_setItem wellLinked me.pop).linked.node_mid, unnamed⟩
    simp only [reduceCtorEq, false_iff, ne_eq, not_false_eq_true, stays, implies_true, and_true]
    exact (iff_false_left accepted).symm

section Newcomer

/-- A client without a name, and what is pending in its queue. -/
def newcomer (pending : Bytes) : Client :=
  ⟨5, fun _ => 0, 0, queuePush (queueInit (fun _ => 0) 1024) pending⟩

/-- A newcomer in front of `alice`. -/
def newcomerCells (pending : Bytes) : List (Ptr × Client) :=
  [(0, newcomer pending), (1, clientCalled 6 (ascii "alice"))]

def newcomerHeap (pending : Bytes) : Heap Client :=
  append (Heap.empty.alloc ⟨newcomer pending, none, none⟩) 0 (clientCalled 6 (ascii "alice"))

theorem wellLinked_newcomer (pending : Bytes) :
    WellLinked (newcomerHeap pending) (newcomerCells pending) :=
  wellLinked_append (wellLinked_alloc wellLinked_empty _) rfl _

theorem distinct_newcomer (pending : Bytes) :
    ((newcomerCells pending).map fun cell => cell.2.id).Nodup := by
  show [5, 6].Nodup
  decide

theorem validateUsername_iff_bob :
    ∃ invalid after, clientValidateUsername (newcomerHeap (ascii "bob\n")) 0 =
        some (invalid, after) ∧
      (((invalid = none ↔
          Acceptable 0 (newcomerCells (ascii "bob\n")) (newcomer (ascii "bob\n")).recvQu.contents) ∧
        (invalid ≠ none → Unnamed after 0)) ↔
          Decisive 0 (newcomerCells (ascii "bob\n")) (newcomer (ascii "bob\n")).recvQu.contents) :=
  validateUsername_iff (wellLinked_newcomer _) (distinct_newcomer _) (.head _) rfl

/-- The name `al` is refused because there is an `alice`. -/
theorem beginning_refused :
    WellLinked (newcomerHeap (ascii "al\n")) (newcomerCells (ascii "al\n")) ∧
      ((newcomerCells (ascii "al\n")).map fun cell => cell.2.id).Nodup ∧
      (newcomer (ascii "al\n")).named = false ∧
      (newcomer (ascii "al\n")).recvQu.contents = ascii "al\n" ∧
      Acceptable 0 (newcomerCells (ascii "al\n")) (ascii "al\n") ∧
      (clientValidateUsername (newcomerHeap (ascii "al\n")) 0).map Prod.fst =
        some (some (ascii "Username is already taken")) := by
  refine ⟨wellLinked_newcomer _, distinct_newcomer _, rfl, by decide +kernel, ?_,
    by decide +kernel⟩
  refine ⟨⟨by decide, by decide, by decide⟩, ?_⟩
  intro cell member other _
  rcases List.mem_pair.mp member with rfl | rfl
  · exact absurd rfl other
  · decide

end Newcomer

end NetworkExercises.BudgetChat.C
