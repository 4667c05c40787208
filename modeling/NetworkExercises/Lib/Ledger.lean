/-
Module: NetworkExercises.Lib.Ledger
Purpose: A book that issues pairs of marks so that no mark is used twice, when
  the two marks of a pair are checked and set one after the other.
Main exports: Book, Book.enterAll, Book.backed_enterAll_iff
-/
import Mathlib.Tactic

namespace NetworkExercises.Lib

variable {D : Type}

/-- Two pairs without a common end. -/
def Apart (left right : D × D) : Prop :=
  left.1 ≠ right.1 ∧ left.1 ≠ right.2 ∧ left.2 ≠ right.1 ∧ left.2 ≠ right.2

/-- The ends of every issued pair are marked, and no two issued pairs share one. -/
structure Book (D : Type) where
  marks : Finset D
  issued : List (D × D)
  covered : ∀ pair ∈ issued, pair.1 ∈ marks ∧ pair.2 ∈ marks
  exclusive : issued.Pairwise Apart

/-- Neither end of the pair is marked. -/
def Free (marks : Finset D) (pair : D × D) : Prop :=
  pair.1 ∉ marks ∧ pair.2 ∉ marks

/-- The first end is unmarked but the second is not: the first is marked and
then the pair is turned down. -/
def Strands (marks : Finset D) (pair : D × D) : Prop :=
  pair.1 ∉ marks ∧ pair.2 ∈ marks

variable [DecidableEq D]

instance (marks : Finset D) (pair : D × D) : Decidable (Free marks pair) := by
  unfold Free
  infer_instance

instance (marks : Finset D) (pair : D × D) : Decidable (Strands marks pair) := by
  unfold Strands
  infer_instance

/-- The marks after one pair: none new when the first end was marked before. -/
def marked (marks : Finset D) (pair : D × D) : Finset D :=
  if pair.1 ∈ marks then marks else insert pair.2 (insert pair.1 marks)

theorem subset_marked (marks : Finset D) (pair : D × D) : marks ⊆ marked marks pair := by
  unfold marked
  split
  · exact Finset.Subset.refl _
  · exact (Finset.subset_insert _ _).trans (Finset.subset_insert _ _)

theorem marked_of_free {marks : Finset D} {pair : D × D} (free : Free marks pair) :
    marked marks pair = insert pair.2 (insert pair.1 marks) := if_neg free.1

theorem marked_of_strands {marks : Finset D} {pair : D × D}
    (strands : Strands marks pair) : marked marks pair = insert pair.1 marks := by
  rw [marked, if_neg strands.1,
    Finset.insert_eq_of_mem (Finset.mem_insert_of_mem strands.2)]

namespace Book

/-- The book before anything is entered. -/
def empty : Book D where
  marks := ∅
  issued := []
  covered := by simp
  exclusive := List.Pairwise.nil

omit [DecidableEq D] in
/-- An issued pair is apart from every pair that finds neither of its ends
marked. -/
theorem apart_of_free {book : Book D} {issued pair : D × D}
    (member : issued ∈ book.issued) (free : Free book.marks pair) :
    Apart issued pair := by
  obtain ⟨first, second⟩ := book.covered issued member
  refine ⟨?_, ?_, ?_, ?_⟩
  · exact fun same => free.1 (same ▸ first)
  · exact fun same => free.2 (same ▸ first)
  · exact fun same => free.1 (same ▸ second)
  · exact fun same => free.2 (same ▸ second)

/-- Enter one pair: it is issued exactly when it is free. -/
def enter (book : Book D) (pair : D × D) : Book D where
  marks := marked book.marks pair
  issued := if Free book.marks pair then book.issued ++ [pair] else book.issued
  covered := by
    intro issued member
    have old : issued ∈ book.issued →
        issued.1 ∈ marked book.marks pair ∧ issued.2 ∈ marked book.marks pair :=
      fun before => (book.covered issued before).imp
        (subset_marked _ _ ·) (subset_marked _ _ ·)
    split at member
    · next free =>
      rcases List.mem_append.mp member with before | new
      · exact old before
      · rw [List.mem_singleton.mp new, marked_of_free free]
        simp
    · exact old member
  exclusive := by
    split
    · next free =>
      refine List.pairwise_append.mpr ⟨book.exclusive, List.pairwise_singleton _ _, ?_⟩
      intro issued member new newEq
      rw [List.mem_singleton.mp newEq]
      exact apart_of_free member free
    · exact book.exclusive

/-- Enter a list of pairs in order. -/
def enterAll (book : Book D) (pairs : List (D × D)) : Book D := pairs.foldl enter book

@[simp] theorem enter_marks (book : Book D) (pair : D × D) :
    (book.enter pair).marks = marked book.marks pair := rfl

@[simp] theorem enterAll_nil (book : Book D) : book.enterAll [] = book := rfl

@[simp] theorem enterAll_cons (book : Book D) (pair : D × D) (pairs : List (D × D)) :
    book.enterAll (pair :: pairs) = (book.enter pair).enterAll pairs := rfl

theorem enter_issued_of_free {book : Book D} {pair : D × D}
    (free : Free book.marks pair) :
    (book.enter pair).issued = book.issued ++ [pair] := if_pos free

theorem enter_issued_of_not_free {book : Book D} {pair : D × D}
    (taken : ¬ Free book.marks pair) : (book.enter pair).issued = book.issued :=
  if_neg taken

theorem subset_enterAll (book : Book D) (pairs : List (D × D)) :
    book.marks ⊆ (book.enterAll pairs).marks := by
  induction pairs generalizing book with
  | nil => exact Finset.Subset.refl _
  | cons pair pairs ih => exact (subset_marked _ pair).trans (ih (book.enter pair))

/-- The first end of every pair that is entered is marked, whether the pair is issued or not. -/
theorem first_mem_enterAll (book : Book D) {pairs : List (D × D)} {pair : D × D}
    (entered : pair ∈ pairs) : pair.1 ∈ (book.enterAll pairs).marks := by
  induction pairs generalizing book with
  | nil => cases entered
  | cons first pairs ih =>
      rcases List.mem_cons.mp entered with rfl | later
      · apply subset_enterAll (book.enter pair) pairs
        rw [enter_marks, marked]
        split
        · next before => exact before
        · simp
      · exact ih (book.enter first) later

/-! ### Which marks stand for an issued pair -/

/-- Every mark is an end of an issued pair. -/
def Backed (book : Book D) : Prop :=
  ∀ mark ∈ book.marks, ∃ pair ∈ book.issued, mark = pair.1 ∨ mark = pair.2

omit [DecidableEq D] in
theorem backed_empty : (empty : Book D).Backed := by simp [Backed, empty]

/-- A pair keeps the marks backed unless it strands its first end; a mark once
stranded is never backed again. -/
theorem backed_enter_iff (book : Book D) (pair : D × D) :
    (book.enter pair).Backed ↔ book.Backed ∧ ¬ Strands book.marks pair := by
  by_cases first : pair.1 ∈ book.marks
  · -- Nothing changes.
    have taken : ¬ Free book.marks pair := fun free => free.1 first
    have unmoved : ¬ Strands book.marks pair := fun strands => strands.1 first
    rw [Backed, enter_issued_of_not_free taken, enter_marks, marked, if_pos first,
      and_iff_left unmoved]
    rfl
  by_cases second : pair.2 ∈ book.marks
  · -- The first end is marked for no pair.
    have taken : ¬ Free book.marks pair := fun free => free.2 second
    refine iff_of_false ?_ (fun backed => backed.2 ⟨first, second⟩)
    intro backed
    obtain ⟨issued, member, isEnd⟩ := backed pair.1 (by
      rw [enter_marks, marked_of_strands ⟨first, second⟩]
      exact Finset.mem_insert_self _ _)
    rw [enter_issued_of_not_free taken] at member
    rcases isEnd with same | same
    · exact first (same ▸ (book.covered issued member).1)
    · exact first (same ▸ (book.covered issued member).2)
  · -- The pair is issued and backs its own ends, and no others.
    have free : Free book.marks pair := ⟨first, second⟩
    have moved : ¬ Strands book.marks pair := fun strands => second strands.2
    rw [and_iff_left moved]
    simp only [Backed, enter_issued_of_free free, enter_marks, marked_of_free free]
    constructor
    · intro backed mark member
      obtain ⟨issued, issuedMem, isEnd⟩ := backed mark (by simp [member])
      rcases List.mem_append.mp issuedMem with before | new
      · exact ⟨issued, before, isEnd⟩
      · rw [List.mem_singleton.mp new] at isEnd
        rcases isEnd with rfl | rfl
        · exact absurd member first
        · exact absurd member second
    · intro backed mark member
      rcases Finset.mem_insert.mp member with rfl | member
      · exact ⟨pair, by simp, .inr rfl⟩
      rcases Finset.mem_insert.mp member with rfl | member
      · exact ⟨pair, by simp, .inl rfl⟩
      · obtain ⟨issued, before, isEnd⟩ := backed mark member
        exact ⟨issued, by simp [before], isEnd⟩

end Book

/-- No pair of the list strands its first end when its turn comes. -/
def NeverStrands (marks : Finset D) : List (D × D) → Prop
  | [] => True
  | pair :: pairs => ¬ Strands marks pair ∧ NeverStrands (marked marks pair) pairs

instance NeverStrands.decidable :
    ∀ (marks : Finset D) (pairs : List (D × D)), Decidable (NeverStrands marks pairs)
  | _, [] => .isTrue trivial
  | marks, pair :: pairs =>
      have := NeverStrands.decidable (marked marks pair) pairs
      inferInstanceAs (Decidable (¬ Strands marks pair ∧ NeverStrands (marked marks pair) pairs))

namespace Book

/-- After any list of pairs the marks are backed exactly when they were before
and no pair of the list strands its first end. -/
theorem backed_enterAll_iff (book : Book D) (pairs : List (D × D)) :
    (book.enterAll pairs).Backed ↔ book.Backed ∧ NeverStrands book.marks pairs := by
  induction pairs generalizing book with
  | nil => simp [NeverStrands]
  | cons pair pairs ih =>
      rw [enterAll_cons, ih, backed_enter_iff, enter_marks, NeverStrands, and_assoc]

end Book

end NetworkExercises.Lib
