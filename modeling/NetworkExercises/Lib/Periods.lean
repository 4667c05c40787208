/-
Module: NetworkExercises.Lib.Periods
Purpose: Counting through consecutive periods of different lengths: the places inside of the
  periods are in the order of their counts.
Main exports: before, position, position_lt_of_lt, position_lt_iff
-/
import Mathlib.Algebra.BigOperators.Intervals
import Mathlib.Tactic

namespace NetworkExercises.Lib.Periods

variable {length : Nat → Nat} {period rest period' rest' : Nat}

/-- What lies in front of a period. -/
def before (length : Nat → Nat) (period : Nat) : Nat := ∑ past ∈ Finset.range period, length past

/-- The count that lies `rest` behind the beginning of a period. -/
def position (length : Nat → Nat) (period rest : Nat) : Nat := before length period + rest

@[simp] theorem before_zero : before length 0 = 0 := rfl

theorem before_succ : before length (period + 1) = before length period + length period :=
  Finset.sum_range_succ _ _

theorem before_mono : Monotone (before length) := by
  apply monotone_nat_of_le_succ
  intro period
  rw [before_succ]
  exact Nat.le_add_right _ _

/-- A place inside of an earlier period has the smaller count. -/
theorem position_lt_of_lt (inside : rest < length period) (earlier : period < period') :
    position length period rest < position length period' rest' :=
  calc position length period rest
    _ < before length (period + 1) := by rw [before_succ]; exact Nat.add_lt_add_left inside _
    _ ≤ before length period' := before_mono earlier
    _ ≤ position length period' rest' := Nat.le_add_right _ _

/-- The order of the counts is the lexicographic one of the places. -/
theorem position_lt_iff (inside : rest < length period) (inside' : rest' < length period') :
    position length period rest < position length period' rest' ↔
      period < period' ∨ period = period' ∧ rest < rest' := by
  rcases Nat.lt_trichotomy period period' with earlier | same | later
  · exact iff_of_true (position_lt_of_lt inside earlier) (.inl earlier)
  · subst same
    simp [position]
  · have above : position length period' rest' < position length period rest :=
      position_lt_of_lt inside' later
    apply iff_of_false (Nat.lt_asymm above)
    rintro (earlier | ⟨same, -⟩) <;> omega

end NetworkExercises.Lib.Periods
