/-
Module: NetworkExercises.Lib.TrialDivision
Purpose: Trial division by 2, 3, 4 and so on up to the square root: which divisors it tries,
  what they say about the number, and how large their squares become.
Main exports: Tried, tried_iff, Tried.prime, Tried.not_prime, Tried.le, tried_of_prime,
  squares_within_iff
-/
import Mathlib.Data.Nat.Prime.Basic
import Mathlib.Tactic

namespace NetworkExercises.Lib

/-- The divisors that are tried: behind one whose square is within the number and that does
not divide it, the next. -/
inductive Tried (number : ℕ) : ℕ → Prop where
  | first : Tried number 2
  | next {divisor : ℕ} (tried : Tried number divisor) (within : divisor * divisor ≤ number)
      (remains : ¬ divisor ∣ number) : Tried number (divisor + 1)

variable {number divisor : ℕ}

/-- A divisor is tried when none before it ends the trial. -/
theorem tried_iff : Tried number divisor ↔
    2 ≤ divisor ∧ ∀ smaller, 2 ≤ smaller → smaller < divisor →
      smaller * smaller ≤ number ∧ ¬ smaller ∣ number := by
  constructor
  · intro tried
    induction tried with
    | first => exact ⟨le_rfl, fun smaller two less => absurd two (by omega)⟩
    | next tried within remains ih =>
        refine ⟨by omega, fun smaller two less => ?_⟩
        rcases Nat.lt_succ_iff_lt_or_eq.mp less with before | rfl
        · exact ih.2 smaller two before
        · exact ⟨within, remains⟩
  · rintro ⟨two, before⟩
    induction divisor, two using Nat.le_induction with
    | base => exact .first
    | succ divisor two ih =>
        obtain ⟨within, remains⟩ := before divisor two (Nat.lt_succ_self divisor)
        exact .next (ih fun smaller low less => before smaller low (by omega)) within remains

/-- When the square of a tried divisor is past the number, the number is prime. -/
theorem Tried.prime (tried : Tried number divisor) (large : 2 ≤ number)
    (past : number < divisor * divisor) : number.Prime := by
  rw [Nat.prime_def_le_sqrt]
  refine ⟨large, fun smaller two root => ((tried_iff.mp tried).2 smaller two ?_).2⟩
  exact lt_of_le_of_lt root (Nat.sqrt_lt.mpr past)

/-- When a tried divisor divides the number, within the root, the number is not prime. -/
theorem Tried.not_prime (tried : Tried number divisor) (within : divisor * divisor ≤ number)
    (divides : divisor ∣ number) : ¬ number.Prime := by
  have two := (tried_iff.mp tried).1
  intro prime
  rcases (Nat.dvd_prime prime).mp divides with one | same
  · omega
  · subst same
    nlinarith

/-- The trial goes at most one past the root. -/
theorem Tried.le_sqrt (tried : Tried number divisor) : divisor ≤ max 2 (number.sqrt + 1) := by
  cases tried with
  | first => exact le_max_left _ _
  | next tried within remains =>
      exact le_max_of_le_right (Nat.succ_le_succ (Nat.le_sqrt.mpr within))

/-- So it ends before the number. -/
theorem Tried.le (tried : Tried number divisor) (large : 2 ≤ number) : divisor ≤ number := by
  have root := tried.le_sqrt
  have below := Nat.sqrt_lt_self (show 1 < number by omega)
  omega

/-- Against a prime all divisors are tried, up to the one past the root. -/
theorem tried_of_prime (prime : number.Prime) (two : 2 ≤ divisor)
    (root : (divisor - 1) * (divisor - 1) ≤ number) : Tried number divisor := by
  refine tried_iff.mpr ⟨two, fun smaller low less => ?_⟩
  have within : smaller * smaller ≤ number :=
    (Nat.mul_self_le_mul_self (by omega)).trans root
  refine ⟨within, fun divides => ?_⟩
  rcases (Nat.dvd_prime prime).mp divides with one | same
  · omega
  · subst same
    nlinarith

/-- For a number within a limit, the squares of all tried divisors are within the limit, too,
unless the number is a prime that is not below the last square within the limit. -/
theorem squares_within_iff {limit : ℕ} (room : 4 ≤ limit) (within : number ≤ limit) :
    (∀ divisor, Tried number divisor → divisor * divisor ≤ limit) ↔
      ¬ (number.Prime ∧ limit.sqrt * limit.sqrt ≤ number) := by
  have root : 2 ≤ limit.sqrt := Nat.le_sqrt.mpr room
  constructor
  · rintro squares ⟨prime, close⟩
    have past := squares (limit.sqrt + 1) (tried_of_prime prime (by omega) close)
    exact absurd past (Nat.not_le.mpr (Nat.lt_succ_sqrt limit))
  · intro apart divisor tried
    by_contra past
    rw [not_le] at past
    have behind : limit.sqrt < divisor := Nat.sqrt_lt.mpr past
    have large : limit.sqrt * limit.sqrt ≤ number :=
      ((tried_iff.mp tried).2 limit.sqrt root behind).1
    refine apart ⟨tried.prime ?_ (by omega), large⟩
    nlinarith

end NetworkExercises.Lib
