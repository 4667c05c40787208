/-
Module: NetworkExercises.SpeedDaemon.Proofs.Speeding
Purpose: The speeds that the scan of adjacent observations finds, with the arithmetic read as
  exact: which violations it can miss, and which speeds do not fit a ticket.
Main exports: abs_sub_le_of_adjacent, adjacent_violation, roundedSpeed, roundedSpeed_le_iff
-/
import NetworkExercises.SpeedDaemon.Proofs.Justified

namespace NetworkExercises.SpeedDaemon

open Lib Checked

/-! ### Adjacent pairs -/

/-- What bounds every step of a sequence bounds the way from one place to a later one. -/
theorem abs_sub_le_of_adjacent (position bound : ℕ → ℤ) {i j : ℕ} (ordered : i ≤ j)
    (adjacent : ∀ k, i ≤ k → k < j →
      |position (k + 1) - position k| ≤ bound (k + 1) - bound k) :
    |position j - position i| ≤ bound j - bound i := by
  induction j, ordered using Nat.le_induction with
  | base => simp
  | succ j ordered ih =>
      have before := ih fun k from_ below => adjacent k from_ (Nat.lt_succ_of_lt below)
      have last := adjacent j ordered (Nat.lt_succ_self j)
      calc |position (j + 1) - position i|
        _ ≤ |position (j + 1) - position j| + |position j - position i| := abs_sub_le _ _ _
        _ ≤ (bound (j + 1) - bound j) + (bound j - bound i) := add_le_add last before
        _ = bound (j + 1) - bound i := sub_add_sub_cancel _ _ _

variable {observations : List Observation} {obs1 obs2 : Observation} {limit : UInt16}

/-- The observations are in the order of their timestamps. -/
def InOrder (observations : List Observation) : Prop :=
  observations.Pairwise fun a b => a.timestamp.toNat ≤ b.timestamp.toNat

/-- A pair that the scan skips, because it is at most three seconds apart, although the car
has moved. -/
def Skipped (obs1 obs2 : Observation) : Prop :=
  secondsApart obs1 obs2 ≤ 3 ∧ obs1.mile ≠ obs2.mile

theorem InOrder.of_getElem? (sorted : InOrder observations) {k : ℕ}
    (near : observations[k]? = some obs1) (next : observations[k + 1]? = some obs2) :
    obs1.timestamp.toNat ≤ obs2.timestamp.toNat := by
  obtain ⟨inside, rfl⟩ := List.getElem?_eq_some_iff.mp near
  obtain ⟨insideNext, rfl⟩ := List.getElem?_eq_some_iff.mp next
  exact List.pairwise_iff_getElem.mp sorted k (k + 1) inside insideNext (Nat.lt_succ_self k)

theorem milesApart_eq_abs (mile1 mile2 : UInt16) :
    (milesApart mile1 mile2 : ℤ) = |(mile2.toNat : ℤ) - mile1.toNat| :=
  Int.natCast_natAbs _

theorem milesApart_self (mile : UInt16) : milesApart mile mile = 0 := by
  simp [milesApart]

/-- A pair that is neither a violation nor skipped is not too fast. -/
theorem slow_of_lawful (lawful : ¬ Violates ℚ obs1 obs2 = true)
    (noticed : ¬ Skipped obs1 obs2) :
    7200 * milesApart obs1.mile obs2.mile ≤
      (2 * obs1.speedLimit.toNat + 1) * secondsApart obs1 obs2 := by
  by_cases close : secondsApart obs1 obs2 ≤ 3
  · have still : obs1.mile = obs2.mile := not_not.mp fun moved => noticed ⟨close, moved⟩
    rw [still, milesApart_self]
    exact Nat.zero_le _
  · by_contra fast
    exact lawful ((violates_rat_iff obs1 obs2).mpr
      ⟨Nat.lt_of_not_le close, Nat.lt_of_not_le fast⟩)

/-- Between two observations that are too fast for their distance in time there is an
adjacent pair that violates the limit, or one that is skipped. -/
theorem adjacent_violation (observations : List Observation) (limit : UInt16)
    (sorted : InOrder observations)
    (common : ∀ obs ∈ observations, obs.speedLimit = limit) {i j : ℕ} (before : i < j)
    {obs1 obs2 : Observation} (first : observations[i]? = some obs1)
    (second : observations[j]? = some obs2)
    (exceeds : (2 * limit.toNat + 1) * ((obs2.timestamp.toNat : ℤ) - obs1.timestamp.toNat) <
      7200 * |(obs2.mile.toNat : ℤ) - obs1.mile.toNat|) :
    ∃ k near next, i ≤ k ∧ k < j ∧ observations[k]? = some near ∧
      observations[k + 1]? = some next ∧
      (Violates ℚ near next = true ∨ Skipped near next) := by
  by_contra none_
  have inside : j < observations.length := (List.getElem?_eq_some_iff.mp second).1
  let obs : ℕ → Observation := fun k => observations[k]?.getD obs1
  have atIndex : ∀ k, k ≤ j → observations[k]? = some (obs k) := by
    intro k le
    have bound : k < observations.length := Nat.lt_of_le_of_lt le inside
    simp only [obs, List.getElem?_eq_getElem bound, Option.getD_some]
  have adjacent : ∀ k, i ≤ k → k < j →
      |7200 * ((obs (k + 1)).mile.toNat : ℤ) - 7200 * (obs k).mile.toNat| ≤
        (2 * limit.toNat + 1) * ((obs (k + 1)).timestamp.toNat : ℤ) -
          (2 * limit.toNat + 1) * (obs k).timestamp.toNat := by
    intro k from_ below
    have near := atIndex k below.le
    have next := atIndex (k + 1) below
    have lawful : ¬ (Violates ℚ (obs k) (obs (k + 1)) = true ∨ Skipped (obs k) (obs (k + 1))) :=
      fun found => none_ ⟨k, obs k, obs (k + 1), from_, below, near, next, found⟩
    obtain ⟨notViolates, noticed⟩ := not_or.mp lawful
    have slow := slow_of_lawful notViolates noticed
    rw [common _ (List.mem_of_getElem? near)] at slow
    have ordered : (obs k).timestamp.toNat ≤ (obs (k + 1)).timestamp.toNat :=
      sorted.of_getElem? near next
    have slowInt : (7200 : ℤ) * |((obs (k + 1)).mile.toNat : ℤ) - (obs k).mile.toNat| ≤
        (2 * limit.toNat + 1) *
          (((obs (k + 1)).timestamp.toNat : ℤ) - (obs k).timestamp.toNat) := by
      rw [← milesApart_eq_abs, ← Nat.cast_sub ordered]
      exact_mod_cast slow
    rw [← mul_sub, ← mul_sub, abs_mul]
    exact slowInt
  have whole := abs_sub_le_of_adjacent (fun k => 7200 * ((obs k).mile.toNat : ℤ))
    (fun k => (2 * limit.toNat + 1) * ((obs k).timestamp.toNat : ℤ)) before.le adjacent
  have firstEq : obs i = obs1 := by
    exact Option.some.inj ((atIndex i before.le).symm.trans first)
  have secondEq : obs j = obs2 := by
    exact Option.some.inj ((atIndex j le_rfl).symm.trans second)
  simp only [firstEq, secondEq, ← mul_sub, abs_mul] at whole
  exact absurd exceeds (not_lt.mpr whole)

section Turning

def seenAt (timestamp : UInt32) (mile : UInt16) : Observation :=
  observationOf ⟨[65], timestamp⟩ ⟨3, 1, mile, 60⟩

/-- A car that drives on and turns back. -/
def turningBack : List Observation :=
  [seenAt 0 10, seenAt 3600 80, seenAt 7200 200, seenAt 9000 190]

theorem adjacent_violation_turningBack :
    ∃ k near next, 0 ≤ k ∧ k < 3 ∧ turningBack[k]? = some near ∧
      turningBack[k + 1]? = some next ∧ (Violates ℚ near next = true ∨ Skipped near next) :=
  adjacent_violation turningBack 60 (by unfold InOrder; decide) (by decide)
    (by decide : 0 < 3) rfl rfl (by decide)

end Turning

/-! ### Speeds on tickets -/

/-- `speed * 100 + 0.5`, without its fraction. -/
def roundedSpeed (obs1 obs2 : Observation) : ℤ :=
  truncate (speedBetween ℚ obs1 obs2 * 100 + 0.5)

theorem roundedSpeed_eq (obs1 obs2 : Observation) :
    roundedSpeed obs1 obs2 =
      ⌊360000 * (milesApart obs1.mile obs2.mile : ℚ) / secondsApart obs1 obs2 + 1 / 2⌋ := by
  have nonneg : 0 ≤ 360000 * (milesApart obs1.mile obs2.mile : ℚ) /
      secondsApart obs1 obs2 + 1 / 2 := by positivity
  rw [roundedSpeed, speedBetween_hundredths, truncate, if_pos nonneg]

/-- A speed of fewer than 655.355 miles an hour is rounded to a number of 16 bits. -/
theorem roundedSpeed_lt_iff (apart : 0 < secondsApart obs1 obs2) :
    roundedSpeed obs1 obs2 < 65536 ↔
      720000 * milesApart obs1.mile obs2.mile < 131071 * secondsApart obs1 obs2 := by
  have positive : (0 : ℚ) < secondsApart obs1 obs2 := by exact_mod_cast apart
  rw [roundedSpeed_eq, Int.floor_lt, ← lt_sub_iff_add_lt, div_lt_iff₀ positive]
  constructor
  · intro slow
    have : (720000 * milesApart obs1.mile obs2.mile : ℚ) < 131071 * secondsApart obs1 obs2 := by
      push_cast at slow
      linarith
    exact_mod_cast this
  · intro slow
    have : (720000 * milesApart obs1.mile obs2.mile : ℚ) < 131071 * secondsApart obs1 obs2 := by
      exact_mod_cast slow
    push_cast
    linarith

/-- The conversion to 16 bits succeeds for what is below 65536. -/
theorem ticketSpeed_isSome_iff (obs1 obs2 : Observation) :
    (ticketSpeed ℚ obs1 obs2).isSome = true ↔ roundedSpeed obs1 obs2 < 65536 := by
  have nonneg : 0 ≤ roundedSpeed obs1 obs2 := by
    rw [roundedSpeed_eq]
    positivity
  have cast : ticketSpeed ℚ obs1 obs2 =
      if 0 ≤ roundedSpeed obs1 obs2 ∧ roundedSpeed obs1 obs2 < 65536 then
        some (UInt16.ofNat (roundedSpeed obs1 obs2).toNat)
      else none := rfl
  rw [cast]
  simp [nonneg]

/-- The rounded speed of a violation fits the ticket exactly when the pair is slower than
655.355 miles an hour. -/
theorem violation_fits_iff (obs1 obs2 : Observation)
    (violates : Violates ℚ obs1 obs2 = true) :
    (roundedSpeed obs1 obs2 ≤ 65535 ∧ (ticketSpeed ℚ obs1 obs2).isSome = true) ↔
      720000 * milesApart obs1.mile obs2.mile < 131071 * secondsApart obs1 obs2 := by
  have apart : 0 < secondsApart obs1 obs2 :=
    Nat.zero_lt_of_lt ((violates_rat_iff obs1 obs2).mp violates).1
  have same : roundedSpeed obs1 obs2 ≤ 65535 ↔ roundedSpeed obs1 obs2 < 65536 :=
    Int.lt_add_one_iff.symm
  rw [ticketSpeed_isSome_iff, same, and_self, roundedSpeed_lt_iff apart]

section Racing

theorem violation_fits_iff_mild :
    roundedSpeed (seenAt 0 10) (seenAt 3600 80) ≤ 65535 ∧
      (ticketSpeed ℚ (seenAt 0 10) (seenAt 3600 80)).isSome = true :=
  (violation_fits_iff (seenAt 0 10) (seenAt 3600 80) (by decide +kernel)).mpr (by decide)

/-- A car that is reported at both ends of a road within four seconds. -/
def bothEnds : List (Message × Camera) :=
  [(.plate ⟨[65], 0⟩, ⟨3, 1, 0, 60⟩), (.plate ⟨[65], 4⟩, ⟨4, 1, 65535, 60⟩)]

/-- The ticket for that car cannot be made. -/
theorem not_every_violation_fits :
    (¬ ∀ obs1 obs2 : Observation, obs1.timestamp ≤ obs2.timestamp →
      Violates ℚ obs1 obs2 = true → roundedSpeed obs1 obs2 ≤ 65535) ∧
      run (carStep ℚ) (Car.init [65], .empty) bothEnds = none := by
  constructor
  · intro always
    have fits := always (seenAt 0 0) (seenAt 4 65535) (by decide) (by decide +kernel)
    have slow := (roundedSpeed_lt_iff (by decide)).mp (Int.lt_add_one_iff.mpr fits)
    revert slow
    decide
  · rw [← Option.isNone_iff_eq_none]
    decide +kernel

end Racing

end NetworkExercises.SpeedDaemon
