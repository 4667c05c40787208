/-
Module: NetworkExercises.PrimeTime.Proofs.Primes
Purpose: The trial division of both servers of exercise 1 finds the primes, unless a square
  leaves the range of an `i64`, and for which numbers it does.
Main exports: Evaluates, evaluates_iff, isPrimeLoop_within, isPrimeLoop_past,
  isPrime_decides, products_within_iff, latePrime
-/
import NetworkExercises.Lib.TrialDivision
import NetworkExercises.PrimeTime.Json
import Mathlib.NumberTheory.LucasPrimality
import Mathlib.Tactic.ReduceModChar

namespace NetworkExercises.PrimeTime

open Lib

/-! ### The loop -/

/-- The values of `i` for which the loop of `is_prime` evaluates its condition
`i * i <= number`. -/
inductive Evaluates (number : Int64) : Int → Prop where
  | first (large : ¬ number.toInt ≤ 1) : Evaluates number 2
  | next {i : Int} (before : Evaluates number i) (goesOn : i * i ≤ number.toInt)
      (remains : ¬ number.toInt % i = 0) : Evaluates number (i + 1)

variable {number : Int64} {n divisor turns : ℕ}

theorem emod_eq_zero_iff : (n : Int) % (divisor : Int) = 0 ↔ divisor ∣ n := by
  rw [← Int.dvd_iff_emod_eq_zero, Int.natCast_dvd_natCast]

/-- The loop evaluates its condition for the divisors of a trial division. -/
theorem evaluates_iff (same : number.toInt = n) (large : 2 ≤ n) {i : Int} :
    Evaluates number i ↔ ∃ divisor : ℕ, i = divisor ∧ Tried n divisor := by
  constructor
  · intro evaluates
    induction evaluates with
    | first => exact ⟨2, rfl, .first⟩
    | next before goesOn remains ih =>
        obtain ⟨divisor, rfl, tried⟩ := ih
        rw [same] at goesOn remains
        rw [emod_eq_zero_iff] at remains
        exact ⟨divisor + 1, by push_cast; rfl, tried.next (by exact_mod_cast goesOn) remains⟩
  · rintro ⟨divisor, rfl, tried⟩
    induction tried with
    | first => exact .first (by omega)
    | @next divisor tried within remains ih =>
        have goesOn : (divisor : Int) * divisor ≤ number.toInt := by
          rw [same]
          exact_mod_cast within
        push_cast
        exact .next ih goesOn (by rwa [same, emod_eq_zero_iff])

/-- With all squares in the range, the loop tells whether the number is prime. -/
theorem isPrimeLoop_within (large : 2 ≤ n) (tried : Tried n divisor)
    (enough : n + 2 ≤ turns + divisor)
    (within : ∀ divisor, Tried n divisor → divisor * divisor < 2 ^ 63) :
    isPrimeLoop n turns divisor = some (decide n.Prime) := by
  induction turns generalizing divisor with
  | zero =>
      have := tried.le large
      omega
  | succ turns ih =>
      have inRange : ¬ 2 ^ 63 ≤ divisor * divisor := by
        have := within divisor tried
        omega
      rw [isPrimeLoop, if_neg (by exact_mod_cast inRange)]
      by_cases past : n < divisor * divisor
      · rw [if_pos (by exact_mod_cast past), decide_eq_true (tried.prime large past)]
      rw [if_neg (by exact_mod_cast past)]
      by_cases divides : divisor ∣ n
      · rw [if_pos (emod_eq_zero_iff.mpr divides),
          decide_eq_false (tried.not_prime (by omega) divides)]
      · rw [if_neg (emod_eq_zero_iff.not.mpr divides)]
        exact_mod_cast ih (tried.next (by omega) divides) (by omega)

/-- With a square out of the range, the loop does not get past it. -/
theorem isPrimeLoop_past (large : 2 ≤ n) (tried : Tried n divisor)
    (enough : n + 2 ≤ turns + divisor) {last : ℕ} (reached : Tried n last)
    (past : 2 ^ 63 ≤ last * last) : isPrimeLoop n turns divisor = none := by
  induction turns generalizing divisor with
  | zero =>
      have := tried.le large
      omega
  | succ turns ih =>
      rw [isPrimeLoop]
      by_cases out : 2 ^ 63 ≤ divisor * divisor
      · rw [if_pos (by exact_mod_cast out)]
      rw [if_neg (by exact_mod_cast out)]
      have before : divisor < last := Nat.mul_self_lt_mul_self_iff.mp (by omega)
      obtain ⟨within, remains⟩ :=
        (tried_iff.mp reached).2 divisor (tried_iff.mp tried).1 before
      rw [if_neg (by exact_mod_cast Nat.not_lt.mpr within),
        if_neg (emod_eq_zero_iff.not.mpr remains)]
      exact_mod_cast ih (tried.next within remains) (by omega)

/-! ### All numbers -/

/-- Small numbers are answered at once. -/
theorem isPrime_small (small : number.toInt ≤ 1) :
    isPrime number = some false ∧ ¬ number.toInt.toNat.Prime ∧
      ∀ i, ¬ Evaluates number i := by
  refine ⟨if_pos small, fun prime => ?_, fun i evaluates => ?_⟩
  · have := prime.two_le
    omega
  · induction evaluates with
    | first large => exact large small
    | next _ _ _ ih => exact ih

theorem isPrime_large (same : number.toInt = n) (large : 2 ≤ n) :
    isPrime number = isPrimeLoop n n (2 : ℕ) := by
  rw [isPrime, if_neg (by omega), same, Int.toNat_natCast]
  rfl

/-- The products of the loop are the squares of the divisors that are tried. -/
theorem evaluates_within_iff (same : number.toInt = n) (large : 2 ≤ n) :
    (∀ i, Evaluates number i → i * i < 2 ^ 63) ↔
      ∀ divisor, Tried n divisor → divisor * divisor < 2 ^ 63 := by
  simp only [evaluates_iff same large]
  constructor
  · intro within divisor tried
    exact_mod_cast within divisor ⟨divisor, rfl, tried⟩
  · rintro within _ ⟨divisor, rfl, tried⟩
    exact_mod_cast within divisor tried

/-- A number above 1 is a natural number. -/
theorem toInt_eq_toNat (large : ¬ number.toInt ≤ 1) :
    number.toInt = number.toInt.toNat ∧ 2 ≤ number.toInt.toNat :=
  ⟨(Int.toNat_of_nonneg (by omega)).symm, by omega⟩

/-- Where no product leaves the range of an `i64`, the loop ends, and the answer is right. -/
theorem isPrime_decides (number : Int64)
    (within : ∀ i, Evaluates number i → i * i < 2 ^ 63) :
    (∃ last, ∀ i, Evaluates number i → i ≤ last) ∧
      ∃ prime, isPrime number = some prime ∧ (prime = true ↔ number.toInt.toNat.Prime) := by
  by_cases small : number.toInt ≤ 1
  · obtain ⟨answer, noPrime, none⟩ := isPrime_small small
    exact ⟨⟨0, fun i evaluates => absurd evaluates (none i)⟩, false, answer,
      iff_of_false Bool.false_ne_true noPrime⟩
  · obtain ⟨same, large⟩ := toInt_eq_toNat small
    have squares := (evaluates_within_iff same large).mp within
    refine ⟨⟨number.toInt, fun i evaluates => ?_⟩, _, ?_, decide_eq_true_iff⟩
    · obtain ⟨divisor, rfl, tried⟩ := (evaluates_iff same large).mp evaluates
      rw [same]
      exact_mod_cast tried.le large
    · rw [isPrime_large same large]
      exact isPrimeLoop_within large .first (by omega) squares

/-- A perfect square, of a prime. -/
theorem isPrime_decides_25 :
    ∃ prime, isPrime 25 = some prime ∧ (prime = true ↔ (25 : Int64).toInt.toNat.Prime) := by
  have same : (25 : Int64).toInt = (25 : ℕ) := by decide
  refine (isPrime_decides 25 ((evaluates_within_iff same (by decide)).mpr ?_)).2
  intro divisor tried
  have bound := tried.le (by decide)
  exact (Nat.mul_le_mul bound bound).trans_lt (by decide)

/-- The divisors whose squares are in the range: `3037000499` is the root of `2 ^ 63`,
rounded down. -/
theorem tried_within_iff (inRange : n < 2 ^ 63) :
    (∀ divisor, Tried n divisor → divisor * divisor < 2 ^ 63) ↔
      ¬ (n.Prime ∧ 3037000499 * 3037000499 ≤ n) := by
  have root : (2 ^ 63 - 1).sqrt = 3037000499 := by norm_num
  have all := @squares_within_iff n (2 ^ 63 - 1) (by decide) (by omega)
  rw [root] at all
  rw [← all]
  exact forall₂_congr fun divisor _ => (Nat.le_sub_one_iff_lt (by decide)).symm

/-- No product leaves the range, and there is an answer, exactly for the numbers other than
the primes from `3037000499 * 3037000499` on. -/
theorem products_within_iff (number : Int64) :
    ((∀ i, Evaluates number i → i * i < 2 ^ 63) ↔
        ¬ (number.toInt.toNat.Prime ∧ 3037000499 * 3037000499 ≤ number.toInt)) ∧
      ((isPrime number).isSome ↔
        ¬ (number.toInt.toNat.Prime ∧ 3037000499 * 3037000499 ≤ number.toInt)) := by
  by_cases small : number.toInt ≤ 1
  · obtain ⟨answer, noPrime, none⟩ := isPrime_small small
    have apart : ¬ (number.toInt.toNat.Prime ∧ 3037000499 * 3037000499 ≤ number.toInt) :=
      fun both => noPrime both.1
    exact ⟨iff_of_true (fun i evaluates => absurd evaluates (none i)) apart,
      iff_of_true (by rw [answer]; rfl) apart⟩
  obtain ⟨same, large⟩ := toInt_eq_toNat small
  have top := number.toInt_lt
  have close : 3037000499 * 3037000499 ≤ number.toInt.toNat ↔
      3037000499 * 3037000499 ≤ number.toInt := by omega
  have squares := @tried_within_iff number.toInt.toNat (by omega)
  rw [close] at squares
  rw [← squares]
  refine ⟨evaluates_within_iff same large, ?_⟩
  rw [isPrime_large same large]
  constructor
  · intro answered divisor tried
    by_contra past
    rw [isPrimeLoop_past large .first (by omega) tried (not_lt.mp past)] at answered
    cases answered
  · intro within
    rw [isPrimeLoop_within large .first (by omega) within]
    rfl

/-! ### A prime that is too large -/

/-- A prime below `2 ^ 63`, behind the last square. -/
def latePrime : ℕ := 9223372032491388929

/-- The prime factors of the number before it. -/
def latePrimeFactors : List ℕ :=
  List.replicate 18 2 ++ List.replicate 4 13 ++ [73, 89, 127, 1493]

theorem mem_latePrimeFactors {factor : ℕ} : factor ∈ latePrimeFactors ↔
    factor = 2 ∨ factor = 13 ∨ factor = 73 ∨ factor = 89 ∨ factor = 127 ∨ factor = 1493 := by
  simp [latePrimeFactors]

/-- 3 has the order of the whole group of units. -/
theorem latePrime_prime : latePrime.Prime := by
  have large : Fact (1 < 9223372032491388929) := ⟨by norm_num⟩
  refine lucas_primality 9223372032491388929 (3 : ZMod 9223372032491388929)
    (by reduce_mod_char) fun factor prime divides => ?_
  have isFactor : factor ∈ latePrimeFactors := by
    refine mem_list_primes_of_dvd_prod prime.prime (fun other member => ?_) divides
    rw [← Nat.prime_iff]
    rcases mem_latePrimeFactors.mp member with rfl | rfl | rfl | rfl | rfl | rfl <;> norm_num
  rcases mem_latePrimeFactors.mp isFactor with rfl | rfl | rfl | rfl | rfl | rfl
  all_goals
    norm_num only
    reduce_mod_char
    decide

/-- For the late prime the product of 3037000500 leaves the range. -/
theorem not_products_within :
    ¬ ∀ (number : Int64) (i : Int), Evaluates number i → i * i < 2 ^ 63 := by
  intro always
  have same : (9223372032491388929 : Int64).toInt = latePrime := by decide
  have squares := (evaluates_within_iff same (by decide)).mp (always _)
  exact (tried_within_iff (by decide)).mp squares ⟨latePrime_prime, by decide⟩

end NetworkExercises.PrimeTime
