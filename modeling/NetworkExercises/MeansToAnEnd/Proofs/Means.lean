/-
Module: NetworkExercises.MeansToAnEnd.Proofs.Means
Purpose: The arithmetic of a query over fewer than 2^31 prices: no sum and no counter
  overflows, and the mean lies between the prices, however it is rounded.
Main exports: total_between, quotients_between, extremes, query_in_range
-/
import NetworkExercises.MeansToAnEnd.Proofs.Answers

namespace NetworkExercises.MeansToAnEnd

open Lib

variable {assets : List AssetPrice} {query : AssetPriceQuery} {prices : List Int32}

/-! ### Quotients -/

/-- A sum lies between as many times the bounds of its prices. -/
theorem total_between {low high : Int} (below : ∀ price ∈ prices, low ≤ price.toInt)
    (above : ∀ price ∈ prices, price.toInt ≤ high) :
    low * prices.length ≤ total prices ∧ total prices ≤ high * prices.length := by
  induction prices with
  | nil => simp [total]
  | cons price prices ih =>
      obtain ⟨lowFirst, lowOthers⟩ := List.forall_mem_cons.mp below
      obtain ⟨highFirst, highOthers⟩ := List.forall_mem_cons.mp above
      obtain ⟨least, greatest⟩ := ih lowOthers highOthers
      simp only [total, List.map_cons, List.sum_cons, List.length_cons, Nat.cast_succ] at *
      constructor <;> linarith

/-- Both quotients of a number lie between the bounds that it lies between as a multiple of
the divisor. -/
theorem quotients_between {low high sum count : Int} (positive : 0 < count)
    (least : low * count ≤ sum) (greatest : sum ≤ high * count) :
    (low ≤ sum.fdiv count ∧ sum.fdiv count ≤ high) ∧
      low ≤ sum.tdiv count ∧ sum.tdiv count ≤ high := by
  have floored : ∀ bound : Int, (bound * count) / count = bound :=
    fun bound => Int.mul_ediv_cancel bound positive.ne'
  have truncated : ∀ bound : Int, (bound * count).tdiv count = bound :=
    fun bound => Int.mul_tdiv_cancel bound positive.ne'
  rw [Int.fdiv_eq_ediv_of_nonneg _ positive.le]
  refine ⟨⟨?_, ?_⟩, ?_, ?_⟩
  · rw [← floored low]
    exact Int.ediv_le_ediv positive least
  · rw [← floored high]
    exact Int.ediv_le_ediv positive greatest
  · rw [← truncated low]
    exact Int.tdiv_le_tdiv positive least
  · rw [← truncated high]
    exact Int.tdiv_le_tdiv positive greatest

/-- Some prices have a least and a greatest one. -/
theorem extremes (some_prices : prices ≠ []) :
    ∃ least ∈ prices, ∃ greatest ∈ prices,
      ∀ price ∈ prices, least ≤ price ∧ price ≤ greatest := by
  have nonempty : prices.toFinset.Nonempty := by
    rwa [List.toFinset_nonempty_iff]
  obtain ⟨least, leastMember, isLeast⟩ :=
    Finset.exists_min_image prices.toFinset Int32.toInt nonempty
  obtain ⟨greatest, greatestMember, isGreatest⟩ :=
    Finset.exists_max_image prices.toFinset Int32.toInt nonempty
  simp only [List.mem_toFinset] at leastMember isLeast greatestMember isGreatest
  refine ⟨least, leastMember, greatest, greatestMember, fun price member => ⟨?_, ?_⟩⟩
  · exact Int32.le_iff_toInt_le.mpr (isLeast price member)
  · exact Int32.le_iff_toInt_le.mpr (isGreatest price member)

/-- A result is the whole quotient, and lies between two of the prices. -/
structure Between (prices : List Int32) (quotient : Int) (result : Int32) : Prop where
  whole : result.toInt = quotient
  inside : ∃ least ∈ prices, ∃ greatest ∈ prices,
    (∀ price ∈ prices, least ≤ price ∧ price ≤ greatest) ∧ least ≤ result ∧ result ≤ greatest

/-- Both means of some prices lie between them, so that they are still prices. -/
theorem means_between (some_prices : prices ≠ []) :
    Between prices (flooredMean prices) (flooredAnswer prices) ∧
      Between prices (truncatedMean prices) (truncatedAnswer prices) := by
  obtain ⟨least, leastMember, greatest, greatestMember, bounds⟩ := extremes some_prices
  have positive : (0 : Int) < prices.length := by
    exact_mod_cast List.length_pos_iff.mpr some_prices
  obtain ⟨low, high⟩ := total_between
    (fun price member => Int32.le_iff_toInt_le.mp (bounds price member).1)
    (fun price member => Int32.le_iff_toInt_le.mp (bounds price member).2)
  obtain ⟨floored, truncated⟩ := quotients_between positive low high
  -- A quotient between two prices is in the range of an `i32`.
  have between : ∀ quotient : Int, least.toInt ≤ quotient ∧ quotient ≤ greatest.toInt →
      Between prices quotient (Int32.ofInt quotient) := by
    rintro quotient ⟨above, below⟩
    have whole : (Int32.ofInt quotient).toInt = quotient :=
      Int32.toInt_ofInt_of_le (least.le_toInt.trans above)
        (lt_of_le_of_lt below greatest.toInt_lt)
    refine ⟨whole, least, leastMember, greatest, greatestMember, bounds, ?_, ?_⟩
    · rwa [Int32.le_iff_toInt_le, whole]
    · rwa [Int32.le_iff_toInt_le, whole]
  exact ⟨between _ floored, between _ truncated⟩

/-! ### Queries -/

theorem matching_prefix_length {front : List AssetPrice} (begins : front <+: assets) :
    (matching front query).length ≤ assets.length :=
  (matching_length_le front query).trans begins.length_le

/-- The sum and the counter of the C loop are exact as long as an `int` counts the prices. -/
theorem C.countPrice_exact (few : (matching assets query).length < 2 ^ 31) :
    (assets.foldl (C.countPrice query) (0, 0)).1.toInt = total (matching assets query) ∧
      (assets.foldl (C.countPrice query) (0, 0)).2.toInt = (matching assets query).length := by
  have folded := C.foldl_countPrice query assets 0 0
  obtain ⟨low, high⟩ := total_bounds (matching assets query)
  rw [Int.zero_add, Int.zero_add] at folded
  rw [show ((0 : Int64), (0 : Int32)) = (Int64.ofInt 0, Int32.ofInt 0) from rfl, folded]
  exact ⟨Int64.toInt_ofInt_of_le (by omega) (by omega),
    Int32.toInt_ofInt_of_le (by omega) (by omega)⟩

/-- Over fewer than 2^31 prices the loop over them has the exact sum and the exact number of
prices after every turn.  There is no division when there are no prices, and otherwise both
quotients lie between the prices, which makes them the results. -/
theorem query_in_range (few : assets.length < 2 ^ 31) (query : AssetPriceQuery) :
    (∀ front, front <+: assets →
      front.foldlM (Zig.countPrice query) (0, 0) =
          some (total (matching front query), ((matching front query).length : Int)) ∧
        (front.foldl (C.countPrice query) (0, 0)).1.toInt = total (matching front query) ∧
        (front.foldl (C.countPrice query) (0, 0)).2.toInt = (matching front query).length) ∧
    (matching assets query = [] →
      Zig.queryResult assets query = some 0 ∧
        ∀ capacity, C.assetPricesQuery ⟨assets, capacity⟩ query = 0) ∧
    (matching assets query ≠ [] →
      0 < (matching assets query).length ∧
        (∃ result, Zig.queryResult assets query = some result ∧
          Between (matching assets query)
            ((total (matching assets query)).fdiv (matching assets query).length) result) ∧
        ∀ capacity, Between (matching assets query)
          ((total (matching assets query)).tdiv (matching assets query).length)
          (C.assetPricesQuery ⟨assets, capacity⟩ query)) := by
  have zig := Zig.queryResult_eq few query
  have c : ∀ capacity, C.assetPricesQuery ⟨assets, capacity⟩ query =
      truncatedAnswer (matching assets query) := fun capacity =>
    @C.assetPricesQuery_eq ⟨assets, capacity⟩ query
      ((matching_length_le assets query).trans_lt few)
  refine ⟨fun front begins => ?_, fun none => ?_, fun some_prices => ?_⟩
  · have fewer : (matching front query).length < 2 ^ 31 :=
      (matching_prefix_length begins).trans_lt few
    refine ⟨?_, C.countPrice_exact fewer⟩
    exact Zig.foldlM_countPrice_zero.mpr ⟨inRange_of_few (begins.length_le.trans_lt few), rfl⟩
  · rw [none] at zig
    refine ⟨zig, fun capacity => ?_⟩
    rw [c, none]
    rfl
  · obtain ⟨floored, truncated⟩ := means_between some_prices
    refine ⟨List.length_pos_iff.mpr some_prices, ⟨_, zig, floored⟩, fun capacity => ?_⟩
    rw [c]
    exact truncated

/-- Prices at five times. -/
def fivePrices : List AssetPrice := [⟨4, 300⟩, ⟨5, 200⟩, ⟨3, 301⟩, ⟨1, 100⟩, ⟨2, 201⟩]

theorem query_in_range_fivePrices :
    (∃ result, Zig.queryResult fivePrices ⟨1, 5⟩ = some result ∧
      Between [300, 200, 301, 100, 201] ((1102 : Int).fdiv 5) result) ∧
    Between [300, 200, 301, 100, 201] ((1102 : Int).tdiv 5)
      (C.assetPricesQuery ⟨fivePrices, 10⟩ ⟨1, 5⟩) :=
  have all := (query_in_range (by decide : fivePrices.length < 2 ^ 31) ⟨1, 5⟩).2.2 (by decide)
  ⟨all.2.1, all.2.2 10⟩

end NetworkExercises.MeansToAnEnd
