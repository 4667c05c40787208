/-
Module: NetworkExercises.MeansToAnEnd.Proofs.Answers
Purpose: The answers of the two servers to the same messages: means of the same prices,
  truncated by the one and rounded down by the other.
Main exports: InRange, queryResult_iff, asked, foldl_handleMessage, foldlM_handleMessage_iff,
  answers_differ_by_rounding
-/
import NetworkExercises.CUtils.Proofs.Queue
import NetworkExercises.MeansToAnEnd.C.MessageParse
import NetworkExercises.MeansToAnEnd.Zig

namespace NetworkExercises.MeansToAnEnd

open Lib

/-! ### Means -/

/-- The sum of some prices. -/
def total (prices : List Int32) : Int := (prices.map Int32.toInt).sum

/-- The mean, rounded toward zero; the mean of nothing is zero. -/
def truncatedMean (prices : List Int32) : Int := (total prices).tdiv prices.length

/-- The mean, rounded down; the mean of nothing is zero. -/
def flooredMean (prices : List Int32) : Int := (total prices).fdiv prices.length

theorem total_bounds (prices : List Int32) :
    -2 ^ 31 * (prices.length : Int) ≤ total prices ∧
      total prices ≤ (2 ^ 31 - 1) * (prices.length : Int) := by
  induction prices with
  | nil => simp [total]
  | cons price prices ih =>
      have low := price.le_toInt
      have high := price.toInt_lt
      simp only [total, List.map_cons, List.sum_cons, List.length_cons, Nat.cast_succ] at ih ⊢
      constructor <;> linarith [ih.1, ih.2]

/-- The two ways to round differ by one below zero, unless the division is exact. -/
theorem truncated_sub_floored (prices : List Int32) :
    truncatedMean prices - flooredMean prices =
      if total prices < 0 ∧ ¬ (prices.length : Int) ∣ total prices then 1 else 0 := by
  unfold truncatedMean flooredMean
  cases prices with
  | nil => simp [total]
  | cons price prices =>
      have positive : (0 : Int) < ((price :: prices).length : Int) := by simp
      generalize ((price :: prices).length : Int) = count at positive
      rw [Int.fdiv_eq_ediv_of_nonneg _ positive.le, Int.tdiv_eq_ediv,
        Int.sign_eq_one_of_pos positive]
      by_cases negative : total (price :: prices) < 0
      · by_cases exact_ : count ∣ total (price :: prices)
        · simp [exact_]
        · simp [exact_, negative, Int.not_le.mpr negative]
      · simp [negative, Int.not_lt.mp negative]

theorem flooredMean_bounds (prices : List Int32) :
    -2 ^ 31 ≤ flooredMean prices ∧ flooredMean prices < 2 ^ 31 := by
  obtain ⟨low, high⟩ := total_bounds prices
  unfold flooredMean
  cases prices with
  | nil => simp [total]
  | cons price prices =>
      have positive : (0 : Int) < ((price :: prices).length : Int) := by simp
      generalize ((price :: prices).length : Int) = count at positive low high
      rw [Int.fdiv_eq_ediv_of_nonneg _ positive.le]
      exact ⟨(Int.le_ediv_iff_mul_le positive).mpr low,
        Int.ediv_lt_of_lt_mul positive (by linarith)⟩

theorem truncatedMean_bounds (prices : List Int32) :
    -2 ^ 31 ≤ truncatedMean prices ∧ truncatedMean prices < 2 ^ 31 := by
  obtain ⟨low, high⟩ := flooredMean_bounds prices
  have difference := truncated_sub_floored prices
  by_cases negative : total prices < 0
  · have positive : (0 : Int) < prices.length := by
      cases prices with
      | nil => simp [total] at negative
      | cons price prices => simp
    have below : flooredMean prices ≤ 0 := by
      unfold flooredMean
      rw [Int.fdiv_eq_ediv_of_nonneg _ positive.le]
      exact Int.ediv_nonpos_of_nonpos_of_neg negative.le positive
    split at difference <;> omega
  · rw [if_neg (fun both => negative both.1)] at difference
    omega

/-- The answer of the C server to a query for some prices. -/
def truncatedAnswer (prices : List Int32) : Int32 := Int32.ofInt (truncatedMean prices)

/-- The answer of the Zig server to a query for some prices. -/
def flooredAnswer (prices : List Int32) : Int32 := Int32.ofInt (flooredMean prices)

/-! ### Queries -/

/-- The prices that a query asks for. -/
def matching (assets : List AssetPrice) (query : AssetPriceQuery) : List Int32 :=
  (assets.filter query.within).map AssetPrice.price

theorem matching_length_le (assets : List AssetPrice) (query : AssetPriceQuery) :
    (matching assets query).length ≤ assets.length := by
  rw [matching, List.length_map]
  exact List.length_filter_le _ _

namespace C

open CUtils

theorem foldl_countPrice (query : AssetPriceQuery) (data : List AssetPrice) (mean count : Int) :
    data.foldl (countPrice query) (Int64.ofInt mean, Int32.ofInt count) =
      (Int64.ofInt (mean + total (matching data query)),
        Int32.ofInt (count + (matching data query).length)) := by
  induction data generalizing mean count with
  | nil => simp [matching, total]
  | cons price data ih =>
      rw [List.foldl_cons, countPrice]
      by_cases within : query.within price
      · rw [if_pos within, ← Int64.ofInt_int32ToInt, ← Int64.ofInt_add,
          show (1 : Int32) = Int32.ofInt 1 from rfl, ← Int32.ofInt_add, ih]
        simp only [matching, total, List.filter_cons, within, if_true, List.map_cons,
          List.sum_cons, List.length_cons, Nat.cast_succ]
        congr 2 <;> ring
      · rw [if_neg within, ih]
        simp [matching, within]

/-- The answer of `asset_prices_query`, when fewer than 2^31 prices are asked for. -/
theorem assetPricesQuery_eq {ps : AssetPrices} {query : AssetPriceQuery}
    (few : (matching ps.data query).length < 2 ^ 31) :
    assetPricesQuery ps query = Int32.ofInt (truncatedMean (matching ps.data query)) := by
  have folded := foldl_countPrice query ps.data 0 0
  have bounds := total_bounds (matching ps.data query)
  unfold assetPricesQuery truncatedMean
  generalize total (matching ps.data query) = sum at folded bounds ⊢
  have mean : (Int64.ofInt sum).toInt = sum := by
    apply Int64.toInt_ofInt_of_le
    · omega
    · omega
  have count : (Int32.ofInt (matching ps.data query).length).toInt =
      (matching ps.data query).length := by
    apply Int32.toInt_ofInt_of_le
    · omega
    · omega
  split
  · next empty =>
    have none : (matching ps.data query).length = 0 := by
      have fewer := matching_length_le ps.data query
      rw [AssetPrices.size] at empty
      omega
    simp [none]
  · have zero : ((0 : Int64), (0 : Int32)) = (Int64.ofInt 0, Int32.ofInt 0) := rfl
    rw [zero, folded, Int.zero_add, Int.zero_add]
    dsimp only
    split
    · next isZero =>
      rw [isZero] at count
      simp [← count]
    · next some_prices =>
      apply Int32.toInt_inj.mp
      rw [Int64.toInt_toInt32, Int64.toInt_div_of_ne_right, mean, Int32.toInt_toInt64, count,
        Int32.toInt_ofInt]
      intro absurdity
      have negative := congrArg Int64.toInt absurdity
      rw [Int32.toInt_toInt64, count] at negative
      have nonneg := Int.natCast_nonneg (matching ps.data query).length
      rw [negative] at nonneg
      cases nonneg

end C

section Sums

variable {assets : List AssetPrice} {query : AssetPriceQuery} {prices : List Int32}

/-- The sum and the number of some prices can be kept in an `i64`. -/
def Fits (prices : List Int32) : Prop :=
  (-2 ^ 63 ≤ total prices ∧ total prices < 2 ^ 63) ∧ (prices.length : Int) < 2 ^ 63

theorem fits_nil : Fits [] := ⟨⟨by decide, by decide⟩, by decide⟩

/-- So can those of the prices up to any of them. -/
def InRange (prices : List Int32) : Prop := ∀ part, part <+: prices → Fits part

/-- This is so for any 2^32 prices. -/
theorem inRange_of_length (few : prices.length ≤ 2 ^ 32) : InRange prices := by
  intro part begins
  have shorter := begins.length_le
  obtain ⟨low, high⟩ := total_bounds part
  exact ⟨⟨by omega, by omega⟩, by omega⟩

theorem inRange_of_few (few : assets.length < 2 ^ 31) : InRange (matching assets query) := by
  apply inRange_of_length
  have fewer := matching_length_le assets query
  omega

namespace Zig

theorem fitsSigned_of_bounds {width : Nat} {value : Int} (low : -2 ^ (width - 1) ≤ value)
    (high : value < 2 ^ (width - 1)) : fitsSigned width value = some value :=
  if_pos ⟨low, high⟩

theorem fitsSigned_eq_some {width : Nat} {value result : Int} :
    fitsSigned width value = some result ↔
      (-2 ^ (width - 1) ≤ value ∧ value < 2 ^ (width - 1)) ∧ value = result := by
  rw [fitsSigned]
  split
  · next fits => simp [fits]
  · next large => simp [large]

/-- A price that is asked for is added when that can be kept. -/
theorem countPrice_within {asset : AssetPrice} (within : query.within asset)
    (counted : List Int32) {next : Int × Int} :
    countPrice query (total counted, (counted.length : Int)) asset = some next ↔
      Fits (counted ++ [asset.price]) ∧
        next = (total (counted ++ [asset.price]), ((counted ++ [asset.price]).length : Int)) := by
  have sum : total (counted ++ [asset.price]) = total counted + asset.price.toInt := by
    simp [total]
  have number : ((counted ++ [asset.price]).length : Int) = counted.length + 1 := by simp
  have positive : (0 : Int) ≤ counted.length := Int.natCast_nonneg _
  obtain ⟨avg, count⟩ := next
  rw [countPrice, if_pos within, Fits, sum, number]
  simp only [Option.bind_eq_bind, Option.bind_eq_some_iff, fitsSigned_eq_some, Option.pure_def,
    Option.some.injEq, Prod.mk.injEq]
  constructor
  · rintro ⟨_, ⟨sumFits, rfl⟩, _, ⟨countFits, rfl⟩, rfl, rfl⟩
    exact ⟨⟨sumFits, countFits.2⟩, rfl, rfl⟩
  · rintro ⟨⟨sumFits, countFits⟩, rfl, rfl⟩
    exact ⟨_, ⟨sumFits, rfl⟩, _, ⟨⟨by omega, countFits⟩, rfl⟩, rfl, rfl⟩

/-- The loop over the prices ends exactly when everything on the way can be kept, with the
exact sum and number. -/
theorem foldlM_countPrice_iff (counted : List Int32) {next : Int × Int} :
    assets.foldlM (countPrice query) (total counted, (counted.length : Int)) = some next ↔
      (∀ part, part ≠ [] → part <+: matching assets query → Fits (counted ++ part)) ∧
        next = (total (counted ++ matching assets query),
          ((counted ++ matching assets query).length : Int)) := by
  induction assets generalizing counted with
  | nil =>
      have none : matching [] query = [] := rfl
      rw [none, List.append_nil, List.foldlM_nil, Option.pure_def, Option.some.injEq, eq_comm]
      refine (and_iff_right ?_).symm
      intro part some_part begins
      exact absurd (List.prefix_nil.mp begins) some_part
  | cons asset assets ih =>
      rw [List.foldlM_cons, Option.bind_eq_bind]
      by_cases within : query.within asset
      · have first : matching (asset :: assets) query = asset.price :: matching assets query := by
          simp [matching, within]
        rw [first, Option.bind_eq_some_iff]
        simp only [countPrice_within within]
        constructor
        · rintro ⟨_, ⟨fits, rfl⟩, rest⟩
          obtain ⟨others, rfl⟩ := (ih _).mp rest
          refine ⟨?_, by simp⟩
          intro part some_part begins
          obtain ⟨later, rfl, laterBegins⟩ :=
            (List.prefix_cons_iff.mp begins).resolve_left some_part
          cases later with
          | nil => exact fits
          | cons price later =>
              have := others (price :: later) (List.cons_ne_nil _ _) laterBegins
              rwa [List.append_assoc, List.singleton_append] at this
        · rintro ⟨all, rfl⟩
          have fits := all [asset.price] (List.cons_ne_nil _ _)
            (List.prefix_cons_iff.mpr (.inr ⟨[], rfl, List.nil_prefix⟩))
          refine ⟨_, ⟨fits, rfl⟩, (ih _).mpr ⟨?_, by simp⟩⟩
          intro part some_part begins
          have := all (asset.price :: part) (List.cons_ne_nil _ _)
            (List.prefix_cons_iff.mpr (.inr ⟨part, rfl, begins⟩))
          rwa [List.append_assoc, List.singleton_append]
      · have others : matching (asset :: assets) query = matching assets query := by
          simp [matching, within]
        rw [countPrice, if_neg within, Option.bind_some, ih, others]

/-- From nothing on, that is when all sums can be kept. -/
theorem foldlM_countPrice_zero {next : Int × Int} :
    assets.foldlM (countPrice query) (0, 0) = some next ↔
      InRange (matching assets query) ∧
        next = (total (matching assets query), ((matching assets query).length : Int)) := by
  rw [show ((0 : Int), (0 : Int)) = (total [], (([] : List Int32).length : Int)) from rfl,
    foldlM_countPrice_iff]
  simp only [List.nil_append]
  refine and_congr_left fun _ => ⟨fun all part begins => ?_, fun all part _ => all part⟩
  by_cases nothing : part = []
  · rw [nothing]
    exact fits_nil
  · exact all part nothing begins

/-- What becomes of the sum and the number of some prices. -/
theorem mean_answered (prices : List Int32) :
    (if (prices.length : Int) = 0 then pure 0
      else do
        let result ← fitsSigned 32 ((total prices).fdiv prices.length)
        pure (Int32.ofInt result)) = some (flooredAnswer prices) := by
  obtain ⟨low, high⟩ := flooredMean_bounds prices
  split
  · next none =>
    rw [flooredAnswer, flooredMean, none, Int.fdiv_zero]
    rfl
  · rw [← flooredMean, fitsSigned_of_bounds low high]
    rfl

/-- A query is answered exactly when its sums can be kept, with the mean rounded down. -/
theorem queryResult_iff {result : Int32} :
    queryResult assets query = some result ↔
      InRange (matching assets query) ∧ result = flooredAnswer (matching assets query) := by
  rw [queryResult, Option.bind_eq_bind, Option.bind_eq_some_iff]
  simp only [foldlM_countPrice_zero]
  constructor
  · rintro ⟨_, ⟨inRange, rfl⟩, answered⟩
    exact ⟨inRange, Option.some.inj (answered.symm.trans (mean_answered _))⟩
  · rintro ⟨inRange, rfl⟩
    exact ⟨_, ⟨inRange, rfl⟩, mean_answered _⟩

/-- The answer to a query over fewer than 2^31 prices. -/
theorem queryResult_eq {assets : List AssetPrice} (few : assets.length < 2 ^ 31)
    (query : AssetPriceQuery) :
    queryResult assets query = some (flooredAnswer (matching assets query)) :=
  queryResult_iff.mpr ⟨inRange_of_few few, rfl⟩

end Zig

end Sums

/-! ### Messages -/

/-- The timestamps of the inserts. -/
def insertTimestamps (msgs : List Message) : List Int32 :=
  (msgs.filter fun msg => msg.type = messageInsert).map Message.firstWord

/-- The prices that are inserted. -/
def inserted (msgs : List Message) : List AssetPrice :=
  (msgs.filter fun msg => msg.type = messageInsert).map fun msg => ⟨msg.firstWord, msg.secondWord⟩

/-- The prices that each query asks for, with the inserts before it in a table that holds
some prices at first. -/
def asked (before : List AssetPrice) : List Message → List (List Int32)
  | [] => []
  | msg :: msgs =>
      if msg.type = messageInsert then asked (before ++ [⟨msg.firstWord, msg.secondWord⟩]) msgs
      else if msg.type = messageQuery then
        matching before ⟨msg.firstWord, msg.secondWord⟩ :: asked before msgs
      else asked before msgs

theorem messageQuery_ne_messageInsert : messageQuery ≠ messageInsert := by decide

namespace C

open CUtils

/-- Inserts at new times are all kept. -/
theorem duplicate_of_notMem {ps : AssetPrices} {timestamp : Int32}
    (new : timestamp ∉ ps.data.map AssetPrice.timestamp) :
    assetPricesDuplicateTimestampCheck ps timestamp = false := by
  rw [assetPricesDuplicateTimestampCheck, List.any_eq_false]
  intro price member
  simp only [decide_eq_true_eq]
  rintro rfl
  exact new (List.mem_map_of_mem member)

@[simp] theorem assetPricesPush_data (ps : AssetPrices) (price : AssetPrice) :
    (assetPricesPush ps price).data = ps.data ++ [price] := by
  unfold assetPricesPush
  split <;> rfl

theorem foldl_handleMessage {ps : AssetPrices} {qu : Queue} {held : Bytes}
    {msgs : List Message} (holds : Holds qu held)
    (few : ps.data.length + msgs.length < 2 ^ 31)
    (distinct : (ps.data.map AssetPrice.timestamp ++ insertTimestamps msgs).Nodup) :
    Holds (msgs.foldl handleMessage (ps, qu)).2
      (held ++ (asked ps.data msgs).flatMap fun prices => wordBytes (truncatedAnswer prices)) := by
  induction msgs generalizing ps qu held with
  | nil => simpa [asked] using holds
  | cons msg msgs ih =>
      rw [List.length_cons] at few
      rw [List.foldl_cons, asked]
      by_cases isInsert : msg.type = messageInsert
      · have notQuery : msg.type ≠ messageQuery :=
          fun isQuery => messageQuery_ne_messageInsert (isQuery.symm.trans isInsert)
        have timestamps : insertTimestamps (msg :: msgs) =
            msg.firstWord :: insertTimestamps msgs := by simp [insertTimestamps, isInsert]
        rw [timestamps] at distinct
        have new : msg.firstWord ∉ ps.data.map AssetPrice.timestamp := fun member =>
          (List.nodup_append.mp distinct).2.2 _ member _ List.mem_cons_self rfl
        have handled : handleMessage (ps, qu) msg =
            (assetPricesPush ps ⟨msg.firstWord, msg.secondWord⟩, qu) := by
          simp [handleMessage, isInsert, messageQuery_ne_messageInsert.symm,
            duplicate_of_notMem new]
        rw [handled, if_pos isInsert]
        have rest := @ih (assetPricesPush ps ⟨msg.firstWord, msg.secondWord⟩) qu held holds
          (by rw [assetPricesPush_data, List.length_append, List.length_singleton]; omega)
          (by simpa using distinct)
        rwa [assetPricesPush_data] at rest
      · have timestamps : insertTimestamps (msg :: msgs) = insertTimestamps msgs := by
          simp [insertTimestamps, isInsert]
        rw [timestamps] at distinct
        rw [if_neg isInsert]
        by_cases isQuery : msg.type = messageQuery
        · have handled : handleMessage (ps, qu) msg =
              (ps, queuePush qu (wordBytes (truncatedAnswer
                (matching ps.data ⟨msg.firstWord, msg.secondWord⟩)))) := by
            simp only [handleMessage, isQuery, if_true]
            have fewer := matching_length_le ps.data ⟨msg.firstWord, msg.secondWord⟩
            rw [assetPricesQuery_eq (by omega)]
            rfl
          have rest := ih (holds_push holds (wordBytes (truncatedAnswer
            (matching ps.data ⟨msg.firstWord, msg.secondWord⟩)))) (by omega) distinct
          rwa [handled, if_pos isQuery, List.flatMap_cons, ← List.append_assoc]
        · have handled : handleMessage (ps, qu) msg = (ps, qu) := by
            simp [handleMessage, isQuery, isInsert]
          rw [handled, if_neg isQuery]
          exact ih holds (by omega) distinct

/-- One run of `message_parse` on an empty table. -/
theorem messageParse_answers {ps : AssetPrices} {qu : Queue} {held data : Bytes}
    (noPrices : ps.data = []) (holds : Holds qu held)
    (few : data.length / messageSize < 2 ^ 31)
    (distinct : (insertTimestamps (messages data (data.length / messageSize))).Nodup) :
    Holds (messageParse ps qu data).2
      (held ++ (asked [] (messages data (data.length / messageSize))).flatMap
        fun prices => wordBytes (truncatedAnswer prices)) := by
  have numMsgs : (toInt (data.length / messageSize)).toNat = data.length / messageSize := by
    rw [toInt_of_lt few, Int.toNat_natCast]
  have answered := @foldl_handleMessage ps qu held (messages data (data.length / messageSize)) holds
    (by simpa [noPrices, messages] using few)
    (by simpa [noPrices] using distinct)
  rw [noPrices] at answered
  rwa [messageParse, numMsgs]

end C

/-- No query asks for more prices than there are and are inserted. -/
theorem asked_length {before : List AssetPrice} {msgs : List Message} {prices : List Int32}
    (member : prices ∈ asked before msgs) : prices.length ≤ before.length + msgs.length := by
  induction msgs generalizing before with
  | nil => cases member
  | cons msg msgs ih =>
      rw [asked] at member
      rw [List.length_cons]
      split at member
      · have := ih member
        rw [List.length_append, List.length_singleton] at this
        omega
      · split at member
        · rcases List.mem_cons.mp member with rfl | member
          · have := matching_length_le before ⟨msg.firstWord, msg.secondWord⟩
            omega
          · have := ih member
            omega
        · have := ih member
          omega

namespace Zig

variable {assets : List AssetPrice} {msgs : List Message}

/-- The messages are answered exactly when what each query sums up can be kept. -/
theorem foldlM_handleMessage_iff (response : Bytes) {final : Bytes × List AssetPrice} :
    msgs.foldlM handleMessage (response, assets) = some final ↔
      (∀ prices ∈ asked assets msgs, InRange prices) ∧
        final = (response ++
            (asked assets msgs).flatMap fun prices => wordBytes (flooredAnswer prices),
          assets ++ inserted msgs) := by
  induction msgs generalizing response assets with
  | nil => simp [asked, inserted, eq_comm]
  | cons msg msgs ih =>
      rw [List.foldlM_cons, asked, Option.bind_eq_bind]
      by_cases isInsert : msg.type = messageInsert
      · have inserts : inserted (msg :: msgs) =
            ⟨msg.firstWord, msg.secondWord⟩ :: inserted msgs := by simp [inserted, isInsert]
        have handled : handleMessage (response, assets) msg =
            some (response, assets ++ [⟨msg.firstWord, msg.secondWord⟩]) := by
          simp [handleMessage, isInsert]
        rw [handled, if_pos isInsert, Option.bind_some, ih, inserts, List.append_assoc]
        rfl
      · have inserts : inserted (msg :: msgs) = inserted msgs := by simp [inserted, isInsert]
        rw [if_neg isInsert, inserts]
        by_cases isQuery : msg.type = messageQuery
        · have handled : handleMessage (response, assets) msg =
              (queryResult assets ⟨msg.firstWord, msg.secondWord⟩).map fun result =>
                (response ++ wordBytes result, assets) := by
            simp only [handleMessage, isQuery, messageQuery_ne_messageInsert, if_false, if_true]
          rw [handled, if_pos isQuery, List.forall_mem_cons, List.flatMap_cons,
            ← List.append_assoc, Option.bind_map, Option.bind_eq_some_iff]
          simp only [queryResult_iff, Function.comp_apply]
          constructor
          · rintro ⟨_, ⟨inRange, rfl⟩, rest⟩
            obtain ⟨others, rfl⟩ := (ih _).mp rest
            exact ⟨⟨inRange, others⟩, rfl⟩
          · rintro ⟨⟨inRange, others⟩, rfl⟩
            exact ⟨_, ⟨inRange, rfl⟩, (ih _).mpr ⟨others, rfl⟩⟩
        · have handled : handleMessage (response, assets) msg = some (response, assets) := by
            simp [handleMessage, isQuery, isInsert]
          rw [handled, if_neg isQuery, Option.bind_some]
          exact ih response

end Zig

/-! ### The same messages to both servers -/

/-- On the same messages, with inserts at distinct times, the two servers answer the same
queries with means of the same prices; the C server answers one more where a negative sum
is not divided exactly, and the same elsewhere. -/
theorem answers_differ_by_rounding {qu : CUtils.Queue} (empty : CUtils.Holds qu [])
    (capacity : Nat) (data : Bytes) (few : data.length / messageSize < 2 ^ 31)
    (distinct : (insertTimestamps (messages data (data.length / messageSize))).Nodup) :
    (C.messageParse (C.assetPricesInit capacity) qu data).2.contents =
        ((asked [] (messages data (data.length / messageSize))).map truncatedAnswer).flatMap
          wordBytes ∧
      (Zig.messagesParse data [] []).map Prod.fst =
        some (((asked [] (messages data (data.length / messageSize))).map flooredAnswer).flatMap
          wordBytes) ∧
      ∀ prices ∈ asked [] (messages data (data.length / messageSize)),
        (truncatedAnswer prices).toInt - (flooredAnswer prices).toInt =
          if total prices < 0 ∧ ¬ (prices.length : Int) ∣ total prices then 1 else 0 := by
  refine ⟨?_, ?_, ?_⟩
  · have answered := @C.messageParse_answers (C.assetPricesInit capacity) qu [] data rfl empty
      few distinct
    rw [answered.contents, List.nil_append, List.flatMap_map]
  · have inRange : ∀ prices ∈ asked [] (messages data (data.length / messageSize)),
        InRange prices := by
      intro prices member
      have fewer := asked_length member
      rw [messages, List.length_map, List.length_range, List.length_nil] at fewer
      exact inRange_of_length (by omega)
    rw [Zig.messagesParse, (Zig.foldlM_handleMessage_iff []).mpr ⟨inRange, rfl⟩, Option.map_some,
      List.nil_append, List.flatMap_map]
  · intro prices _
    obtain ⟨lowC, highC⟩ := truncatedMean_bounds prices
    obtain ⟨lowZig, highZig⟩ := flooredMean_bounds prices
    rw [truncatedAnswer, flooredAnswer, Int32.toInt_ofInt_of_le lowC highC,
      Int32.toInt_ofInt_of_le lowZig highZig]
    exact truncated_sub_floored prices

/-- The prices -1 and 0, and a query for both of them: 0 from the one, -1 from the
other. -/
theorem answers_differ_by_rounding_minusHalf :
    (C.messageParse (C.assetPricesInit 16) (CUtils.queueInit (fun _ => 0) 65536)
        [73, 0, 0, 0, 1, 255, 255, 255, 255, 73, 0, 0, 0, 2, 0, 0, 0, 0,
          81, 0, 0, 0, 1, 0, 0, 0, 2]).2.contents = [0, 0, 0, 0] ∧
      (Zig.messagesParse [73, 0, 0, 0, 1, 255, 255, 255, 255, 73, 0, 0, 0, 2, 0, 0, 0, 0,
          81, 0, 0, 0, 1, 0, 0, 0, 2] [] []).map Prod.fst = some [255, 255, 255, 255] := by
  have both := answers_differ_by_rounding
    (CUtils.holds_init (fun _ => 0) (by decide : 0 < 65536)) 16
    [73, 0, 0, 0, 1, 255, 255, 255, 255, 73, 0, 0, 0, 2, 0, 0, 0, 0,
      81, 0, 0, 0, 1, 0, 0, 0, 2] (by decide) (by decide)
  exact ⟨both.1.trans (by decide +kernel), both.2.1.trans (by decide +kernel)⟩

end NetworkExercises.MeansToAnEnd
