/-
Module: NetworkExercises.MeansToAnEnd.Proofs.Calls
Purpose: All calls of the Zig `messages_parse` on one price list: what they answer, what it
  depends on, and exactly when an `i64` is too small for them.
Main exports: InRange, foldlM_countPrice_iff, callMessages, messagesParseAll_iff, Known,
  asked_perm, answers_floored_iff
-/
import NetworkExercises.MeansToAnEnd.Proofs.Means

namespace NetworkExercises.MeansToAnEnd

open Lib

variable {query : AssetPriceQuery} {before assets : List AssetPrice} {msgs : List Message}
  {prices : List Int32}

/-! ### What the queries ask for -/

theorem inserted_append (front back : List Message) :
    inserted (front ++ back) = inserted front ++ inserted back := by
  rw [inserted, List.filter_append, List.map_append]
  rfl

/-- The prices that each query asks for, in what a table shows of the prices that have been
inserted. -/
def askedFrom (shown : List AssetPrice → List AssetPrice) (entered : List AssetPrice) :
    List Message → List (List Int32)
  | [] => []
  | msg :: msgs =>
      if msg.type = messageInsert then
        askedFrom shown (entered ++ [⟨msg.firstWord, msg.secondWord⟩]) msgs
      else if msg.type = messageQuery then
        matching (shown entered) ⟨msg.firstWord, msg.secondWord⟩ :: askedFrom shown entered msgs
      else askedFrom shown entered msgs

/-- A table that shows everything. -/
theorem asked_eq (before : List AssetPrice) (msgs : List Message) :
    asked before msgs = askedFrom id before msgs := by
  induction msgs generalizing before with
  | nil => rfl
  | cons msg msgs ih => rw [asked, askedFrom, ih, ih, id]

section Shown

variable {shown : List AssetPrice → List AssetPrice} {entered : List AssetPrice}

theorem askedFrom_append (entered : List AssetPrice) (front back : List Message) :
    askedFrom shown entered (front ++ back) =
      askedFrom shown entered front ++ askedFrom shown (entered ++ inserted front) back := by
  induction front generalizing entered with
  | nil => simp [askedFrom, inserted]
  | cons msg front ih =>
      rw [List.cons_append, askedFrom, askedFrom]
      by_cases isInsert : msg.type = messageInsert
      · rw [if_pos isInsert, if_pos isInsert, ih, List.append_assoc]
        simp [inserted, isInsert]
      · have inserts : inserted (msg :: front) = inserted front := by simp [inserted, isInsert]
        rw [if_neg isInsert, if_neg isInsert, inserts, ih]
        split
        · rw [List.cons_append]
        · rfl

/-- Messages that ask for nothing. -/
theorem askedFrom_of_no_query (none : ∀ msg ∈ msgs, msg.type ≠ messageQuery) :
    askedFrom shown entered msgs = [] := by
  induction msgs generalizing entered with
  | nil => rfl
  | cons msg msgs ih =>
      obtain ⟨notQuery, others⟩ := List.forall_mem_cons.mp none
      rw [askedFrom, if_neg notQuery, ih others, ih others, ite_self]

theorem askedFrom_query (entered : List AssetPrice) (firstWord secondWord : Int32) :
    askedFrom shown entered [⟨messageQuery, firstWord, secondWord⟩] =
      [matching (shown entered) ⟨firstWord, secondWord⟩] := by
  rw [askedFrom, if_neg messageQuery_ne_messageInsert, if_pos rfl, askedFrom]

end Shown

/-- Inserts of some prices. -/
def inserts (prices : List AssetPrice) : List Message :=
  prices.map fun price => ⟨messageInsert, price.timestamp, price.price⟩

@[simp] theorem inserted_inserts (prices : List AssetPrice) :
    inserted (inserts prices) = prices := by
  have kept : ∀ msg ∈ inserts prices, decide (msg.type = messageInsert) = true := by
    intro msg member
    obtain ⟨price, -, rfl⟩ := List.mem_map.mp member
    exact decide_eq_true rfl
  rw [inserted, List.filter_eq_self.mpr kept, inserts, List.map_map]
  exact List.map_id _

theorem inserts_no_query {prices : List AssetPrice} :
    ∀ msg ∈ inserts prices, msg.type ≠ messageQuery := by
  intro msg member
  obtain ⟨price, -, rfl⟩ := List.mem_map.mp member
  exact messageQuery_ne_messageInsert.symm

/-- A message of one of the two types. -/
def Known (msg : Message) : Prop := msg.type = messageInsert ∨ msg.type = messageQuery

instance (msg : Message) : Decidable (Known msg) := inferInstanceAs (Decidable (_ ∨ _))

/-- Messages of other types change nothing. -/
theorem asked_known (before : List AssetPrice) (msgs : List Message) :
    asked before (msgs.filter (Known ·)) = asked before msgs := by
  induction msgs generalizing before with
  | nil => rfl
  | cons msg msgs ih =>
      by_cases known : Known msg
      · rw [List.filter_cons_of_pos (by simpa using known), asked, asked, ih, ih]
      · obtain ⟨notInsert, notQuery⟩ := not_or.mp known
        rw [List.filter_cons_of_neg (by simpa using known), ih, asked, if_neg notInsert,
          if_neg notQuery]

theorem inserted_known (msgs : List Message) :
    inserted (msgs.filter (Known ·)) = inserted msgs := by
  rw [inserted, List.filter_filter, inserted]
  congr 2
  funext msg
  by_cases isInsert : msg.type = messageInsert <;> simp [Known, isInsert]

/-- The order of the prices does not matter to the means. -/
theorem asked_perm {before after : List AssetPrice} (moved : before.Perm after)
    (msgs : List Message) :
    (asked before msgs).map flooredAnswer = (asked after msgs).map flooredAnswer := by
  induction msgs generalizing before after with
  | nil => rfl
  | cons msg msgs ih =>
      rw [asked, asked]
      split
      · exact ih (moved.append_right _)
      · split
        · have prices : (matching before ⟨msg.firstWord, msg.secondWord⟩).Perm
              (matching after ⟨msg.firstWord, msg.secondWord⟩) := (moved.filter _).map _
          have same : flooredAnswer (matching before ⟨msg.firstWord, msg.secondWord⟩) =
              flooredAnswer (matching after ⟨msg.firstWord, msg.secondWord⟩) := by
            rw [flooredAnswer, flooredAnswer, flooredMean, flooredMean, prices.length_eq, total,
              total, (prices.map Int32.toInt).sum_eq]
          rw [List.map_cons, List.map_cons, same, ih moved]
        · exact ih moved

/-- A query whose times are the wrong way around asks for nothing. -/
theorem matching_reversed (reversed : query.maxtime < query.mintime) :
    matching assets query = [] := by
  rw [matching, List.map_eq_nil_iff, List.filter_eq_nil_iff]
  intro asset _ within
  simp only [AssetPriceQuery.within, Bool.and_eq_true, decide_eq_true_eq] at within
  exact absurd (Int32.le_trans within.1 within.2) (Int32.not_le.mpr reversed)

/-- The mean is the floor of the quotient. -/
theorem flooredMean_eq_floor (prices : List Int32) :
    flooredMean prices = ⌊(total prices : ℚ) / prices.length⌋ := by
  rw [flooredMean, Int.fdiv_eq_ediv_of_nonneg _ (Int.natCast_nonneg _)]
  exact (Rat.floor_intCast_div_natCast _ _).symm

/-! ### One call after the other -/

/-- The messages of some calls. -/
def callMessages (calls : List Bytes) : List Message :=
  calls.flatMap fun data => messages data (data.length / messageSize)

/-- The responses to the messages of some calls: to each query the mean, rounded down. -/
def flooredReplies (calls : List Bytes) : Bytes :=
  (asked [] (callMessages calls)).flatMap fun prices => wordBytes (flooredAnswer prices)

namespace Zig

/-- All calls of `messages_parse` on one list of prices, with what they respond. -/
def messagesParseAll (calls : List Bytes) : Option (Bytes × List AssetPrice) :=
  calls.foldlM (fun state data => messagesParse data state.1 state.2) ([], [])

/-- Where the messages are cut into calls does not matter. -/
theorem messagesParseAll_eq (calls : List Bytes) :
    messagesParseAll calls = (callMessages calls).foldlM handleMessage ([], []) := by
  rw [messagesParseAll]
  generalize (([] : Bytes), ([] : List AssetPrice)) = state
  induction calls generalizing state with
  | nil => rfl
  | cons data calls ih =>
      rw [List.foldlM_cons, callMessages, List.flatMap_cons, List.foldlM_append, messagesParse]
      cases (messages data (data.length / messageSize)).foldlM handleMessage state with
      | none => rfl
      | some next => exact ih next

theorem messagesParseAll_iff {calls : List Bytes} {final : Bytes × List AssetPrice} :
    messagesParseAll calls = some final ↔
      (∀ prices ∈ asked [] (callMessages calls), InRange prices) ∧
        final = (flooredReplies calls, inserted (callMessages calls)) := by
  rw [messagesParseAll_eq, foldlM_handleMessage_iff]
  rfl

end Zig

/-- The bytes behind the last whole message of a call are not read. -/
theorem messages_whole (data : Bytes) :
    messages (data.take (data.length / messageSize * messageSize))
        ((data.take (data.length / messageSize * messageSize)).length / messageSize) =
      messages data (data.length / messageSize) := by
  have size : (data.take (data.length / messageSize * messageSize)).length =
      data.length / messageSize * messageSize :=
    List.length_take_of_le (Nat.div_mul_le_self _ _)
  rw [size, Nat.mul_div_cancel _ (by decide), messages, messages]
  apply List.map_congr_left
  intro k member
  have inside : (k + 1) * messageSize ≤ data.length / messageSize * messageSize :=
    Nat.mul_le_mul_right _ (List.mem_range.mp member)
  have apart := messageAt_append (size.symm ▸ inside)
    (data.drop (data.length / messageSize * messageSize))
  rw [List.take_append_drop] at apart
  exact apart.symm

/-- Calls with the same inserts and queries. -/
def SameKnown (calls others : List Bytes) : Prop :=
  (callMessages others).filter (Known ·) = (callMessages calls).filter (Known ·)

/-- The inserts between two queries of some calls are in another order. -/
inductive Reordered (calls others : List Bytes) : Prop where
  | intro (front between moved back : List Message) (perm : between.Perm moved)
      (noQuery : ∀ msg ∈ between, msg.type ≠ messageQuery)
      (callsEq : callMessages calls = front ++ between ++ back)
      (othersEq : callMessages others = front ++ moved ++ back)

theorem SameKnown.messagesParseAll_eq {calls others : List Bytes} (same : SameKnown calls others) :
    Zig.messagesParseAll others = Zig.messagesParseAll calls := by
  have asks : asked [] (callMessages others) = asked [] (callMessages calls) := by
    rw [← asked_known, same, asked_known]
  have inserts : inserted (callMessages others) = inserted (callMessages calls) := by
    rw [← inserted_known, same, inserted_known]
  apply Option.ext
  intro final
  rw [Zig.messagesParseAll_iff, Zig.messagesParseAll_iff, flooredReplies, flooredReplies, asks,
    inserts]

theorem Reordered.flooredReplies_eq {calls others : List Bytes}
    (reordered : Reordered calls others) : flooredReplies others = flooredReplies calls := by
  obtain ⟨front, between, moved, back, perm, noQuery, callsEq, othersEq⟩ := reordered
  have movedNoQuery : ∀ msg ∈ moved, msg.type ≠ messageQuery :=
    fun msg member => noQuery msg (perm.mem_iff.mpr member)
  have table : (inserted (front ++ moved)).Perm (inserted (front ++ between)) := by
    rw [inserted_append, inserted_append]
    exact ((perm.symm.filter _).map _).append_left _
  have replies : ∀ calls, flooredReplies calls =
      ((asked [] (callMessages calls)).map flooredAnswer).flatMap wordBytes := by
    intro calls
    rw [flooredReplies, List.flatMap_map]
  have apart : ∀ middle : List Message, (∀ msg ∈ middle, msg.type ≠ messageQuery) →
      asked [] (front ++ middle ++ back) =
        asked [] front ++ asked (inserted (front ++ middle)) back := by
    intro middle none
    simp only [asked_eq, askedFrom_append, askedFrom_of_no_query none, List.append_nil,
      List.nil_append]
  rw [replies, replies, callsEq, othersEq, apart _ noQuery, apart _ movedNoQuery, List.map_append,
    List.map_append, asked_perm table]

/-- The calls respond to every query with the floor of the mean of the prices before it exactly
when an `i64` can keep every sum on the way, as it can for any 2^32 prices.  Messages of other
types, bytes behind the last message and the order of the inserts between two queries change
nothing. -/
theorem answers_floored_iff (calls : List Bytes) :
    ((∃ assets, Zig.messagesParseAll calls = some (flooredReplies calls, assets)) ↔
      ∀ prices ∈ asked [] (callMessages calls), InRange prices) ∧
    (∀ prices : List Int32, flooredMean prices = ⌊(total prices : ℚ) / prices.length⌋ ∧
      (flooredAnswer prices).toInt = flooredMean prices) ∧
    (∀ (assets : List AssetPrice) (query : AssetPriceQuery), query.maxtime < query.mintime →
      flooredAnswer (matching assets query) = 0) ∧
    (callMessages (calls.map fun data => data.take (data.length / messageSize * messageSize)) =
      callMessages calls) ∧
    (∀ others, SameKnown calls others →
      Zig.messagesParseAll others = Zig.messagesParseAll calls) ∧
    ∀ others, Reordered calls others → flooredReplies others = flooredReplies calls := by
  refine ⟨?_, fun prices => ⟨flooredMean_eq_floor prices, ?_⟩, fun assets query reversed => ?_, ?_,
    fun others same => same.messagesParseAll_eq, fun others reordered =>
      reordered.flooredReplies_eq⟩
  · constructor
    · rintro ⟨assets, responded⟩
      exact (Zig.messagesParseAll_iff.mp responded).1
    · intro inRange
      exact ⟨_, Zig.messagesParseAll_iff.mpr ⟨inRange, rfl⟩⟩
  · obtain ⟨low, high⟩ := flooredMean_bounds prices
    exact Int32.toInt_ofInt_of_le low high
  · rw [matching_reversed reversed]
    rfl
  · rw [callMessages, List.flatMap_map, callMessages]
    simp only [messages_whole]

/-! ### An overflow -/

/-- So many inserts of the lowest price that their sum is lower than any `i64`, and a query for
all of them. -/
def overflowing : List Message :=
  inserts (List.replicate (2 ^ 32 + 1) ⟨1, Int32.minValue⟩) ++ [⟨messageQuery, 1, 1⟩]

theorem callMessages_messageBytes (msgs : List Message) :
    callMessages (msgs.map messageBytes) = msgs := by
  rw [callMessages, List.flatMap_map]
  simp only [messages_messageBytes]
  exact List.flatMap_singleton' msgs

theorem overflow_unanswered : ¬ ∀ calls, ∃ assets,
    Zig.messagesParseAll calls = some (flooredReplies calls, assets) := by
  intro always
  obtain ⟨assets, responded⟩ := always (overflowing.map messageBytes)
  have sums := (Zig.messagesParseAll_iff.mp responded).1
  rw [callMessages_messageBytes, overflowing, asked_eq, askedFrom_append,
    askedFrom_of_no_query inserts_no_query, inserted_inserts, askedFrom_query] at sums
  -- The number of inserts stays a variable, so that nothing counts them one by one.
  generalize count : 2 ^ 32 + 1 = number at sums
  have prices : matching (List.replicate number ⟨1, Int32.minValue⟩) ⟨1, 1⟩ =
      List.replicate number Int32.minValue := by
    simp [matching, AssetPriceQuery.within]
  have fits := (sums _ (List.mem_singleton_self _) _ (List.prefix_refl _)).1.1
  rw [List.nil_append, id, prices, total, List.map_replicate, List.sum_replicate] at fits
  simp at fits
  omega

end NetworkExercises.MeansToAnEnd
