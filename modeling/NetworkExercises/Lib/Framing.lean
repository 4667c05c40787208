/-
Module: NetworkExercises.Lib.Framing
Purpose: A stream of encoded items cut at any place: the items that are there
  whole, and what is left behind the last of them; and lists that are encodings,
  back to back.
Main exports: complete, Unfinished, complete_split, complete_append, complete_mono,
  Concatenation, items_unique
-/
import Mathlib.Tactic

namespace NetworkExercises.Lib

variable {α β : Type} (encode : α → List β)

/-- The items of a stream that lie whole within its first `count` elements. -/
def complete : List α → Nat → List α
  | [], _ => []
  | item :: items, count =>
      if (encode item).length ≤ count then
        item :: complete items (count - (encode item).length)
      else []

/-- `rest` is a strict beginning of the next item, and empty when none is left. -/
def Unfinished (later : List α) (rest : List β) : Prop :=
  match later with
  | [] => rest = []
  | item :: _ => rest <+: encode item ∧ rest.length < (encode item).length

variable {encode} {items : List α}

theorem complete_prefix_items (items : List α) (count : Nat) :
    complete encode items count <+: items := by
  induction items generalizing count with
  | nil => exact List.prefix_rfl
  | cons item items ih =>
      rw [complete]
      split
      · exact (List.prefix_cons_inj item).mpr (ih _)
      · exact List.nil_prefix

/-- A beginning of a stream is its whole items and an unfinished rest. -/
theorem complete_split {part : List β} (isPart : part <+: items.flatMap encode) :
    ∃ later rest, items = complete encode items part.length ++ later ∧
      part = (complete encode items part.length).flatMap encode ++ rest ∧
      Unfinished encode later rest := by
  induction items generalizing part with
  | nil =>
      rw [List.flatMap_nil, List.prefix_nil] at isPart
      subst isPart
      exact ⟨[], [], rfl, rfl, rfl⟩
  | cons item items ih =>
      rw [List.flatMap_cons] at isPart
      by_cases whole : (encode item).length ≤ part.length
      · obtain ⟨others, rfl⟩ := List.prefix_of_prefix_length_le
          (List.prefix_append _ _) isPart whole
        rw [List.prefix_append_right_inj] at isPart
        obtain ⟨later, rest, itemsEq, othersEq, unfinished⟩ := ih isPart
        have first : complete encode (item :: items) (encode item ++ others).length =
            item :: complete encode items others.length := by
          rw [complete, if_pos whole, List.length_append, Nat.add_sub_cancel_left]
        refine ⟨later, rest, ?_, ?_, unfinished⟩
        · rw [first, List.cons_append, ← itemsEq]
        · rw [first, List.flatMap_cons, List.append_assoc, ← othersEq]
      · have none : complete encode (item :: items) part.length = [] := if_neg whole
        refine ⟨item :: items, part, by rw [none]; rfl, by rw [none]; rfl, ?_, by omega⟩
        exact List.prefix_of_prefix_length_le isPart (List.prefix_append _ _) (by omega)

/-- Behind whole items, the rest of the stream is counted on its own. -/
theorem complete_append (front later : List α) (count : Nat) :
    complete encode (front ++ later) ((front.flatMap encode).length + count) =
      front ++ complete encode later count := by
  induction front with
  | nil => simp
  | cons item front ih =>
      have fits : (encode item).length ≤
          ((item :: front).flatMap encode).length + count := by
        simp only [List.flatMap_cons, List.length_append]
        omega
      have left : ((item :: front).flatMap encode).length + count - (encode item).length =
          (front.flatMap encode).length + count := by
        simp only [List.flatMap_cons, List.length_append]
        omega
      rw [List.cons_append, complete, if_pos fits, left, ih, List.cons_append]

/-- Nothing is whole within nothing. -/
theorem complete_zero (nonempty : ∀ item ∈ items, encode item ≠ []) :
    complete encode items 0 = [] := by
  cases items with
  | nil => rfl
  | cons item items =>
      have := List.length_pos_iff.mpr (nonempty item (by simp))
      exact if_neg (by omega)

/-- More of the stream makes no fewer items whole. -/
theorem complete_mono {count more : Nat} (le : count ≤ more) :
    complete encode items count <+: complete encode items more := by
  induction items generalizing count more with
  | nil => exact List.prefix_rfl
  | cons item items ih =>
      rw [complete, complete]
      by_cases fits : (encode item).length ≤ count
      · rw [if_pos fits, if_pos (fits.trans le)]
        exact (List.prefix_cons_inj item).mpr (ih (Nat.sub_le_sub_right le _))
      · rw [if_neg fits]
        exact List.nil_prefix

/-- All items lie whole within the whole stream. -/
theorem complete_all (items : List α) :
    complete encode items (items.flatMap encode).length = items := by
  simpa [complete] using complete_append items [] 0

/-- More of a stream, of which `front` was whole, brings whole items behind
`front` and leaves an unfinished rest. -/
theorem complete_more {front later : List α} {rest more : List β}
    (isPart : front.flatMap encode ++ rest ++ more <+: (front ++ later).flatMap encode) :
    ∃ new after left, later = new ++ after ∧
      complete encode (front ++ later) (front.flatMap encode ++ rest ++ more).length =
        front ++ new ∧
      rest ++ more = new.flatMap encode ++ left ∧ Unfinished encode after left := by
  rw [List.flatMap_append, List.append_assoc, List.prefix_append_right_inj] at isPart
  obtain ⟨after, left, laterEq, moreEq, unfinished⟩ := complete_split isPart
  refine ⟨_, after, left, laterEq, ?_, moreEq, unfinished⟩
  rw [List.append_assoc, List.length_append, complete_append]

/-! ### Concatenations -/

/-- A list of encodings, of items that are all `good`. -/
def Concatenation (encode : α → List β) (good : α → Prop) (whole : List β) : Prop :=
  ∃ items : List α, (∀ item ∈ items, good item) ∧ whole = items.flatMap encode

variable {good : α → Prop} {front back : List β}

theorem concatenation_nil : Concatenation encode good [] := ⟨[], nofun, rfl⟩

theorem concatenation_encode {item : α} (isGood : good item) :
    Concatenation encode good (encode item) :=
  ⟨[item], by simpa using isGood, by simp⟩

theorem Concatenation.append (one : Concatenation encode good front)
    (two : Concatenation encode good back) : Concatenation encode good (front ++ back) := by
  obtain ⟨items, itemsGood, rfl⟩ := one
  obtain ⟨others, othersGood, rfl⟩ := two
  refine ⟨items ++ others, fun item member => ?_, List.flatMap_append.symm⟩
  rcases List.mem_append.mp member with member | member
  · exact itemsGood item member
  · exact othersGood item member

/-- When an encoding is never cut short by what follows it, whole encodings in front
can be taken away. -/
theorem Concatenation.of_append (nonempty : ∀ item, good item → encode item ≠ [])
    (delimited : ∀ item other more rest, good item → good other →
      encode item ++ more = encode other ++ rest → encode item = encode other)
    (one : Concatenation encode good front)
    (whole : Concatenation encode good (front ++ back)) : Concatenation encode good back := by
  obtain ⟨items, itemsGood, rfl⟩ := one
  induction items with
  | nil => exact whole
  | cons item items ih =>
      obtain ⟨itemGood, itemsGood⟩ := List.forall_mem_cons.mp itemsGood
      obtain ⟨all, allGood, allEq⟩ := whole
      rw [List.flatMap_cons, List.append_assoc] at allEq
      cases all with
      | nil => exact absurd (List.append_eq_nil_iff.mp allEq).1 (nonempty item itemGood)
      | cons other others =>
          obtain ⟨otherGood, othersGood⟩ := List.forall_mem_cons.mp allGood
          rw [List.flatMap_cons] at allEq
          rw [delimited item other _ _ itemGood otherGood allEq] at allEq
          exact ih itemsGood ⟨others, othersGood, List.append_cancel_left allEq⟩

/-- When no encoding is the beginning of another one's, a list of items can be read off from
its concatenation. -/
theorem items_unique (nonempty : ∀ item, good item → encode item ≠ [])
    (delimited : ∀ item other more rest, good item → good other →
      encode item ++ more = encode other ++ rest → item = other) {items others : List α}
    (itemsGood : ∀ item ∈ items, good item) (othersGood : ∀ other ∈ others, good other)
    (same : items.flatMap encode = others.flatMap encode) : items = others := by
  induction items generalizing others with
  | nil =>
      cases others with
      | nil => rfl
      | cons other others =>
          rw [List.flatMap_nil, List.flatMap_cons] at same
          exact absurd (List.append_eq_nil_iff.mp same.symm).1
            (nonempty other (othersGood other (by simp)))
  | cons item items ih =>
      obtain ⟨itemGood, itemsGood⟩ := List.forall_mem_cons.mp itemsGood
      cases others with
      | nil =>
          rw [List.flatMap_nil, List.flatMap_cons] at same
          exact absurd (List.append_eq_nil_iff.mp same).1 (nonempty item itemGood)
      | cons other others =>
          obtain ⟨otherGood, restGood⟩ := List.forall_mem_cons.mp othersGood
          rw [List.flatMap_cons, List.flatMap_cons] at same
          obtain rfl := delimited item other _ _ itemGood otherGood same
          exact congrArg (item :: ·) (ih itemsGood restGood (List.append_cancel_left same))

end NetworkExercises.Lib
