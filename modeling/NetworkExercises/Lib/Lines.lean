/-
Module: NetworkExercises.Lib.Lines
Purpose: A stream cut behind each of its end marks: the lines that are complete, and what
  is left behind the last of them.
Main exports: splitLines, splitLines_flatten, splitLines_append, splitLines_line,
  splitLines_of_notMem, splitLines_rest_eq_nil, findIdx?_mark, completeLines, lastIndexOf,
  take_lastIndexOf
-/
import Mathlib.Tactic

namespace NetworkExercises.Lib

variable {α : Type} [DecidableEq α] (mark : α)

/-- The complete lines, each with its mark, and the rest. -/
def splitLines : List α → List (List α) × List α
  | [] => ([], [])
  | item :: items =>
      let (lines, rest) := splitLines items
      if item = mark then ([item] :: lines, rest)
      else
        match lines with
        | [] => ([], item :: rest)
        | line :: lines => ((item :: line) :: lines, rest)

variable {mark} {items front back line : List α}

theorem splitLines_flatten (mark : α) (items : List α) :
    (splitLines mark items).1.flatten ++ (splitLines mark items).2 = items := by
  induction items with
  | nil => rfl
  | cons item items ih =>
      rw [splitLines]
      generalize splitLines mark items = split at ih ⊢
      obtain ⟨lines, rest⟩ := split
      simp only at ih ⊢
      split
      · simp [← ih]
      · cases lines with
        | nil => simpa using ih
        | cons line lines => simp [← ih]

/-- A line is no longer than the whole. -/
theorem splitLines_length_le (member : line ∈ (splitLines mark items).1) :
    line.length ≤ items.length := by
  calc line.length
    _ ≤ (splitLines mark items).1.flatten.length :=
      (List.sublist_flatten_of_mem member).length_le
    _ ≤ ((splitLines mark items).1.flatten ++ (splitLines mark items).2).length := by
      rw [List.length_append]
      exact Nat.le_add_right _ _
    _ = items.length := by rw [splitLines_flatten]

/-- Behind the lines of a first part, its rest goes on with the second. -/
theorem splitLines_append (front back : List α) :
    splitLines mark (front ++ back) =
      ((splitLines mark front).1 ++ (splitLines mark ((splitLines mark front).2 ++ back)).1,
        (splitLines mark ((splitLines mark front).2 ++ back)).2) := by
  induction front with
  | nil => simp [splitLines]
  | cons item front ih =>
      rw [List.cons_append, splitLines, ih, splitLines]
      generalize splitLines mark front = split
      obtain ⟨lines, rest⟩ := split
      by_cases isMark : item = mark
      · simp [isMark]
      · cases lines with
        | nil =>
            simp only [if_neg isMark, List.nil_append, List.cons_append]
            rw [splitLines]
            simp only [if_neg isMark]
        | cons line lines => simp [isMark]

theorem splitLines_of_notMem (unmarked : mark ∉ items) : splitLines mark items = ([], items) := by
  induction items with
  | nil => rfl
  | cons item items ih =>
      obtain ⟨first, others⟩ := List.ne_and_not_mem_of_not_mem_cons unmarked
      rw [splitLines, ih others]
      simp [first.symm]

/-- One line in front. -/
theorem splitLines_line (unmarked : mark ∉ line) (back : List α) :
    splitLines mark (line ++ mark :: back) =
      ((line ++ [mark]) :: (splitLines mark back).1, (splitLines mark back).2) := by
  induction line with
  | nil => simp [splitLines]
  | cons item line ih =>
      obtain ⟨first, others⟩ := List.ne_and_not_mem_of_not_mem_cons unmarked
      rw [List.cons_append, splitLines, ih others]
      simp [first.symm]

/-- No mark is left behind the last one. -/
theorem splitLines_rest (mark : α) (items : List α) : mark ∉ (splitLines mark items).2 := by
  induction items with
  | nil => simp [splitLines]
  | cons item items ih =>
      rw [splitLines]
      generalize splitLines mark items = split at ih ⊢
      obtain ⟨lines, rest⟩ := split
      simp only at ih ⊢
      split
      · exact ih
      · next notMark =>
        cases lines with
        | nil => exact List.not_mem_cons_of_ne_of_not_mem (Ne.symm notMark) ih
        | cons line lines => exact ih

theorem splitLines_of_ends (ends : items.getLast? = some mark) :
    (splitLines mark items).2 = [] := by
  obtain ⟨front, rfl⟩ := List.getLast?_eq_some_iff.mp ends
  rw [splitLines_append, splitLines_line (splitLines_rest mark front) []]
  rfl

/-- Nothing is left behind the last mark exactly when the stream ends with one. -/
theorem splitLines_rest_eq_nil (nonempty : items ≠ []) :
    (splitLines mark items).2 = [] ↔ items.getLast? = some mark := by
  refine ⟨fun nothing => ?_, splitLines_of_ends⟩
  obtain ⟨front, last, rfl⟩ := (List.eq_nil_or_concat items).resolve_left nonempty
  by_contra unmarked
  rw [List.concat_eq_append] at nothing unmarked
  rw [List.getLast?_concat, Option.some.injEq] at unmarked
  have noMark : mark ∉ (splitLines mark front).2 ++ [last] := by
    simp [splitLines_rest mark front, Ne.symm unmarked]
  rw [splitLines_append, splitLines_of_notMem noMark] at nothing
  simp at nothing

/-! ### Where the marks are -/

theorem findIdx?_of_notMem (unmarked : mark ∉ items) : items.findIdx? (· == mark) = none := by
  rw [List.findIdx?_eq_none_iff]
  intro item member
  simp only [beq_eq_false_iff_ne]
  rintro rfl
  exact unmarked member

/-- The first mark. -/
theorem findIdx?_mark (unmarked : mark ∉ front) (back : List α) :
    (front ++ mark :: back).findIdx? (· == mark) = some front.length := by
  rw [List.findIdx?_append, findIdx?_of_notMem unmarked]
  simp [List.findIdx?_cons]

/-- Where the last mark is. -/
def lastIndexOf (mark : α) (items : List α) : Option Nat :=
  (items.reverse.findIdx? (· == mark)).map fun behind => items.length - 1 - behind

theorem lastIndexOf_of_notMem (unmarked : mark ∉ items) : lastIndexOf mark items = none := by
  rw [lastIndexOf, findIdx?_of_notMem (by simpa using unmarked), Option.map_none]

/-- The last mark. -/
theorem lastIndexOf_mark (front : List α) (unmarked : mark ∉ back) :
    lastIndexOf mark (front ++ mark :: back) = some front.length := by
  have reversed : (front ++ mark :: back).reverse = back.reverse ++ mark :: front.reverse := by
    simp
  rw [lastIndexOf, reversed, findIdx?_mark (by simpa using unmarked), Option.map_some,
    List.length_append, List.length_cons, List.length_reverse]
  congr 1
  omega

/-! ### Lines without their marks -/

/-- The complete lines, each without its mark. -/
def completeLines (mark : α) (items : List α) : List (List α) :=
  (splitLines mark items).1.map List.dropLast

/-- Every complete line is marked at its end and nowhere else. -/
theorem exists_body_of_mem_splitLines (member : line ∈ (splitLines mark items).1) :
    ∃ body, mark ∉ body ∧ line = body ++ [mark] := by
  induction items generalizing line with
  | nil => simp [splitLines] at member
  | cons item items ih =>
      rw [splitLines] at member
      generalize splitLines mark items = split at ih member
      obtain ⟨lines, rest⟩ := split
      by_cases isMark : item = mark
      · simp only [if_pos isMark, List.mem_cons] at member
        rcases member with rfl | member
        · exact ⟨[], List.not_mem_nil, by rw [isMark, List.nil_append]⟩
        · exact ih member
      · cases lines with
        | nil => simp [isMark] at member
        | cons first lines =>
            simp only [if_neg isMark, List.mem_cons] at member
            rcases member with rfl | member
            · obtain ⟨body, unmarked, rfl⟩ := ih List.mem_cons_self
              exact ⟨item :: body, List.not_mem_cons_of_ne_of_not_mem (Ne.symm isMark) unmarked,
                rfl⟩
            · exact ih (List.mem_cons_of_mem _ member)

theorem notMem_of_mem_completeLines (member : line ∈ completeLines mark items) :
    mark ∉ line := by
  obtain ⟨marked, isLine, rfl⟩ := List.mem_map.mp member
  obtain ⟨body, unmarked, rfl⟩ := exists_body_of_mem_splitLines isLine
  rwa [List.dropLast_concat]

theorem splitLines_eq_map_completeLines (items : List α) :
    (splitLines mark items).1 = (completeLines mark items).map (· ++ [mark]) := by
  have same : ∀ line ∈ (splitLines mark items).1, line.dropLast ++ [mark] = line := by
    intro line member
    obtain ⟨body, -, rfl⟩ := exists_body_of_mem_splitLines member
    rw [List.dropLast_concat]
  rw [completeLines, List.map_map]
  exact ((List.map_congr_left same).trans (List.map_id _)).symm

/-- The marked lines of a stream, back to back. -/
theorem flatten_splitLines (items : List α) :
    (splitLines mark items).1.flatten = (completeLines mark items).flatMap (· ++ [mark]) := by
  rw [splitLines_eq_map_completeLines, List.flatMap_def]

theorem completeLines_append (front back : List α) :
    completeLines mark (front ++ back) =
      completeLines mark front ++ completeLines mark ((splitLines mark front).2 ++ back) := by
  rw [completeLines, splitLines_append, List.map_append]
  rfl

theorem completeLines_of_notMem (unmarked : mark ∉ items) : completeLines mark items = [] := by
  rw [completeLines, splitLines_of_notMem unmarked, List.map_nil]

/-- One complete line and nothing behind it. -/
theorem completeLines_line (unmarked : mark ∉ line) :
    completeLines mark (line ++ [mark]) = [line] := by
  rw [completeLines, splitLines_line unmarked []]
  simp [splitLines]

theorem splitLines_line_rest (unmarked : mark ∉ line) :
    (splitLines mark (line ++ [mark])).2 = [] := by
  rw [splitLines_line unmarked []]
  rfl

/-- With no mark but at the end there is no complete line, or exactly one. -/
theorem notMem_or_line (unmarked : mark ∉ items.dropLast) :
    mark ∉ items ∨ ∃ line, items = line ++ [mark] ∧ mark ∉ line := by
  rcases List.eq_nil_or_concat items with rfl | ⟨line, last, rfl⟩
  · exact .inl unmarked
  · rw [List.concat_eq_append] at unmarked ⊢
    rw [List.dropLast_concat] at unmarked
    by_cases isMark : last = mark
    · exact .inr ⟨line, by rw [isMark], unmarked⟩
    · exact .inl (by simp [unmarked, Ne.symm isMark])

theorem notMem_of_completeLines_eq_nil (none : completeLines mark items = []) : mark ∉ items := by
  have whole := splitLines_flatten mark items
  rw [flatten_splitLines, none, List.flatMap_nil, List.nil_append] at whole
  rw [← whole]
  exact splitLines_rest mark items

omit [DecidableEq α] in
/-- There are no more lines than marks. -/
theorem length_le_flatMap_mark (mark : α) (lines : List (List α)) :
    lines.length ≤ (lines.flatMap (· ++ [mark])).length := by
  induction lines with
  | nil => exact Nat.zero_le _
  | cons line lines ih =>
      simp only [List.flatMap_cons, List.length_append, List.length_cons, List.length_nil]
      omega

/-- The last mark is the end of the last complete line. -/
theorem take_lastIndexOf {index : Nat} (found : lastIndexOf mark items = some index) :
    items.take (index + 1) = (completeLines mark items).flatMap (· ++ [mark]) ∧
      items.drop (index + 1) = (splitLines mark items).2 := by
  have whole := splitLines_flatten mark items
  have unmarked := splitLines_rest mark items
  rw [flatten_splitLines] at whole
  generalize (splitLines mark items).2 = rest at whole unmarked
  generalize completeLines mark items = lines at whole
  rcases List.eq_nil_or_concat lines with rfl | ⟨lines, last, rfl⟩
  · rw [List.flatMap_nil, List.nil_append] at whole
    rw [← whole, lastIndexOf_of_notMem unmarked] at found
    cases found
  · have itemsEq : items = (lines.flatMap (· ++ [mark]) ++ last) ++ mark :: rest := by
      simpa using whole.symm
    rw [itemsEq, lastIndexOf_mark _ unmarked, Option.some.injEq] at found
    subst found
    have marked : (lines.concat last).flatMap (· ++ [mark]) =
        lines.flatMap (· ++ [mark]) ++ last ++ [mark] := by simp
    have splits : items = (lines.flatMap (· ++ [mark]) ++ last ++ [mark]) ++ rest := by
      rw [itemsEq, List.append_assoc _ [mark] rest, List.singleton_append]
    have width : (lines.flatMap (· ++ [mark]) ++ last).length + 1 =
        (lines.flatMap (· ++ [mark]) ++ last ++ [mark]).length :=
      (@List.length_append _ _ [mark]).symm
    rw [marked, splits, width]
    exact ⟨List.take_left, List.drop_left⟩

/-- Without a mark there is no complete line. -/
theorem notMem_of_lastIndexOf (absent : lastIndexOf mark items = none) : mark ∉ items := by
  intro member
  rw [lastIndexOf, Option.map_eq_none_iff, List.findIdx?_eq_none_iff] at absent
  simpa using absent mark (List.mem_reverse.mpr member)

end NetworkExercises.Lib
