/-
Module: NetworkExercises.Lib.ArrayMap
Purpose: A map that keeps its entries in an array, in the order in which their keys were put;
  a removal moves the last entry into the gap.
Main exports: ArrayMap, ArrayMap.keys, ArrayMap.values, ArrayMap.getIndex, ArrayMap.put,
  ArrayMap.swapRemove, ArrayMap.mem_put, ArrayMap.mem_swapRemove, ArrayMap.values_eraseIdx
-/
import Mathlib.Tactic

namespace NetworkExercises.Lib

/-- Take an element out; the last one moves into its place. -/
def swapRemoveIdx {α : Type} (items : List α) (index : Nat) : List α :=
  match items.getLast? with
  | none => items
  | some last => (items.set index last).dropLast

/-- But for the order, the element at the index is taken out. -/
theorem swapRemoveIdx_perm {α : Type} {items : List α} {index : Nat}
    (inside : index < items.length) : (swapRemoveIdx items index).Perm (items.eraseIdx index) := by
  rcases List.eq_nil_or_concat items with rfl | ⟨front, last, rfl⟩
  · cases inside
  · rw [List.concat_eq_append] at inside ⊢
    rw [List.length_append, List.length_singleton] at inside
    rw [swapRemoveIdx, List.getLast?_concat]
    dsimp only
    rcases Nat.lt_succ_iff_lt_or_eq.mp inside with before | rfl
    · rw [List.set_append_left _ _ before, List.dropLast_concat,
        List.eraseIdx_append_of_lt_length before, List.eraseIdx_eq_take_drop_succ,
        List.set_eq_take_append_cons_drop, if_pos before]
      apply List.perm_middle.trans
      exact (List.perm_append_singleton last _).symm
    · rw [List.set_append_right _ _ (le_refl _), Nat.sub_self, List.set_cons_zero,
        List.dropLast_concat, List.eraseIdx_append_of_length_le (le_refl _), Nat.sub_self,
        List.eraseIdx_cons_zero, List.append_nil]

/-- Entries with distinct keys. -/
structure ArrayMap (κ υ : Type) where
  entries : List (κ × υ)
  distinct : (entries.map Prod.fst).Nodup

namespace ArrayMap

variable {κ υ : Type} [DecidableEq κ]

def empty : ArrayMap κ υ := ⟨[], List.nodup_nil⟩

def keys (self : ArrayMap κ υ) : List κ := self.entries.map Prod.fst

def values (self : ArrayMap κ υ) : List υ := self.entries.map Prod.snd

def getIndex (self : ArrayMap κ υ) (key : κ) : Option Nat :=
  self.entries.findIdx? fun entry => entry.1 == key

def contains (self : ArrayMap κ υ) (key : κ) : Bool := (self.getIndex key).isSome

/-- Put a value under a key; a key that is there already keeps its place. -/
def put (self : ArrayMap κ υ) (key : κ) (value : υ) : ArrayMap κ υ :=
  if present : key ∈ self.keys then
    ⟨self.entries.map fun entry => if entry.1 = key then (entry.1, value) else entry, by
      have same : (self.entries.map fun entry =>
          if entry.1 = key then (entry.1, value) else entry).map Prod.fst =
          self.entries.map Prod.fst := by
        rw [List.map_map]
        apply List.map_congr_left
        intro entry _
        rw [Function.comp_apply]
        split <;> rfl
      rw [same]
      exact self.distinct⟩
  else
    ⟨self.entries ++ [(key, value)], by
      rw [List.map_append, List.map_singleton, List.nodup_append]
      refine ⟨self.distinct, List.nodup_singleton _, ?_⟩
      rintro other member _ isNew rfl
      rw [List.mem_singleton.mp isNew] at member
      exact present member⟩

/-- Whether an index is found. -/
theorem getIndex_eq_none {self : ArrayMap κ υ} {key : κ} :
    self.getIndex key = none ↔ key ∉ self.keys := by
  rw [getIndex, List.findIdx?_eq_none_iff, keys, List.mem_map]
  constructor
  · rintro different ⟨entry, member, rfl⟩
    simpa using different entry member
  · intro absent entry member
    rw [beq_eq_false_iff_ne]
    exact fun isKey => absent ⟨entry, member, isKey⟩

theorem contains_iff {self : ArrayMap κ υ} {key : κ} :
    self.contains key = true ↔ key ∈ self.keys := by
  rw [contains, Option.isSome_iff_ne_none, ne_eq, getIndex_eq_none, not_not]

/-- The entry at an index that was found, between those before and behind it. -/
theorem getIndex_split {self : ArrayMap κ υ} {key : κ} {index : Nat}
    (found : self.getIndex key = some index) :
    ∃ front value back, self.entries = front ++ (key, value) :: back ∧ front.length = index := by
  obtain ⟨inside, isKey, -⟩ := List.findIdx?_eq_some_iff_getElem.mp found
  refine ⟨self.entries.take index, (self.entries[index]).2, self.entries.drop (index + 1), ?_,
    List.length_take_of_le (Nat.le_of_lt inside)⟩
  have whole := (List.take_append_drop index self.entries).symm
  rw [List.drop_eq_getElem_cons inside] at whole
  have first : self.entries[index].1 = key := by simpa using isKey
  rw [← first]
  exact whole

/-- Without the entry of a key; the last entry moves into its place. -/
def swapRemove (self : ArrayMap κ υ) (key : κ) : ArrayMap κ υ :=
  match found : self.getIndex key with
  | none => self
  | some index =>
      ⟨swapRemoveIdx self.entries index, by
        obtain ⟨inside, -, -⟩ := List.findIdx?_eq_some_iff_getElem.mp found
        apply ((swapRemoveIdx_perm inside).map Prod.fst).nodup_iff.mpr
        exact self.distinct.sublist ((List.eraseIdx_sublist _ _).map Prod.fst)⟩

variable {self : ArrayMap κ υ} {key other : κ} {value found : υ}

theorem keys_put_new (new : key ∉ self.keys) : (self.put key value).keys = self.keys ++ [key] := by
  rw [put, dif_neg new, keys, keys, List.map_append, List.map_singleton]

theorem mem_put_new (new : key ∉ self.keys) :
    (other, found) ∈ (self.put key value).entries ↔
      (other, found) = (key, value) ∨ (other, found) ∈ self.entries := by
  rw [put, dif_neg new, List.mem_append, List.mem_singleton, or_comm]

omit [DecidableEq κ] in
/-- The value of an entry is determined by its key. -/
theorem value_unique {first second : υ} (one : (key, first) ∈ self.entries)
    (two : (key, second) ∈ self.entries) : first = second := by
  have same := List.inj_on_of_nodup_map self.distinct one two rfl
  exact congrArg Prod.snd same

omit [DecidableEq κ] in
/-- The entries around the one of a key. -/
theorem mem_around {front back : List (κ × υ)}
    (split : self.entries = front ++ (key, value) :: back) :
    (other, found) ∈ front ++ back ↔ other ≠ key ∧ (other, found) ∈ self.entries := by
  have distinct := self.distinct
  rw [split, List.map_append, List.map_cons, List.nodup_middle, List.nodup_cons,
    ← List.map_append] at distinct
  rw [split]
  constructor
  · intro member
    refine ⟨?_, ?_⟩
    · intro same
      exact distinct.1 (List.mem_map.mpr ⟨_, member, same⟩)
    · rcases List.mem_append.mp member with member | member
      · exact List.mem_append_left _ member
      · exact List.mem_append_right _ (List.mem_cons_of_mem _ member)
  · rintro ⟨ne, member⟩
    rcases List.mem_append.mp member with member | member
    · exact List.mem_append_left _ member
    · rcases List.mem_cons.mp member with same | member
      · exact absurd (congrArg Prod.fst same) ne
      · exact List.mem_append_right _ member

theorem mem_swapRemove :
    (other, found) ∈ (self.swapRemove key).entries ↔
      other ≠ key ∧ (other, found) ∈ self.entries := by
  unfold swapRemove
  split
  · next absent =>
    have notKey := getIndex_eq_none.mp absent
    refine ⟨fun member => ⟨?_, member⟩, And.right⟩
    rintro rfl
    exact notKey (List.mem_map_of_mem member)
  · next index present =>
    obtain ⟨front, value, back, split, rfl⟩ := getIndex_split present
    have inside : front.length < self.entries.length := by
      rw [split]
      simp
    dsimp only
    rw [(swapRemoveIdx_perm inside).mem_iff]
    have erased : self.entries.eraseIdx front.length = front ++ back := by
      rw [split, List.eraseIdx_append_of_length_le (le_refl _), Nat.sub_self,
        List.eraseIdx_cons_zero]
    rw [erased]
    exact mem_around split

/-- The values but for the one at the index of a key. -/
theorem values_eraseIdx {index : Nat} (present : self.getIndex key = some index) :
    ∃ front value back, self.entries = front ++ (key, value) :: back ∧
      self.values.eraseIdx index = (front ++ back).map Prod.snd := by
  obtain ⟨front, value, back, split, rfl⟩ := getIndex_split present
  refine ⟨front, value, back, split, ?_⟩
  rw [values, split, List.map_append, List.map_cons, List.map_append,
    List.eraseIdx_append_of_length_le (by rw [List.length_map])]
  simp

end ArrayMap

end NetworkExercises.Lib
