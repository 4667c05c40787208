/-
Module: NetworkExercises.Lib.Checked
Purpose: Outcomes of safety-checked code: a value, a returned error, or a trap
  (integer overflow, an index or slice out of range).
Main exports: Fault, Checked, Outcome, fitsIn, subtract, byteAt, slice,
  BoundedArray
-/
import Mathlib.Tactic

namespace NetworkExercises.Lib

/-- Why a checked computation gives no value. -/
inductive Fault (ε : Type) where
  | error (e : ε)
  | trap
deriving DecidableEq, Repr

/-- A computation that may return an error or trap. -/
abbrev Checked (ε α : Type) := Except (Fault ε) α

namespace Checked

variable {ε α β : Type}

/-- Return an error to the caller. -/
def fail (e : ε) : Checked ε α := .error (.error e)

/-- Stop the program at a failed safety check. -/
def trap : Checked ε α := .error .trap

@[simp] theorem ok_bind (a : α) (f : α → Checked ε β) :
    ((Except.ok a : Checked ε α) >>= f) = f a := rfl

@[simp] theorem trap_bind (f : α → Checked ε β) :
    ((trap : Checked ε α) >>= f) = trap := rfl

@[simp] theorem trap_ne_ok (a : α) : (trap : Checked ε α) ≠ .ok a := nofun

/-- A bind gives a value exactly when both of its halves do. -/
theorem bind_eq_ok {x : Checked ε α} {f : α → Checked ε β} {b : β} :
    (x >>= f) = .ok b ↔ ∃ a, x = .ok a ∧ f a = .ok b := by
  cases x with
  | error fault =>
      constructor
      · intro absurdity
        cases absurdity
      · rintro ⟨a, absurdity, -⟩
        cases absurdity
  | ok a => simp

/-- The computation may trap but returns no error. -/
def Unfailing (x : Checked ε α) : Prop := ∀ e, x ≠ fail e

theorem unfailing_ok (a : α) : Unfailing (.ok a : Checked ε α) := nofun

theorem unfailing_trap : Unfailing (trap : Checked ε α) := nofun

theorem Unfailing.bind {x : Checked ε α} {f : α → Checked ε β} (first : Unfailing x)
    (rest : ∀ a, x = .ok a → Unfailing (f a)) : Unfailing (x >>= f) := by
  cases x with
  | error fault =>
      cases fault with
      | error e => exact absurd rfl (first e)
      | trap => exact unfailing_trap
  | ok a => exact rest a rfl

end Checked

/-- The end of a computation that changes a state: it may also return an error,
with the state it has reached, or trap. -/
inductive Outcome (ε σ : Type) where
  | done (state : σ)
  | raised (error : ε) (state : σ)
  | trap

namespace Outcome

variable {ε σ τ : Type}

/-- Go on from the state that is reached without an error. -/
def andThen (first : Outcome ε σ) (next : σ → Outcome ε σ) : Outcome ε σ :=
  match first with
  | done state => next state
  | raised error state => raised error state
  | trap => trap

/-- See the state as part of a larger one. -/
def map (f : σ → τ) : Outcome ε σ → Outcome ε τ
  | done state => done (f state)
  | raised error state => raised error (f state)
  | trap => trap

/-- The state is reached, with an error or without. -/
def Reaches (outcome : Outcome ε σ) (state : σ) : Prop :=
  outcome = done state ∨ ∃ error, outcome = raised error state

@[simp] theorem done_andThen (state : σ) (next : σ → Outcome ε σ) :
    (done state).andThen next = next state := rfl

@[simp] theorem raised_andThen (error : ε) (state : σ) (next : σ → Outcome ε σ) :
    (raised error state).andThen next = raised error state := rfl

@[simp] theorem trap_andThen (next : σ → Outcome ε σ) :
    (trap : Outcome ε σ).andThen next = trap := rfl

@[simp] theorem map_done (f : σ → τ) (state : σ) :
    (done state : Outcome ε σ).map f = done (f state) := rfl

@[simp] theorem map_raised (f : σ → τ) (error : ε) (state : σ) :
    (raised error state).map f = raised error (f state) := rfl

@[simp] theorem map_trap (f : σ → τ) : (trap : Outcome ε σ).map f = trap := rfl

theorem andThen_eq_done {first : Outcome ε σ} {next : σ → Outcome ε σ} {final : σ} :
    first.andThen next = done final ↔
      ∃ middle, first = done middle ∧ next middle = done final := by
  cases first <;> simp

theorem andThen_eq_raised {first : Outcome ε σ} {next : σ → Outcome ε σ} {error : ε}
    {final : σ} :
    first.andThen next = raised error final ↔ first = raised error final ∨
      ∃ middle, first = done middle ∧ next middle = raised error final := by
  cases first <;> simp

@[simp] theorem done_reaches {state final : σ} :
    (done state : Outcome ε σ).Reaches final ↔ final = state := by
  simp [Reaches, eq_comm]

@[simp] theorem raised_reaches {error : ε} {state final : σ} :
    (raised error state).Reaches final ↔ final = state := by
  simp [Reaches, eq_comm]

@[simp] theorem not_trap_reaches {final : σ} : ¬ (trap : Outcome ε σ).Reaches final := by
  simp [Reaches]

/-- Going on reaches a state through the first half alone, with an error, or
through both halves. -/
theorem andThen_reaches {first : Outcome ε σ} {next : σ → Outcome ε σ} {final : σ}
    (reaches : (first.andThen next).Reaches final) :
    (∃ error, first = raised error final) ∨
      ∃ middle, first = done middle ∧ (next middle).Reaches final := by
  cases first with
  | done state => exact .inr ⟨state, rfl, reaches⟩
  | raised error state =>
      rw [raised_andThen, raised_reaches] at reaches
      exact .inl ⟨error, reaches ▸ rfl⟩
  | trap => exact absurd reaches not_trap_reaches

/-- A state seen as part of a larger one is reached as that part. -/
theorem map_reaches {outcome : Outcome ε σ} {f : σ → τ} {final : τ}
    (reaches : (outcome.map f).Reaches final) :
    ∃ state, outcome.Reaches state ∧ final = f state := by
  cases outcome with
  | done state => exact ⟨state, .inl rfl, by simpa using reaches⟩
  | raised error state => exact ⟨state, .inr ⟨error, rfl⟩, by simpa using reaches⟩
  | trap => exact absurd reaches not_trap_reaches

end Outcome

open Checked

variable {ε : Type}

/-- The result of an unsigned operation at `width` bits: the program traps when
the value does not fit. -/
def fitsIn (width value : Nat) : Checked ε Nat :=
  if value < 2 ^ width then .ok value else trap

/-- Unsigned subtraction: the program traps below zero. -/
def subtract (left right : Nat) : Checked ε Nat :=
  if right ≤ left then .ok (left - right) else trap

theorem fitsIn_of_lt {width value : Nat} (bound : value < 2 ^ width) :
    (fitsIn width value : Checked ε Nat) = .ok value := if_pos bound

theorem fitsIn_of_ge {width value : Nat} (bound : 2 ^ width ≤ value) :
    (fitsIn width value : Checked ε Nat) = trap := if_neg (by omega)

@[simp] theorem fitsIn_eq_ok {width value result : Nat} :
    (fitsIn width value : Checked ε Nat) = .ok result ↔
      value < 2 ^ width ∧ value = result := by
  unfold fitsIn
  split <;> simp_all

theorem subtract_of_le {left right : Nat} (bound : right ≤ left) :
    (subtract left right : Checked ε Nat) = .ok (left - right) := if_pos bound

@[simp] theorem subtract_eq_ok {left right result : Nat} :
    (subtract left right : Checked ε Nat) = .ok result ↔
      right ≤ left ∧ left - right = result := by
  unfold subtract
  split <;> simp_all

theorem unfailing_subtract (left right : Nat) :
    Unfailing (subtract left right : Checked ε Nat) := by
  unfold subtract
  split
  · exact unfailing_ok _
  · exact unfailing_trap

section Slices

variable {α : Type}

/-- `items[index]`. -/
def byteAt (items : List α) (index : Nat) : Checked ε α :=
  match items[index]? with
  | some item => .ok item
  | none => trap

/-- `items[first..last]`. -/
def slice (items : List α) (first last : Nat) : Checked ε (List α) :=
  if first ≤ last ∧ last ≤ items.length then
    .ok ((items.drop first).take (last - first))
  else trap

theorem byteAt_of_getElem? {items : List α} {index : Nat} {item : α}
    (found : items[index]? = some item) :
    (byteAt items index : Checked ε α) = .ok item := by
  simp [byteAt, found]

/-- Indexing from an offset is indexing what lies behind the offset. -/
theorem byteAt_offset (items : List α) (start index : Nat) :
    (byteAt items (start + index) : Checked ε α) =
      byteAt (items.drop start) index := by
  simp only [byteAt, List.getElem?_drop]

/-- A slice of a given width inside the list. -/
theorem slice_width {items : List α} {first width : Nat}
    (inside : first + width ≤ items.length) :
    (slice items first (first + width) : Checked ε (List α)) =
      .ok ((items.drop first).take width) := by
  rw [slice, if_pos ⟨Nat.le_add_right _ _, inside⟩, Nat.add_sub_cancel_left]

theorem slice_of_gt {items : List α} {first last : Nat}
    (outside : items.length < last) :
    (slice items first last : Checked ε (List α)) = trap := if_neg (by omega)

@[simp] theorem slice_eq_ok {items inside : List α} {first last : Nat} :
    (slice items first last : Checked ε (List α)) = .ok inside ↔
      (first ≤ last ∧ last ≤ items.length) ∧
        (items.drop first).take (last - first) = inside := by
  unfold slice
  split <;> simp_all

/-- A slice has as many elements as its ends are apart. -/
theorem slice_length {items inside : List α} {first last : Nat}
    (taken : (slice items first last : Checked ε (List α)) = .ok inside) :
    inside.length = last - first := by
  obtain ⟨bounds, rfl⟩ := slice_eq_ok.mp taken
  rw [List.length_take, List.length_drop]
  omega

end Slices

/-- A list held in a buffer of fixed capacity. -/
structure BoundedArray (α : Type) (capacity : Nat) where
  items : List α
  fits : items.length ≤ capacity
deriving DecidableEq

namespace BoundedArray

variable {α : Type} {capacity : Nat}

/-- The empty array. -/
def clear : BoundedArray α capacity := ⟨[], Nat.zero_le _⟩

/-- Add a slice at the end, unless it overflows the buffer. -/
def appendSlice (array : BoundedArray α capacity) (more : List α) :
    Option (BoundedArray α capacity) :=
  if room : (array.items ++ more).length ≤ capacity then
    some ⟨array.items ++ more, room⟩
  else none

/-- The array with the items of a slice, unless there are too many. -/
def fromSlice (slice : List α) : Option (BoundedArray α capacity) :=
  if room : slice.length ≤ capacity then some ⟨slice, room⟩ else none

/-- Put other items in the place of the `len` items from `start` on, unless they overflow
the buffer. -/
def replaceRange (array : BoundedArray α capacity) (start len : Nat) (more : List α) :
    Option (BoundedArray α capacity) :=
  fromSlice (array.items.take start ++ more ++ array.items.drop (start + len))

@[simp] theorem clear_items : (clear : BoundedArray α capacity).items = [] := rfl

@[simp] theorem fromSlice_eq_some {slice : List α} {result : BoundedArray α capacity} :
    fromSlice slice = some result ↔ result.items = slice := by
  unfold fromSlice
  split
  · cases result
    simp [eq_comm]
  · next full =>
    constructor
    · intro absurdity
      cases absurdity
    · intro itemsEq
      exact absurd (itemsEq ▸ result.fits) full

@[simp] theorem appendSlice_eq_some {array result : BoundedArray α capacity}
    {more : List α} :
    array.appendSlice more = some result ↔ result.items = array.items ++ more :=
  fromSlice_eq_some

theorem appendSlice_eq_none {array : BoundedArray α capacity} {more : List α} :
    array.appendSlice more = none ↔ capacity < (array.items ++ more).length := by
  unfold appendSlice
  split
  · next room => simpa using room
  · next full => simpa using full

@[simp] theorem appendSlice_nil (array : BoundedArray α capacity) :
    array.appendSlice [] = some array :=
  appendSlice_eq_some.mpr (List.append_nil _).symm

/-- Two slices, one behind the other, are one slice. -/
theorem appendSlice_append (array : BoundedArray α capacity) (first second : List α) :
    array.appendSlice (first ++ second) =
      (array.appendSlice first).bind fun array => array.appendSlice second := by
  cases appended : array.appendSlice first with
  | none =>
      rw [Option.bind_none, appendSlice_eq_none]
      rw [appendSlice_eq_none] at appended
      simp only [List.length_append] at appended ⊢
      omega
  | some longer =>
      have items := appendSlice_eq_some.mp appended
      rw [Option.bind_some]
      unfold appendSlice
      simp only [items, List.append_assoc]

end BoundedArray

end NetworkExercises.Lib
