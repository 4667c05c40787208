/-
Module: NetworkExercises.Lib.Transducer
Purpose: Machines that rewrite a list from left to right, with a look at the items that
  follow, and when a list can be rewritten in two parts.
Main exports: Transducer.run, Transducer.after, Transducer.Blind, Transducer.run_append
-/
import Mathlib.Data.List.Infix

namespace NetworkExercises.Lib

/-- A machine that reads one item after the other.  Its next place and what it writes for an
item may depend on the items that follow. -/
structure Transducer (Place Item : Type) where
  next : Place → Item → List Item → Place
  write : Place → Item → List Item → List Item

namespace Transducer

variable {Place Item : Type} (machine : Transducer Place Item) {place : Place}
  {front back : List Item}

/-- The place behind a list. -/
def after (place : Place) : List Item → Place
  | [] => place
  | item :: rest => after (machine.next place item rest) rest

/-- What is written for a list. -/
def run (place : Place) : List Item → List Item
  | [] => []
  | item :: rest => machine.write place item rest ++ run (machine.next place item rest) rest

@[simp] theorem after_nil : machine.after place [] = place := rfl

@[simp] theorem run_nil : machine.run place [] = [] := rfl

/-- What the machine does in front does not depend on what follows there. -/
def Blind (front back : List Item) : Prop :=
  ∀ item more, item :: more <:+ front → ∀ place,
    machine.next place item (more ++ back) = machine.next place item more ∧
      machine.write place item (more ++ back) = machine.write place item more

variable {machine}

theorem Blind.tail {item : Item} (blind : machine.Blind (item :: front) back) :
    machine.Blind front back :=
  fun other more suffix => blind other more (suffix.trans (List.suffix_cons item front))

theorem Blind.after_append (blind : machine.Blind front back) (place : Place) :
    machine.after place (front ++ back) = machine.after (machine.after place front) back := by
  induction front generalizing place with
  | nil => rfl
  | cons item front ih =>
      rw [List.cons_append, after, after, (blind item front List.suffix_rfl place).1]
      exact ih blind.tail _

theorem Blind.run_append (blind : machine.Blind front back) (place : Place) :
    machine.run place (front ++ back) =
      machine.run place front ++ machine.run (machine.after place front) back := by
  induction front generalizing place with
  | nil => rfl
  | cons item front ih =>
      obtain ⟨nextEq, writeEq⟩ := blind item front List.suffix_rfl place
      rw [List.cons_append, run, run, after, nextEq, writeEq, List.append_assoc]
      exact congrArg _ (ih blind.tail _)

/-- A property of items that everything written for such an item has. -/
theorem forall_mem_run {good : Item → Prop}
    (written : ∀ place item rest, good item → ∀ out ∈ machine.write place item rest, good out)
    {items : List Item} (itemsGood : ∀ item ∈ items, good item) (place : Place) :
    ∀ out ∈ machine.run place items, good out := by
  induction items generalizing place with
  | nil => simp
  | cons item items ih =>
      obtain ⟨itemGood, itemsGood⟩ := List.forall_mem_cons.mp itemsGood
      intro out member
      rw [run, List.mem_append] at member
      cases member with
      | inl here => exact written place item items itemGood out here
      | inr later => exact ih itemsGood _ out later

/-- At a place that the items do not leave, each of them is written the same way. -/
theorem run_of_stays {good : Item → Prop} {writes : Item → List Item}
    (stays : ∀ item rest, good item → machine.next place item rest = place)
    (written : ∀ item rest, good item → machine.write place item rest = writes item)
    {items : List Item} (itemsGood : ∀ item ∈ items, good item) :
    machine.run place items = items.flatMap writes ∧ machine.after place items = place := by
  induction items with
  | nil => exact ⟨rfl, rfl⟩
  | cons item items ih =>
      obtain ⟨itemGood, itemsGood⟩ := List.forall_mem_cons.mp itemsGood
      obtain ⟨runEq, afterEq⟩ := ih itemsGood
      constructor
      · rw [run, stays item items itemGood, written item items itemGood, runEq, List.flatMap_cons]
      · rw [after, stays item items itemGood, afterEq]

end Transducer

end NetworkExercises.Lib
