/-
Module: NetworkExercises.Lib.OneShot
Purpose: Events that are delivered to one of several workers, and disarmed until that worker has
  done with them: no key is ever with two workers.
Main exports: Shots, Shot, Shots.Step, Shots.Exclusive, Shots.Delivered, Shots.Traced,
  Shots.Step.exclusive, Shots.Step.traced
-/
import Mathlib.Tactic

namespace NetworkExercises.Lib

variable {ω κ : Type}

/-- The keys that are armed, and the keys that were delivered to each worker and wait there. -/
structure Shots (ω κ : Type) where
  armed : Set κ
  waiting : ω → List κ

/-- What happens: a worker is given some keys, or is done with the first of its keys. -/
inductive Shot (ω κ : Type) where
  | deliver (worker : ω) (keys : List κ)
  | finish (worker : ω) (key : κ)

/-- The key is delivered, or done with. -/
def Shot.Moves (key : κ) : Shot ω κ → Prop
  | .deliver _ keys => key ∈ keys
  | .finish _ done => done = key

namespace Shots

/-- Each key waits at most once, with one worker, and is not armed meanwhile. -/
structure Exclusive (shots : Shots ω κ) : Prop where
  once : ∀ worker, (shots.waiting worker).Nodup
  alone : ∀ key one other, key ∈ shots.waiting one → key ∈ shots.waiting other → one = other
  disarmed : ∀ worker, ∀ key ∈ shots.waiting worker, key ∉ shots.armed

variable {before after : Shots ω κ} {shot : Shot ω κ} {past : List (Shot ω κ)}

theorem exclusive_idle {armed : Set κ} : Exclusive (⟨armed, fun _ => []⟩ : Shots ω κ) where
  once _ := List.nodup_nil
  alone _ _ _ absurdity := absurd absurdity List.not_mem_nil
  disarmed _ _ absurdity := absurd absurdity List.not_mem_nil

/-! ### What was delivered last -/

/-- The key was delivered to the worker, and has not been moved since. -/
def Delivered (past : List (Shot ω κ)) (worker : ω) (key : κ) : Prop :=
  ∃ front keys between, past = front ++ .deliver worker keys :: between ∧ key ∈ keys ∧
    ∀ shot ∈ between, ¬ shot.Moves key

/-- With one more shot, a key is delivered by that shot, or was before and the shot leaves it. -/
theorem delivered_concat {worker : ω} {key : κ} :
    Delivered (past ++ [shot]) worker key ↔
      (∃ keys, shot = .deliver worker keys ∧ key ∈ keys) ∨
        Delivered past worker key ∧ ¬ shot.Moves key := by
  constructor
  · rintro ⟨front, keys, between, split, member, unmoved⟩
    rcases List.eq_nil_or_concat between with rfl | ⟨middle, last, rfl⟩
    · obtain ⟨-, same⟩ := List.append_inj' split rfl
      exact .inl ⟨keys, (List.cons.inj same).1, member⟩
    · rw [List.concat_eq_append, ← List.cons_append, ← List.append_assoc] at split
      obtain ⟨rfl, same⟩ := List.append_inj' split rfl
      obtain rfl := (List.cons.inj same).1
      refine .inr ⟨⟨front, keys, middle, rfl, member, fun other inside => ?_⟩, ?_⟩
      · exact unmoved other (by simp [inside])
      · exact unmoved shot (by simp)
  · rintro (⟨keys, rfl, member⟩ | ⟨⟨front, keys, between, rfl, member, unmoved⟩, stays⟩)
    · exact ⟨past, keys, [], rfl, member, fun _ absurdity => absurd absurdity List.not_mem_nil⟩
    · refine ⟨front, keys, between ++ [shot], by simp, member, fun other inside => ?_⟩
      rcases List.mem_append.mp inside with before | last
      · exact unmoved other before
      · exact List.mem_singleton.mp last ▸ stays

/-- With each worker wait the keys that were delivered to it and have not been moved since. -/
def Traced (past : List (Shot ω κ)) (shots : Shots ω κ) : Prop :=
  ∀ worker key, key ∈ shots.waiting worker ↔ Delivered past worker key

theorem traced_idle {armed : Set κ} : Traced [] (⟨armed, fun _ => []⟩ : Shots ω κ) := by
  intro worker key
  refine iff_of_false List.not_mem_nil ?_
  rintro ⟨front, keys, between, split, -⟩
  exact absurd split (by simp)

/-! ### Steps -/

variable [DecidableEq ω]

/-- A delivery takes armed keys and disarms them.  When a worker is done with a key, this key may be
armed again, and besides only keys that wait nowhere. -/
inductive Step (before after : Shots ω κ) : Shot ω κ → Prop where
  | deliver (worker : ω) (keys : List κ) (idle : before.waiting worker = []) (once : keys.Nodup)
      (armed : ∀ key ∈ keys, key ∈ before.armed)
      (disarms : ∀ key ∈ after.armed, key ∈ before.armed ∧ key ∉ keys)
      (waiting : after.waiting = Function.update before.waiting worker keys) :
      Step before after (.deliver worker keys)
  | finish (worker : ω) (key : κ) (rest : List κ) (first : before.waiting worker = key :: rest)
      (arms : ∀ other ∈ after.armed,
        other ∈ before.armed ∨ other = key ∨ ∀ worker, other ∉ before.waiting worker)
      (waiting : after.waiting = Function.update before.waiting worker rest) :
      Step before after (.finish worker key)

section Waiting

variable {keys rest : List κ} {worker other : ω} {key : κ}

/-- The other workers keep their keys. -/
theorem mem_update_waiting :
    key ∈ Function.update before.waiting worker keys other ↔
      other = worker ∧ key ∈ keys ∨ other ≠ worker ∧ key ∈ before.waiting other := by
  by_cases same : other = worker
  · subst same
    simp
  · simp [same]

/-- What is left to a worker and what waits with the others waited before, and is another key. -/
theorem Exclusive.mem_rest (exclusive : before.Exclusive)
    (first : before.waiting worker = key :: rest) {left : κ} :
    left ∈ Function.update before.waiting worker rest other ↔
      left ∈ before.waiting other ∧ left ≠ key := by
  have once := exclusive.once worker
  rw [first, List.nodup_cons] at once
  rw [mem_update_waiting]
  constructor
  · rintro (⟨rfl, member⟩ | ⟨differs, member⟩)
    · rw [first]
      refine ⟨List.mem_cons_of_mem _ member, ?_⟩
      rintro rfl
      exact once.1 member
    · refine ⟨member, ?_⟩
      rintro rfl
      exact differs (exclusive.alone left other worker member (by simp [first]))
  · rintro ⟨member, isOther⟩
    by_cases same : other = worker
    · subst same
      rw [first] at member
      exact .inl ⟨rfl, List.mem_of_ne_of_mem isOther member⟩
    · exact .inr ⟨same, member⟩

end Waiting

/-- Every step keeps the keys exclusive. -/
theorem Step.exclusive (step : Step before after shot) (exclusive : before.Exclusive) :
    after.Exclusive := by
  cases step with
  | deliver worker keys idle once armed disarms waiting =>
      -- What waits with the others is not armed, and so not among the keys.
      have apart : ∀ other, ∀ key ∈ before.waiting other, key ∉ keys :=
        fun other key member given => exclusive.disarmed other key member (armed key given)
      refine ⟨fun other => ?_, fun key one other => ?_, fun other key => ?_⟩
      · rw [waiting]
        by_cases same : other = worker
        · rwa [same, Function.update_self]
        · rw [Function.update_of_ne same]
          exact exclusive.once other
      · rw [waiting, mem_update_waiting, mem_update_waiting]
        rintro (⟨rfl, given⟩ | ⟨-, member⟩) (⟨rfl, again⟩ | ⟨-, also⟩)
        · rfl
        · exact absurd given (apart other key also)
        · exact absurd again (apart one key member)
        · exact exclusive.alone key one other member also
      · rw [waiting, mem_update_waiting]
        rintro (⟨-, given⟩ | ⟨-, member⟩) stillArmed
        · exact (disarms key stillArmed).2 given
        · exact exclusive.disarmed other key member (disarms key stillArmed).1
  | finish worker key rest first arms waiting =>
      refine ⟨fun other => ?_, fun left one other => ?_, fun other left => ?_⟩
      · rw [waiting]
        by_cases same : other = worker
        · rw [same, Function.update_self]
          have once := exclusive.once worker
          rw [first] at once
          exact (List.nodup_cons.mp once).2
        · rw [Function.update_of_ne same]
          exact exclusive.once other
      · rw [waiting, exclusive.mem_rest first, exclusive.mem_rest first]
        rintro ⟨member, -⟩ ⟨also, -⟩
        exact exclusive.alone left one other member also
      · rw [waiting, exclusive.mem_rest first]
        rintro ⟨member, isOther⟩ nowArmed
        rcases arms left nowArmed with before | isKey | nowhere
        · exact exclusive.disarmed other left member before
        · exact isOther isKey
        · exact nowhere other member

theorem Step.traced (step : Step before after shot) (exclusive : before.Exclusive)
    (traced : Traced past before) : Traced (past ++ [shot]) after := by
  intro other key
  rw [delivered_concat, ← traced other key]
  cases step with
  | deliver worker keys idle once armed disarms waiting =>
      have apart : key ∈ before.waiting other → key ∉ keys := fun member given =>
        exclusive.disarmed other key member (armed key given)
      rw [waiting, mem_update_waiting]
      constructor
      · rintro (⟨rfl, given⟩ | ⟨-, member⟩)
        · exact .inl ⟨keys, rfl, given⟩
        · exact .inr ⟨member, apart member⟩
      · rintro (⟨_, ⟨⟩, given⟩ | ⟨member, -⟩)
        · exact .inl ⟨rfl, given⟩
        · refine .inr ⟨?_, member⟩
          rintro rfl
          rw [idle] at member
          cases member
  | finish worker done rest first arms waiting =>
      rw [waiting, exclusive.mem_rest first]
      constructor
      · rintro ⟨member, isOther⟩
        exact .inr ⟨member, Ne.symm isOther⟩
      · rintro (⟨_, ⟨⟩, -⟩ | ⟨member, stays⟩)
        exact ⟨member, Ne.symm stays⟩

end Shots

end NetworkExercises.Lib
