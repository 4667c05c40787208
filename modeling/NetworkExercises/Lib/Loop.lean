/-
Module: NetworkExercises.Lib.Loop
Purpose: Loops with a checked body: the states at their head, and what a fact about one
  pass through the body says about the whole loop.
Main exports: Looping, Head, Head.preserves, Head.loop_eq, Looping.ends, Looping.isOk_iff
-/
import NetworkExercises.Lib.Checked

namespace NetworkExercises.Lib

open Checked

variable {ε σ τ : Type}

/-- `loop` repeats `body` until it gives no further state, and then reads off its result. -/
def Looping (body : σ → Checked ε (Option σ)) (result : σ → τ) (loop : σ → Checked ε τ) : Prop :=
  ∀ state, loop state = body state >>= fun
    | none => .ok (result state)
    | some next => loop next

/-- The states that a loop meets at its head. -/
inductive Head (body : σ → Checked ε (Option σ)) (start : σ) : σ → Prop where
  | enter : Head body start start
  | again {state next : σ} (reached : Head body start state)
      (turned : body state = .ok (some next)) : Head body start next

variable {body : σ → Checked ε (Option σ)} {result : σ → τ} {loop : σ → Checked ε τ}
  {start state next : σ}

/-- What every pass through the body keeps holds at every head. -/
theorem Head.preserves (P : σ → Prop)
    (kept : ∀ state next, P state → body state = .ok (some next) → P next)
    (initial : P start) (reached : Head body start state) : P state := by
  induction reached with
  | enter => exact initial
  | again reached turned ih => exact kept _ _ ih turned

/-- The loop has the outcome that it has from any of its heads. -/
theorem Head.loop_eq (looping : Looping body result loop) (reached : Head body start state) :
    loop start = loop state := by
  induction reached with
  | enter => rfl
  | again reached turned ih => rw [ih, looping, turned, ok_bind]

/-- What the loop meets from its second head on it meets from its first. -/
theorem Head.after (turned : body start = .ok (some next)) (reached : Head body next state) :
    Head body start state := by
  induction reached with
  | enter => exact .again .enter turned
  | again _ turned ih => exact ih.again turned

/-- A loop whose passes decrease a measure ends at one of its heads, with the result of that
head or with the fault of its body. -/
theorem Looping.ends (looping : Looping body result loop) (measure : σ → Nat)
    (decreases : ∀ state next, body state = .ok (some next) → measure next < measure state)
    (start : σ) :
    ∃ last, Head body start last ∧
      (body last = .ok none ∧ loop start = .ok (result last) ∨
        ∃ fault, body last = .error fault ∧ loop start = .error fault) := by
  induction size : measure start using Nat.strong_induction_on generalizing start with
  | h bound ih =>
      have unrolled := looping start
      cases turned : body start with
      | error fault =>
          rw [turned] at unrolled
          exact ⟨start, .enter, .inr ⟨fault, turned, unrolled⟩⟩
      | ok onward =>
          rw [turned, ok_bind] at unrolled
          cases onward with
          | none => exact ⟨start, .enter, .inl ⟨turned, unrolled⟩⟩
          | some next =>
              obtain ⟨last, reached, ended⟩ :=
                ih (measure next) (size ▸ decreases start next turned) next rfl
              have same : loop start = loop next := unrolled
              exact ⟨last, reached.after turned, same ▸ ended⟩

/-- Such a loop gives a result exactly when its body has no fault at any head. -/
theorem Looping.isOk_iff (looping : Looping body result loop) (measure : σ → Nat)
    (decreases : ∀ state next, body state = .ok (some next) → measure next < measure state)
    (start : σ) :
    (∃ value, loop start = .ok value) ↔
      ∀ state, Head body start state → ∀ fault, body state ≠ .error fault := by
  constructor
  · rintro ⟨value, done⟩ state reached fault faulty
    rw [reached.loop_eq looping, looping, faulty] at done
    cases done
  · intro faultless
    obtain ⟨last, reached, ⟨-, done⟩ | ⟨fault, faulty, -⟩⟩ := looping.ends measure decreases start
    · exact ⟨_, done⟩
    · exact absurd faulty (faultless last reached fault)

end NetworkExercises.Lib
