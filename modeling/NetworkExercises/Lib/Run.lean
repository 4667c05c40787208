/-
Module: NetworkExercises.Lib.Run
Purpose: Runs of a partial step function over a list of events, and the rules
  that carry a fact about one step to whole runs.
Main exports: run, EachStep, run_total, run_append, run_iff_when, run_relates_when,
  run_preserves_when, eachStep_congr, eachStep_iff, EachStep.of_invariant, run_iff,
  run_preserves, EachStep.of_final, run_relates, run_restrict_when,
  run_restrict
-/
import Mathlib.Tactic

namespace NetworkExercises.Lib

variable {σ ε : Type} {step : σ → ε → Option σ} {start final : σ}

/-- Take one step for every event; a step that does not exist ends the run
without a state. -/
def run (step : σ → ε → Option σ) (start : σ) : List ε → Option σ
  | [] => some start
  | event :: events => step start event >>= fun next => run step next events

/-- Every step of the run is taken in a state and on an event that meet the
condition. -/
def EachStep (condition : σ → ε → Prop) (step : σ → ε → Option σ) (start : σ) :
    List ε → Prop
  | [] => True
  | event :: events =>
      condition start event ∧
        ∀ next, step start event = some next → EachStep condition step next events

/-- A condition that can be decided can be decided along a run. -/
instance EachStep.decidable {condition : σ → ε → Prop}
    [∀ state event, Decidable (condition state event)] :
    ∀ (start : σ) (events : List ε), Decidable (EachStep condition step start events)
  | _, [] => .isTrue trivial
  | start, event :: events =>
      have : ∀ next, Decidable (EachStep condition step next events) :=
        fun next => EachStep.decidable next events
      inferInstanceAs (Decidable (condition start event ∧
        ∀ next ∈ step start event, EachStep condition step next events))

@[simp] theorem run_nil : run step start [] = some start := rfl

theorem run_cons_eq_some {event : ε} {events : List ε} :
    run step start (event :: events) = some final ↔
      ∃ next, step start event = some next ∧ run step next events = some final :=
  Option.bind_eq_some_iff

/-- A step that always exists runs to the end. -/
theorem run_total (next : σ → ε → σ) (start : σ) (events : List ε) :
    run (fun state event => some (next state event)) start events =
      some (events.foldl next start) := by
  induction events generalizing start with
  | nil => rfl
  | cons event events ih => exact ih (next start event)

theorem run_append (front back : List ε) :
    run step start (front ++ back) =
      run step start front >>= fun middle => run step middle back := by
  induction front generalizing start with
  | nil => rfl
  | cons event front ih =>
      rw [List.cons_append, run, run]
      cases step start event with
      | none => rfl
      | some next => exact ih

theorem run_append_eq_some {front back : List ε} :
    run step start (front ++ back) = some final ↔
      ∃ middle, run step start front = some middle ∧
        run step middle back = some final := by
  induction front generalizing start with
  | nil => simp
  | cons event front ih =>
      simp only [List.cons_append, run_cons_eq_some, ih]
      constructor
      · rintro ⟨next, stepEq, middle, frontEq, backEq⟩
        exact ⟨middle, ⟨next, stepEq, frontEq⟩, backEq⟩
      · rintro ⟨middle, ⟨next, stepEq, frontEq⟩, backEq⟩
        exact ⟨next, stepEq, middle, frontEq, backEq⟩

/-- If, under an invariant, every good step leads to the property exactly from the states
that have it and meet the condition, then a run of good steps ends with the property
exactly when it starts with it and meets the condition at every step. -/
theorem run_iff_when (good condition : σ → ε → Prop) (Inv P : σ → Prop)
    (kept : ∀ state event next, Inv state → good state event →
      step state event = some next → Inv next ∧ (P next ↔ P state ∧ condition state event))
    {events : List ε} (initial : Inv start) (each : EachStep good step start events)
    (ran : run step start events = some final) :
    P final ↔ P start ∧ EachStep condition step start events := by
  induction events generalizing start with
  | nil =>
      rw [run_nil, Option.some.injEq] at ran
      simp [EachStep, ran]
  | cons event events ih =>
      obtain ⟨next, stepEq, rest⟩ := run_cons_eq_some.mp ran
      obtain ⟨now, later⟩ := each
      obtain ⟨invariant, stepIff⟩ := kept start event next initial now stepEq
      rw [ih invariant (later next stepEq) rest, stepIff, and_assoc, EachStep]
      simp [stepEq]

/-- A relation between the events so far and the state, kept by every step under a
condition, holds of every run whose steps all meet it and its whole list of events. -/
theorem run_relates_when (condition : σ → ε → Prop) (R : List ε → σ → Prop)
    (kept : ∀ past state event next, R past state → condition state event →
      step state event = some next → R (past ++ [event]) next)
    (past : List ε) {events : List ε} (initial : R past start)
    (each : EachStep condition step start events)
    (ran : run step start events = some final) : R (past ++ events) final := by
  induction events generalizing start past with
  | nil =>
      rw [run_nil, Option.some.injEq] at ran
      rwa [List.append_nil, ← ran]
  | cons event events ih =>
      obtain ⟨next, stepEq, rest⟩ := run_cons_eq_some.mp ran
      obtain ⟨now, later⟩ := each
      have related := ih _ (kept past start event next initial now stepEq) (later next stepEq) rest
      rwa [List.append_assoc, List.singleton_append] at related

/-- A property that every step under a condition keeps is kept by every run whose
steps all meet the condition. -/
theorem run_preserves_when (condition : σ → ε → Prop) (P : σ → Prop)
    (kept : ∀ state event next, P state → condition state event →
      step state event = some next → P next)
    {events : List ε} (initial : P start) (each : EachStep condition step start events)
    (ran : run step start events = some final) : P final :=
  run_relates_when condition (fun _ => P)
    (fun _ state event next before now stepEq => kept state event next before now stepEq)
    [] initial each ran

/-- The condition holds at every step that some beginning of the events leads to. -/
theorem EachStep.at {condition : σ → ε → Prop} {front back : List ε} {event : ε} {middle : σ}
    (each : EachStep condition step start (front ++ event :: back))
    (ran : run step start front = some middle) : condition middle event := by
  induction front generalizing start with
  | nil =>
      rw [run_nil, Option.some.injEq] at ran
      exact ran ▸ each.1
  | cons first front ih =>
      obtain ⟨next, stepEq, rest⟩ := run_cons_eq_some.mp ran
      exact ih (each.2 next stepEq) rest

/-- A run in two parts. -/
theorem EachStep.of_append {condition : σ → ε → Prop} {front back : List ε} {middle : σ}
    (each : EachStep condition step start (front ++ back))
    (ran : run step start front = some middle) :
    EachStep condition step start front ∧ EachStep condition step middle back := by
  induction front generalizing start with
  | nil =>
      rw [run_nil, Option.some.injEq] at ran
      exact ⟨trivial, ran ▸ each⟩
  | cons first front ih =>
      obtain ⟨next, stepEq, rest⟩ := run_cons_eq_some.mp ran
      obtain ⟨now, later⟩ := each
      refine ⟨⟨now, fun other otherEq => ?_⟩, (ih (later next stepEq) rest).2⟩
      rw [stepEq, Option.some.injEq] at otherEq
      exact otherEq ▸ (ih (later next stepEq) rest).1

theorem EachStep.append {condition : σ → ε → Prop} {front back : List ε}
    (each : EachStep condition step start front)
    (later : ∀ middle, run step start front = some middle → EachStep condition step middle back) :
    EachStep condition step start (front ++ back) := by
  induction front generalizing start with
  | nil => exact later start rfl
  | cons first front ih =>
      refine ⟨each.1, fun next stepEq => ih (each.2 next stepEq) fun middle ran => ?_⟩
      exact later middle (run_cons_eq_some.mpr ⟨next, stepEq, ran⟩)

theorem eachStep_congr {first second : σ → ε → Prop}
    (same : ∀ state event, first state event ↔ second state event) {events : List ε} :
    EachStep first step start events ↔ EachStep second step start events := by
  induction events generalizing start with
  | nil => exact Iff.rfl
  | cons event events ih => simp only [EachStep, same, ih]

/-- In a run of good events, two conditions hold at every step alike when each step finds
them alike under an invariant, which is kept where they hold. -/
theorem eachStep_iff {first second : σ → ε → Prop} (Inv : σ → Prop) (good : ε → Prop)
    (now : ∀ state event next, Inv state → good event → step state event = some next →
      (first state event ↔ second state event) ∧ (second state event → Inv next))
    {events : List ε} (initial : Inv start) (all : ∀ event ∈ events, good event)
    (ran : run step start events = some final) :
    EachStep first step start events ↔ EachStep second step start events := by
  induction events generalizing start with
  | nil => exact Iff.rfl
  | cons event events ih =>
      obtain ⟨next, stepEq, rest⟩ := run_cons_eq_some.mp ran
      obtain ⟨isGood, others⟩ := List.forall_mem_cons.mp all
      obtain ⟨alike, kept⟩ := now start event next initial isGood stepEq
      simp only [EachStep, stepEq, Option.some.injEq, forall_eq']
      rw [alike]
      exact and_congr_right fun holds => ih (kept holds) others rest

theorem EachStep.and_forall {condition : σ → ε → Prop} {good : ε → Prop} {events : List ε}
    (each : EachStep condition step start events) (all : ∀ event ∈ events, good event) :
    EachStep (fun state event => condition state event ∧ good event) step start events := by
  induction events generalizing start with
  | nil => trivial
  | cons event events ih =>
      obtain ⟨now, later⟩ := each
      obtain ⟨first, others⟩ := List.forall_mem_cons.mp all
      exact ⟨⟨now, first⟩, fun next stepEq => ih (later next stepEq) others⟩

theorem eachStep_of_forall {condition : σ → ε → Prop}
    (always : ∀ state event, condition state event) (events : List ε) :
    EachStep condition step start events := by
  induction events generalizing start with
  | nil => trivial
  | cons event events ih => exact ⟨always start event, fun _ _ => ih⟩

/-- In a run whose steps all meet a condition, what follows at one step from the condition
and an invariant that such steps keep holds at every step. -/
theorem EachStep.of_invariant {condition property : σ → ε → Prop} (Inv : σ → Prop)
    (now : ∀ state event, Inv state → condition state event → property state event)
    (kept : ∀ state event next, Inv state → condition state event →
      step state event = some next → Inv next)
    {events : List ε} (initial : Inv start) (each : EachStep condition step start events) :
    EachStep property step start events := by
  induction events generalizing start with
  | nil => trivial
  | cons event events ih =>
      obtain ⟨met, later⟩ := each
      refine ⟨now start event initial met, fun next stepEq => ?_⟩
      exact ih (kept start event next initial met stepEq) (later next stepEq)

/-- If, under an invariant, a step leads to the property exactly from the states
that have it and meet the condition, then a run ends with the property exactly
when it starts with it and meets the condition at every step. -/
theorem run_iff (condition : σ → ε → Prop) (Inv P : σ → Prop)
    (kept : ∀ state event next, Inv state → step state event = some next →
      Inv next ∧ (P next ↔ P state ∧ condition state event))
    {events : List ε} (initial : Inv start) (ran : run step start events = some final) :
    P final ↔ P start ∧ EachStep condition step start events :=
  run_iff_when (fun _ _ => True) condition Inv P
    (fun state event next invariant _ stepEq => kept state event next invariant stepEq) initial
    (eachStep_of_forall (fun _ _ => trivial) events) ran

/-- A property that every step keeps is kept by every run. -/
theorem run_preserves (P : σ → Prop)
    (kept : ∀ state event next, P state → step state event = some next → P next)
    {events : List ε} (initial : P start) (ran : run step start events = some final) :
    P final :=
  run_preserves_when (fun _ _ => True) P
    (fun state event next before _ stepEq => kept state event next before stepEq) initial
    (eachStep_of_forall (fun _ _ => trivial) events) ran

/-- What is never undone and does not hold in the end holds at no step. -/
theorem EachStep.of_final (Bad : σ → Prop)
    (kept : ∀ state event next, Bad state → step state event = some next → Bad next)
    {events : List ε} (ran : run step start events = some final) (good : ¬ Bad final) :
    EachStep (fun state event => ∀ next, step state event = some next → ¬ Bad next) step start
      events := by
  induction events generalizing start with
  | nil => trivial
  | cons event events ih =>
      obtain ⟨next, stepEq, rest⟩ := run_cons_eq_some.mp ran
      refine ⟨?_, ?_⟩
      · intro other otherEq bad
        rw [stepEq, Option.some.injEq] at otherEq
        subst otherEq
        exact good (run_preserves Bad kept bad rest)
      · intro other otherEq
        rw [stepEq, Option.some.injEq] at otherEq
        subst otherEq
        exact ih rest

/-- A relation between the events so far and the state, kept by every step, holds
of every run and its whole list of events. -/
theorem run_relates (R : List ε → σ → Prop)
    (kept : ∀ past state event next, R past state → step state event = some next →
      R (past ++ [event]) next)
    {past events : List ε} (initial : R past start)
    (ran : run step start events = some final) : R (past ++ events) final :=
  run_relates_when (fun _ _ => True) R
    (fun past state event next before _ stepEq => kept past state event next before stepEq)
    past initial (eachStep_of_forall (fun _ _ => trivial) events) ran

/-- Two runs from related states, the second on the kept events only: when under a condition a
dropped event moves the first state within the relation, and a kept event has a related step
in the second, the whole runs are related. -/
theorem run_restrict_when (keep : ε → Bool) (condition : σ → ε → Prop) (R : σ → σ → Prop)
    (dropped : ∀ state other event next, R state other → condition state event →
      keep event = false → step state event = some next → R next other)
    (kept : ∀ state other event next, R state other → condition state event →
      keep event = true → step state event = some next →
        ∃ otherNext, step other event = some otherNext ∧ R next otherNext)
    {other : σ} {events : List ε} (initial : R start other)
    (each : EachStep condition step start events)
    (ran : run step start events = some final) :
    ∃ otherFinal, run step other (events.filter keep) = some otherFinal ∧
      R final otherFinal := by
  induction events generalizing start other with
  | nil =>
      rw [run_nil, Option.some.injEq] at ran
      exact ⟨other, rfl, ran ▸ initial⟩
  | cons event events ih =>
      obtain ⟨next, stepEq, rest⟩ := run_cons_eq_some.mp ran
      obtain ⟨now, later⟩ := each
      cases keeps : keep event with
      | false =>
          rw [List.filter_cons_of_neg (by simp [keeps])]
          exact ih (dropped start other event next initial now keeps stepEq) (later next stepEq)
            rest
      | true =>
          obtain ⟨otherNext, otherStep, related⟩ :=
            kept start other event next initial now keeps stepEq
          obtain ⟨otherFinal, otherRest, finals⟩ := ih related (later next stepEq) rest
          rw [List.filter_cons_of_pos keeps]
          exact ⟨otherFinal, run_cons_eq_some.mpr ⟨otherNext, otherStep, otherRest⟩, finals⟩

/-- Two runs from related states, the second on the kept events only: when a dropped
event moves the first state within the relation, and a kept event has a related step
in the second, the whole runs are related. -/
theorem run_restrict (keep : ε → Bool) (R : σ → σ → Prop)
    (dropped : ∀ state other event next, R state other → keep event = false →
      step state event = some next → R next other)
    (kept : ∀ state other event next, R state other → keep event = true →
      step state event = some next → ∃ otherNext, step other event = some otherNext ∧
        R next otherNext)
    {other : σ} {events : List ε} (initial : R start other)
    (ran : run step start events = some final) :
    ∃ otherFinal, run step other (events.filter keep) = some otherFinal ∧
      R final otherFinal :=
  run_restrict_when keep (fun _ _ => True) R
    (fun state other event next related _ => dropped state other event next related)
    (fun state other event next related _ => kept state other event next related) initial
    (eachStep_of_forall (fun _ _ => trivial) events) ran

end NetworkExercises.Lib
