/-
Module: NetworkExercises.Lib.Refinement
Purpose: Machines whose steps give something out, and what a relation between the states of
  two of them says about what their runs give out.
Main exports: observe, next, observe_simulates, observe_simulates_when, observe_refines_iff,
  emissions, mem_emissions, run_simulates_each, run_simulates, run_emits_when
-/
import NetworkExercises.Lib.Run

namespace NetworkExercises.Lib

variable {σ τ ε ω : Type} {step : σ → ε → Option (ω × σ)} {spec : τ → ε → Option (ω × τ)}
  {start final : σ} {first : τ} {events : List ε} {outputs : List ω}

/-- Take one step for every event, and collect what they give out. -/
def observe (step : σ → ε → Option (ω × σ)) (start : σ) : List ε → Option (List ω × σ)
  | [] => some ([], start)
  | event :: events => do
      let (output, state) ← step start event
      let (outputs, final) ← observe step state events
      return (output :: outputs, final)

/-- The state that a step leads to. -/
def next (step : σ → ε → Option (ω × σ)) (state : σ) (event : ε) : Option σ :=
  (step state event).map Prod.snd

theorem observe_nil_eq_some : observe step start [] = some (outputs, final) ↔
    outputs = [] ∧ final = start := by
  rw [observe, Option.some.injEq, Prod.mk.injEq, eq_comm, @eq_comm _ start]

theorem observe_cons_eq_some {event : ε} :
    observe step start (event :: events) = some (outputs, final) ↔
      ∃ output state others, step start event = some (output, state) ∧
        observe step state events = some (others, final) ∧ outputs = output :: others := by
  rw [observe]
  simp only [Option.bind_eq_bind, Option.bind_eq_some_iff, Option.pure_def, Option.some.injEq,
    Prod.mk.injEq, Prod.exists]
  constructor
  · rintro ⟨output, state, stepEq, others, last, rest, rfl, rfl⟩
    exact ⟨output, state, others, stepEq, rest, rfl⟩
  · rintro ⟨output, state, others, stepEq, rest, rfl⟩
    exact ⟨output, state, stepEq, others, final, rest, rfl, rfl⟩

/-- When every step of the specification is one of the machine in related states, every run of the
specification is one of the machine. -/
theorem observe_simulates (R : σ → τ → Prop)
    (simulates : ∀ state abstract event output after, R state abstract →
      spec abstract event = some (output, after) →
        ∃ concrete, step state event = some (output, concrete) ∧ R concrete after)
    {last : τ} (initial : R start first)
    (specified : observe spec first events = some (outputs, last)) :
    ∃ final, observe step start events = some (outputs, final) ∧ R final last := by
  induction events generalizing start first outputs with
  | nil =>
      obtain ⟨rfl, rfl⟩ := observe_nil_eq_some.mp specified
      exact ⟨start, rfl, initial⟩
  | cons event events ih =>
      obtain ⟨output, after, others, stepEq, rest, rfl⟩ := observe_cons_eq_some.mp specified
      obtain ⟨concrete, concreteStep, related⟩ :=
        simulates start first event output after initial stepEq
      obtain ⟨final, concreteRest, finals⟩ := ih related rest
      exact ⟨final, observe_cons_eq_some.mpr ⟨_, _, _, concreteStep, concreteRest, rfl⟩, finals⟩

/-- When, from related states and under a condition, there is a step of the machine, and it is one
of the specification, then there is a whole run of both for events that meet the condition. -/
theorem observe_simulates_when (R : σ → τ → Prop) (condition : σ → ε → Prop)
    (simulates : ∀ state abstract event, R state abstract → condition state event →
      ∃ output concrete after, step state event = some (output, concrete) ∧
        spec abstract event = some (output, after) ∧ R concrete after)
    (initial : R start first) (each : EachStep condition (next step) start events) :
    ∃ outputs final last, observe step start events = some (outputs, final) ∧
      observe spec first events = some (outputs, last) ∧ R final last := by
  induction events generalizing start first with
  | nil => exact ⟨[], start, first, rfl, rfl, initial⟩
  | cons event events ih =>
      obtain ⟨now, later⟩ := each
      obtain ⟨output, concrete, after, stepEq, specEq, related⟩ :=
        simulates start first event initial now
      have on := later concrete (by rw [next, stepEq, Option.map_some])
      obtain ⟨outputs, final, last, ran, specRan, finals⟩ := ih related on
      exact ⟨output :: outputs, final, last,
        observe_cons_eq_some.mpr ⟨_, _, _, stepEq, ran, rfl⟩,
        observe_cons_eq_some.mpr ⟨_, _, _, specEq, specRan, rfl⟩, finals⟩

/-- When every step of the machine is one of the specification in related states, and gives out
the same exactly under a condition, every run of the machine is one of the specification, and gives
out the same exactly when every step meets the condition. -/
theorem observe_refines_iff (R : σ → τ → Prop) (condition : τ → ε → Prop)
    (refines : ∀ state abstract event output after, R state abstract →
      step state event = some (output, after) →
        ∃ specified later, spec abstract event = some (specified, later) ∧ R after later ∧
          (output = specified ↔ condition abstract event))
    (initial : R start first) (ran : observe step start events = some (outputs, final)) :
    ∃ specified last, observe spec first events = some (specified, last) ∧ R final last ∧
      (outputs = specified ↔ EachStep condition (next spec) first events) := by
  induction events generalizing start first outputs with
  | nil =>
      obtain ⟨rfl, rfl⟩ := observe_nil_eq_some.mp ran
      exact ⟨[], first, rfl, initial, iff_of_true rfl trivial⟩
  | cons event events ih =>
      obtain ⟨output, after, others, stepEq, rest, rfl⟩ := observe_cons_eq_some.mp ran
      obtain ⟨specified, later, specStep, related, same⟩ :=
        refines start first event output after initial stepEq
      obtain ⟨specifiedOthers, last, specRest, finals, sameOthers⟩ := ih related rest
      refine ⟨specified :: specifiedOthers, last,
        observe_cons_eq_some.mpr ⟨_, _, _, specStep, specRest, rfl⟩, finals, ?_⟩
      have nextEq : next spec first event = some later := by rw [next, specStep, Option.map_some]
      rw [List.cons.injEq, same, sameOthers, EachStep, nextEq]
      simp only [Option.some.injEq, forall_eq']

/-! ### Steps that stand for several -/

/-- What the steps of a run stand for, one after the other. -/
def emissions (step : σ → ε → Option σ) (emit : σ → ε → List ω) (state : σ) : List ε → List ω
  | [] => []
  | event :: events =>
      emit state event ++
        match step state event with
        | some next => emissions step emit next events
        | none => []

theorem emissions_append {step : σ → ε → Option σ} {emit : σ → ε → List ω} {front back : List ε}
    {middle : σ} (ran : run step start front = some middle) :
    emissions step emit start (front ++ back) =
      emissions step emit start front ++ emissions step emit middle back := by
  induction front generalizing start with
  | nil =>
      rw [run_nil, Option.some.injEq] at ran
      rw [List.nil_append, ran]
      rfl
  | cons event front ih =>
      obtain ⟨next, stepEq, rest⟩ := run_cons_eq_some.mp ran
      simp only [List.cons_append, emissions, stepEq, ih rest, List.append_assoc]

theorem emissions_concat {step : σ → ε → Option σ} {emit : σ → ε → List ω} {event : ε}
    {middle : σ} (ran : run step start events = some middle) :
    emissions step emit start (events ++ [event]) =
      emissions step emit start events ++ emit middle event := by
  rw [emissions_append ran]
  congr 1
  rw [emissions]
  cases step middle event with
  | none => exact List.append_nil _
  | some next => exact List.append_nil _

/-- What a run stands for was given out by one of its steps. -/
theorem mem_emissions {step : σ → ε → Option σ} {emit : σ → ε → List ω} {output : ω}
    (member : output ∈ emissions step emit start events) :
    ∃ front event back middle, events = front ++ event :: back ∧
      run step start front = some middle ∧ output ∈ emit middle event := by
  induction events generalizing start with
  | nil => cases member
  | cons event events ih =>
      rw [emissions, List.mem_append] at member
      rcases member with now | later
      · exact ⟨[], event, events, start, rfl, rfl, now⟩
      · cases stepEq : step start event with
        | none =>
            rw [stepEq] at later
            cases later
        | some next =>
            rw [stepEq] at later
            obtain ⟨front, last, back, middle, rfl, ran, given⟩ := ih later
            exact ⟨event :: front, last, back, middle, rfl,
              run_cons_eq_some.mpr ⟨next, stepEq, ran⟩, given⟩

/-- What a step stands for may depend on the event only. -/
theorem emissions_eq_flatMap {step : σ → ε → Option σ} (emit : ε → List ω)
    (ran : run step start events = some final) :
    emissions step (fun _ => emit) start events = events.flatMap emit := by
  induction events generalizing start with
  | nil => rfl
  | cons event events ih =>
      obtain ⟨next, stepEq, rest⟩ := run_cons_eq_some.mp ran
      simp only [emissions, stepEq, ih rest, List.flatMap_cons]

/-- When every step under a condition stands for a run of the specification from related states
to related states, whose steps are good, so does every run whose steps all meet it. -/
theorem run_simulates_each {step : σ → ε → Option σ} {spec : τ → ω → Option τ}
    (emit : σ → ε → List ω) (condition : σ → ε → Prop) (good : τ → ω → Prop) (R : σ → τ → Prop)
    (simulates : ∀ state abstract event next, R state abstract → condition state event →
      step state event = some next → EachStep good spec abstract (emit state event) ∧
        ∃ after, run spec abstract (emit state event) = some after ∧ R next after)
    (initial : R start first) (each : EachStep condition step start events)
    (ran : run step start events = some final) :
    EachStep good spec first (emissions step emit start events) ∧
      ∃ last, run spec first (emissions step emit start events) = some last ∧ R final last := by
  induction events generalizing start first with
  | nil =>
      rw [run_nil, Option.some.injEq] at ran
      exact ⟨trivial, first, rfl, ran ▸ initial⟩
  | cons event events ih =>
      obtain ⟨next, stepEq, rest⟩ := run_cons_eq_some.mp ran
      obtain ⟨now, later⟩ := each
      obtain ⟨goodNow, after, emitted, related⟩ :=
        simulates start first event next initial now stepEq
      obtain ⟨goodLater, last, others, finals⟩ := ih related (later next stepEq) rest
      simp only [emissions, stepEq]
      refine ⟨goodNow.append fun middle ranNow => ?_, last, ?_, finals⟩
      · rw [emitted, Option.some.injEq] at ranNow
        exact ranNow ▸ goodLater
      · exact run_append_eq_some.mpr ⟨after, emitted, others⟩

/-- The same without a condition on the steps of the specification. -/
theorem run_simulates_when {step : σ → ε → Option σ} {spec : τ → ω → Option τ}
    (emit : σ → ε → List ω) (condition : σ → ε → Prop) (R : σ → τ → Prop)
    (simulates : ∀ state abstract event next, R state abstract → condition state event →
      step state event = some next →
        ∃ after, run spec abstract (emit state event) = some after ∧ R next after)
    (initial : R start first) (each : EachStep condition step start events)
    (ran : run step start events = some final) :
    ∃ last, run spec first (emissions step emit start events) = some last ∧ R final last :=
  (run_simulates_each emit condition (fun _ _ => True) R
    (fun state abstract event next related now stepEq =>
      ⟨eachStep_of_forall (fun _ _ => trivial) _,
        simulates state abstract event next related now stepEq⟩)
    initial each ran).2

/-- So does every run when every step does. -/
theorem run_simulates {step : σ → ε → Option σ} {spec : τ → ω → Option τ}
    (emit : σ → ε → List ω) (R : σ → τ → Prop)
    (simulates : ∀ state abstract event next, R state abstract → step state event = some next →
      ∃ after, run spec abstract (emit state event) = some after ∧ R next after)
    (initial : R start first) (ran : run step start events = some final) :
    ∃ last, run spec first (emissions step emit start events) = some last ∧ R final last :=
  run_simulates_when emit (fun _ _ => True) R
    (fun state abstract event next related _ => simulates state abstract event next related)
    initial (eachStep_of_forall (fun _ _ => trivial) events) ran

/-- A relation between what the steps so far stand for and the state, kept by every step under a
condition, holds of every run whose steps all meet it. -/
theorem run_emits_when {step : σ → ε → Option σ} (emit : σ → ε → List ω)
    (condition : σ → ε → Prop) (R : List ω → σ → Prop)
    (kept : ∀ past state event next, R past state → condition state event →
      step state event = some next → R (past ++ emit state event) next)
    {past : List ω} (initial : R past start) (each : EachStep condition step start events)
    (ran : run step start events = some final) :
    R (past ++ emissions step emit start events) final := by
  induction events generalizing start past with
  | nil =>
      rw [run_nil, Option.some.injEq] at ran
      rwa [emissions, List.append_nil, ← ran]
  | cons event events ih =>
      obtain ⟨next, stepEq, rest⟩ := run_cons_eq_some.mp ran
      obtain ⟨now, later⟩ := each
      have related := ih (kept past start event next initial now stepEq) (later next stepEq) rest
      simp only [emissions, stepEq]
      rwa [List.append_assoc] at related

end NetworkExercises.Lib
