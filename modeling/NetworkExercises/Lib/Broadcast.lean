/-
Module: NetworkExercises.Lib.Broadcast
Purpose: A room in which each member hears what the others say: who is present at every act of
  a run hears all of it but his own words, and any two such hear the same of the others.
Main exports: Act, Room, step, Present, run_inbox, run_agrees
-/
import NetworkExercises.Lib.Run
import Mathlib.Data.Finset.Insert
import Mathlib.Tactic

namespace NetworkExercises.Lib.Broadcast

variable {P M : Type}

/-- What happens in the room, and what is to be heard of it. -/
inductive Act (P M : Type) where
  | enter (who : P) (text : M)
  | say (who : P) (text : M)
  | leave (who : P) (text : M)

def Act.who : Act P M → P
  | .enter who _ | .say who _ | .leave who _ => who

def Act.text : Act P M → M
  | .enter _ text | .say _ text | .leave _ text => text

/-- The members, and what each participant has heard, with the one who said it. -/
structure Room (P M : Type) where
  members : Finset P
  inbox : P → List (P × M)

def Room.empty : Room P M := ⟨∅, fun _ => []⟩

variable [DecidableEq P]

/-- What a listener hears of an act. -/
def heardOf (members : Finset P) (act : Act P M) (listener : P) : List (P × M) :=
  if listener ∈ members ∧ listener ≠ act.who then [(act.who, act.text)] else []

/-- One enters who is outside, and speaks and leaves who is inside. -/
def step (room : Room P M) (act : Act P M) : Option (Room P M) :=
  let inbox listener := room.inbox listener ++ heardOf room.members act listener
  match act with
  | .enter who _ => if who ∈ room.members then none else some ⟨insert who room.members, inbox⟩
  | .say who _ => if who ∈ room.members then some ⟨room.members, inbox⟩ else none
  | .leave who _ => if who ∈ room.members then some ⟨room.members.erase who, inbox⟩ else none

/-- What the others say in a run. -/
def others (listener : P) (acts : List (Act P M)) : List (P × M) :=
  (acts.filter fun act => act.who ≠ listener).map fun act => (act.who, act.text)

variable {room next final : Room P M} {act : Act P M} {acts : List (Act P M)} {one two : P}

theorem step_inbox (done : step room act = some next) (listener : P) :
    next.inbox listener = room.inbox listener ++ heardOf room.members act listener := by
  cases act with
  | enter who text =>
      rw [step, Option.ite_none_left_eq_some] at done
      rw [← Option.some.inj done.2]
  | say who text | leave who text =>
      rw [step, Option.ite_none_right_eq_some] at done
      rw [← Option.some.inj done.2]

/-- A listener is a member. -/
def Present (listener : P) (room : Room P M) (_ : Act P M) : Prop := listener ∈ room.members

/-- Who is present at every act of a run hears all that the others say, in order and once. -/
theorem run_inbox (present : EachStep (Present one) step room acts)
    (ran : run step room acts = some final) :
    final.inbox one = room.inbox one ++ others one acts := by
  induction acts generalizing room with
  | nil =>
      cases ran
      exact (List.append_nil _).symm
  | cons act acts ih =>
      obtain ⟨next, done, rest⟩ := run_cons_eq_some.mp ran
      obtain ⟨now, later⟩ := present
      have member : one ∈ room.members := now
      rw [ih (later next done) rest, step_inbox done, List.append_assoc]
      congr 1
      by_cases own : act.who = one
      · simp [others, heardOf, own]
      · simp [others, heardOf, own, member, Ne.symm own]

/-- What one of them hears of the others than the two. -/
def ofOthers (one two : P) (inbox : List (P × M)) : List (P × M) :=
  inbox.filter fun entry => entry.1 ≠ one ∧ entry.1 ≠ two

/-- What two of them hear differs in their own words only. -/
theorem ofOthers_others (one two : P) (acts : List (Act P M)) :
    ofOthers one two (others one acts) = ofOthers one two (others two acts) := by
  simp only [ofOthers, others, List.filter_map, List.filter_filter]
  congr 1
  apply List.filter_congr
  intro act _
  by_cases first : act.who = one <;> by_cases second : act.who = two <;> simp [first, second]

/-- Two that are present at every act hear the same of the others. -/
theorem run_agrees (present : EachStep (Present one) step room acts)
    (present' : EachStep (Present two) step room acts) (ran : run step room acts = some final) :
    ∃ heard heard', final.inbox one = room.inbox one ++ heard ∧
      final.inbox two = room.inbox two ++ heard' ∧
      ofOthers one two heard = ofOthers one two heard' :=
  ⟨_, _, run_inbox present ran, run_inbox present' ran, ofOthers_others one two acts⟩

end NetworkExercises.Lib.Broadcast
