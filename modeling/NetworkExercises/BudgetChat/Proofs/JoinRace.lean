/-
Module: NetworkExercises.BudgetChat.Proofs.JoinRace
Purpose: Two clients that join at the same time are told of each other exactly when one of
  them has been added to the map before the other announces itself.
Main exports: joinStep_sequential, JoinRace.Fresh, JoinRace.Heard, JoinRace.Told, Unseen,
  JoinRace.Meets, told_iff_seen
-/
import NetworkExercises.BudgetChat.Proofs.Speaking
import NetworkExercises.BudgetChat.Zig.JoinRace

namespace NetworkExercises.BudgetChat.Zig

open Lib
open SpeedDaemon (SocketFd)

variable {room after : Room} {joiner moved : Joiner} {race next : JoinRace} {writes : Writes}
  {who : Bool}

/-! ### One step of a joining client -/

/-- A joining client does its next step, or fails. -/
inductive JoinSteps (room : Room) (joiner : Joiner) (after : Room) (moved : Joiner) : Prop where
  | failed (phase : moved.phase = .failed)
  | checked (phase : joiner.phase = .check) (afterEq : after = room)
      (movedEq : moved = { joiner with phase := .list })
  | listed (phase : joiner.phase = .list) (write : Write)
      (own : write.stream = joiner.client.stream)
      (afterEq : after = room.log joiner.client.stream [write])
      (movedEq : moved = { joiner with phase := .announce, listed := room.clients.keys })
  | announced (phase : joiner.phase = .announce)
      (afterEq : after = room.log joiner.client.stream
        (((room.clients.values.filter Client.joined).map Client.stream).map fun stream =>
          ⟨stream, enteredText joiner.client.name, .all⟩))
      (movedEq : moved = { joiner with phase := .add })
  | added (phase : joiner.phase = .add) (absent : joiner.client.name ∉ room.clients.keys)
      (clients : after.clients = room.clients.put joiner.client.name joiner.client)
      (history : after.history = room.history)
      (movedEq : moved = { joiner with phase := .finished })

theorem joinStep_cases (ran : joinStep room joiner writes = some (after, moved)) :
    JoinSteps room joiner after moved := by
  unfold joinStep at ran
  cases phase : joiner.phase with
  | check =>
      rw [phase] at ran
      dsimp only at ran
      split at ran
      · cases ran
        exact .failed rfl
      · cases ran
        exact .checked phase rfl rfl
  | list =>
      rw [phase] at ran
      dsimp only at ran
      split at ran
      · cases ran
      · next listing _ =>
        obtain ⟨told, wrote⟩ := writeAll_one writes listing.items joiner.client.stream
        simp only [tell, wrote] at ran
        split at ran
        · cases ran
          exact .failed rfl
        · cases ran
          exact .listed phase _ rfl rfl rfl
  | announce =>
      rw [phase] at ran
      dsimp only at ran
      split at ran
      · cases ran
        exact .failed rfl
      · next formatted =>
        rw [Bool.not_eq_true, Bool.not_eq_false'] at formatted
        split at ran
        · cases ran
          exact .failed rfl
        · next sent =>
          cases ran
          rw [Bool.not_eq_true, Bool.not_eq_false'] at sent
          have text : (format .clear (enteredPieces joiner.client.name)).1.items =
              enteredText joiner.client.name := format_items formatted
          rw [Clients.sendMessage] at sent ⊢
          refine .announced phase ?_ rfl
          rw [writeAll_true sent, text]
  | add =>
      rw [phase] at ran
      dsimp only at ran
      split at ran
      · cases ran
        exact .failed rfl
      · next clients adds =>
        cases ran
        rw [Clients.add] at adds
        split at adds
        · cases adds
        · next absent =>
          cases adds
          exact .added phase (mt ArrayMap.contains_iff.mpr absent) rfl rfl rfl
  | finished | failed =>
      rw [phase] at ran
      cases ran

/-- The client of a joiner stays the same. -/
theorem JoinSteps.client (steps : JoinSteps room joiner after moved)
    (notFailed : moved.phase ≠ .failed) : moved.client = joiner.client := by
  cases steps with
  | failed phase => exact absurd phase notFailed
  | checked _ _ movedEq | listed _ _ _ _ movedEq | announced _ _ movedEq
  | added _ _ _ _ movedEq => rw [movedEq]

/-- The steps of one client alone do what its handler does in one turn. -/
theorem joinStep_sequential {handler : Handler} {client : Client} {msg : Bytes}
    (validated : handler.client.validateUsername msg = some (true, client)) :
    ∃ steps ≤ 4,
      (run (fun (now : Room × Joiner) writes => joinStep now.1 now.2 writes)
          (room, ⟨handler, client, .check, []⟩) (List.replicate steps writes)).map Prod.fst =
        joinRoom room client.stream handler msg writes := by
  rw [joinRoom, validated]
  dsimp only
  by_cases present : room.clients.exists_ client
  · refine ⟨1, by decide, ?_⟩
    simp [run, joinStep, present, Joiner.fail]
  · cases listed : roomListing room.clients.getUsernames with
    | none =>
        refine ⟨2, by decide, ?_⟩
        simp [run, joinStep, present, listed]
    | some listing =>
        obtain ⟨told, wrote⟩ := writeAll_one writes listing.items client.stream
        cases told with
        | false =>
            refine ⟨2, by decide, ?_⟩
            simp [run, joinStep, present, listed, tell, wrote, Joiner.fail]
        | true =>
            by_cases formatted : (format .clear (enteredPieces client.name)).2 = true
            · by_cases sent : (room.clients.sendMessage writes
                  (format .clear (enteredPieces client.name)).1.items).2 = true
              · refine ⟨4, by decide, ?_⟩
                cases adds : room.clients.add client with
                | none =>
                    simp [run, joinStep, present, listed, tell, wrote, formatted, sent, adds,
                      Joiner.fail]
                | some clients =>
                    simp [run, joinStep, present, listed, tell, wrote, formatted, sent, adds]
              · refine ⟨3, by decide, ?_⟩
                simp [run, joinStep, present, listed, tell, wrote, formatted, sent, Joiner.fail]
            · refine ⟨3, by decide, ?_⟩
              simp [run, joinStep, present, listed, tell, wrote, formatted, Joiner.fail]

/-! ### Being told -/

/-- The one has been sent the line that the other has entered. -/
def JoinRace.Heard (race : JoinRace) (who : Bool) : Prop :=
  (race.stream (!who), ⟨race.stream who, enteredText (race.name (!who)), .all⟩) ∈
    race.room.history

/-- The one knows of the other, by its listing or by the line. -/
def JoinRace.Told (race : JoinRace) (who : Bool) : Prop :=
  race.name (!who) ∈ (race.joiners who).listed ∨ race.Heard who

/-- Nobody announces itself when the other has been added to the map. -/
def Unseen (race : JoinRace) : RaceAction → Prop
  | .join who _ => race.phase who = .announce → race.phase (!who) ≠ .finished
  | .others _ => True

/-- Two clients with different names and streams that begin to join. -/
structure JoinRace.Fresh (race : JoinRace) : Prop where
  names : ∀ who, race.name (!who) ≠ race.name who
  streams : ∀ who, race.stream (!who) ≠ race.stream who
  joined : ∀ who, (race.joiners who).client.joined = true
  phase : ∀ who, race.phase who = .check
  unlisted : ∀ who, (race.joiners who).listed = []
  absent : ∀ who, ∀ entry ∈ race.room.clients.entries,
    entry.1 ≠ race.name who ∧ entry.2.stream ≠ race.stream who
  silent : ∀ who, ¬ race.Heard who

/-- What holds while they join. -/
structure JoinRace.Meets (race : JoinRace) : Prop where
  names : ∀ who, race.name (!who) ≠ race.name who
  streams : ∀ who, race.stream (!who) ≠ race.stream who
  joined : ∀ who, (race.joiners who).client.joined = true
  present : ∀ who, race.phase who = .finished →
    (race.name who, (race.joiners who).client) ∈ race.room.clients.entries
  absent : ∀ who, race.phase who ≠ .finished → ∀ entry ∈ race.room.clients.entries,
    entry.1 ≠ race.name who ∧ entry.2.stream ≠ race.stream who
  listed : ∀ who, race.name (!who) ∈ (race.joiners who).listed →
    (race.phase who = .announce ∧ race.phase (!who) = .finished) ∨ race.Heard (!who)

theorem JoinRace.Fresh.meets (fresh : race.Fresh) : race.Meets where
  names := fresh.names
  streams := fresh.streams
  joined := fresh.joined
  present who finished := by
    rw [fresh.phase who] at finished
    cases finished
  absent who _ := fresh.absent who
  listed who member := by
    rw [fresh.unlisted who] at member
    cases member

/-- Who is listed has been added. -/
theorem JoinRace.Meets.finished_of_key (meets : race.Meets) {who : Bool}
    (member : race.name who ∈ race.room.clients.keys) : race.phase who = .finished := by
  by_contra unfinished
  obtain ⟨entry, inside, same⟩ := List.mem_map.mp member
  exact (meets.absent who unfinished entry inside).1 same

/-- The message of a joiner reaches the other exactly when that one has been added. -/
theorem JoinRace.Meets.mem_streams (meets : race.Meets) (who : Bool) :
    race.stream who ∈
        (race.room.clients.values.filter Client.joined).map Client.stream ↔
      race.phase who = .finished := by
  constructor
  · intro member
    by_contra unfinished
    obtain ⟨client, isMember, same⟩ := List.mem_map.mp member
    obtain ⟨entry, inside, rfl⟩ := List.mem_map.mp (List.mem_filter.mp isMember).1
    exact (meets.absent who unfinished entry inside).2 same
  · intro finished
    refine List.mem_map.mpr ⟨(race.joiners who).client, List.mem_filter.mpr ⟨?_, ?_⟩, rfl⟩
    · exact List.mem_map.mpr ⟨_, meets.present who finished, rfl⟩
    · exact meets.joined who

/-! ### One step of the two -/

/-- A joiner that goes on with its client. -/
structure Moved (race next : JoinRace) (who : Bool) (moved : Joiner) : Prop where
  self : next.joiners who = moved
  other : next.joiners (!who) = race.joiners (!who)
  client : moved.client = (race.joiners who).client

namespace Moved

variable {moved : Joiner}

theorem sameClient (moves : Moved race next who moved) (w : Bool) :
    (next.joiners w).client = (race.joiners w).client := by
  rcases Bool.eq_or_eq_not w who with rfl | rfl
  · rw [moves.self, moves.client]
  · rw [moves.other]

theorem name (moves : Moved race next who moved) (w : Bool) : next.name w = race.name w := by
  rw [JoinRace.name, moves.sameClient w, JoinRace.name]

theorem stream (moves : Moved race next who moved) (w : Bool) :
    next.stream w = race.stream w := by
  rw [JoinRace.stream, moves.sameClient w, JoinRace.stream]

/-- What the joiner writes to others than the two is not heard. -/
theorem heard_iff (moves : Moved race next who moved) {made : List (SocketFd × Write)}
    (history : next.room.history = race.room.history ++ made) (w : Bool) :
    next.Heard w ↔ race.Heard w ∨
      (race.stream (!w), ⟨race.stream w, enteredText (race.name (!w)), .all⟩) ∈ made := by
  unfold JoinRace.Heard
  rw [moves.stream, moves.stream, moves.name, history, List.mem_append]

theorem phase_self (moves : Moved race next who moved) : next.phase who = moved.phase := by
  rw [JoinRace.phase, moves.self]

theorem phase_other (moves : Moved race next who moved) :
    next.phase (!who) = race.phase (!who) := by
  rw [JoinRace.phase, moves.other, JoinRace.phase]

/-- The one that has not moved stays where it was, and so does what it was told. -/
theorem meets (moves : Moved race next who moved) (before : race.Meets)
    (notFinished : race.phase who ≠ .finished) (mono : ∀ w, race.Heard w → next.Heard w)
    (present : moved.phase = .finished →
      (race.name who, (race.joiners who).client) ∈ next.room.clients.entries)
    (kept : ∀ entry ∈ race.room.clients.entries, entry ∈ next.room.clients.entries)
    (new : ∀ entry ∈ next.room.clients.entries, entry ∉ race.room.clients.entries →
      moved.phase = .finished ∧ entry = (race.name who, (race.joiners who).client))
    (listed : race.name (!who) ∈ moved.listed →
      (moved.phase = .announce ∧ race.phase (!who) = .finished) ∨ next.Heard (!who)) :
    next.Meets where
  names w := by
    rw [moves.name, moves.name]
    exact before.names w
  streams w := by
    rw [moves.stream, moves.stream]
    exact before.streams w
  joined w := by
    rw [moves.sameClient]
    exact before.joined w
  present w := by
    rw [moves.name, moves.sameClient]
    rcases Bool.eq_or_eq_not w who with rfl | rfl
    · rw [moves.phase_self]
      exact present
    · rw [moves.phase_other]
      exact fun finished => kept _ (before.present _ finished)
  absent w := by
    rw [moves.name, moves.stream]
    intro unfinished entry inside
    by_cases old : entry ∈ race.room.clients.entries
    · apply before.absent w ?_ entry old
      rcases Bool.eq_or_eq_not w who with rfl | rfl
      · exact notFinished
      · rwa [← moves.phase_other]
    · obtain ⟨finished, rfl⟩ := new entry inside old
      rcases Bool.eq_or_eq_not w who with rfl | rfl
      · exact absurd (moves.phase_self.trans finished) unfinished
      · exact ⟨(before.names who).symm, (before.streams who).symm⟩
  listed w := by
    rw [moves.name]
    rcases Bool.eq_or_eq_not w who with rfl | rfl
    · rw [moves.self, moves.phase_self, moves.phase_other]
      exact listed
    · rw [moves.other, Bool.not_not]
      intro member
      have told := before.listed (!who)
      rw [Bool.not_not] at told
      rcases told member with ⟨-, finished⟩ | heard
      · exact absurd finished notFinished
      · exact .inr (mono who heard)

/-- A step that leaves the map as it is, and after which the client has not finished. -/
theorem meets_same (moves : Moved race next who moved) (before : race.Meets)
    (notFinished : race.phase who ≠ .finished) (mono : ∀ w, race.Heard w → next.Heard w)
    (clients : next.room.clients = race.room.clients) (goesOn : moved.phase ≠ .finished)
    (listed : race.name (!who) ∈ moved.listed →
      (moved.phase = .announce ∧ race.phase (!who) = .finished) ∨ next.Heard (!who)) :
    next.Meets := by
  apply moves.meets before notFinished mono
  · exact fun finished => absurd finished goesOn
  · rw [clients]
    exact fun _ => id
  · rw [clients]
    exact fun entry inside absent => absurd inside absent
  · exact listed

end Moved

/-- Without a new line, nobody hears more. -/
theorem Moved.silent {moved : Joiner} (moves : Moved race next who moved)
    (history : next.room.history = race.room.history) (w : Bool) :
    next.Heard w ↔ race.Heard w := by
  rw [moves.heard_iff (history.trans (List.append_nil _).symm)]
  simp

/-- A step of one of the two that does not fail. -/
theorem join_step (meets : race.Meets) (ran : raceStep race (.join who writes) = some next)
    (good : ∀ w, next.phase w ≠ .failed) :
    next.Meets ∧
      ((∀ w, ¬ next.Heard w) ↔ (∀ w, ¬ race.Heard w) ∧ Unseen race (.join who writes)) := by
  rw [raceStep, Option.map_eq_some_iff] at ran
  obtain ⟨⟨after, moved⟩, stepped, rfl⟩ := ran
  have steps := joinStep_cases stepped
  dsimp only at good ⊢
  have self : Function.update race.joiners who moved who = moved := Function.update_self _ _ _
  have other : Function.update race.joiners who moved (!who) = race.joiners (!who) :=
    Function.update_of_ne (by simp) _ _
  have notFailed : moved.phase ≠ .failed :=
    fun failed => good who ((congrArg Joiner.phase self).trans failed)
  have moves : Moved race ⟨after, Function.update race.joiners who moved⟩ who moved :=
    ⟨self, other, steps.client notFailed⟩
  have roomEq : (⟨after, Function.update race.joiners who moved⟩ : JoinRace).room = after := rfl
  generalize (⟨after, Function.update race.joiners who moved⟩ : JoinRace) = next
    at moves roomEq ⊢
  subst roomEq
  cases steps with
  | failed phase => exact absurd phase notFailed
  | checked phase afterEq movedEq =>
      have silent := moves.silent (congrArg Room.history afterEq)
      have clients : next.room.clients = race.room.clients := congrArg Room.clients afterEq
      have notAnnounce : race.phase who ≠ .announce := phase.trans_ne (by decide)
      refine ⟨?_, ?_⟩
      · apply moves.meets_same meets (phase.trans_ne (by decide)) (fun w => (silent w).mpr) clients
        · rw [movedEq]
          intro finished
          cases finished
        · rw [movedEq]
          intro member
          rcases meets.listed who member with ⟨announces, -⟩ | heard
          · exact absurd announces notAnnounce
          · exact .inr ((silent _).mpr heard)
      · simp only [silent, Unseen, notAnnounce, false_implies, and_true]
  | listed phase write own afterEq movedEq =>
      have history : next.room.history =
          race.room.history ++ [(race.stream who, write)] := congrArg Room.history afterEq
      have clients : next.room.clients = race.room.clients := by rw [afterEq, log_clients]
      have silent : ∀ w, next.Heard w ↔ race.Heard w := by
        intro w
        rw [moves.heard_iff history, or_iff_left]
        intro same
        obtain ⟨sender, written⟩ := Prod.mk.inj (List.mem_singleton.mp same)
        have stream : race.stream w = race.stream who := (congrArg Write.stream written).trans own
        exact meets.streams w (sender.trans stream.symm)
      have notAnnounce : race.phase who ≠ .announce := phase.trans_ne (by decide)
      refine ⟨?_, ?_⟩
      · apply moves.meets_same meets (phase.trans_ne (by decide)) (fun w => (silent w).mpr) clients
        · rw [movedEq]
          intro finished
          cases finished
        · rw [movedEq]
          exact fun member => .inl ⟨rfl, meets.finished_of_key member⟩
      · simp only [silent, Unseen, notAnnounce, false_implies, and_true]
  | announced phase afterEq movedEq =>
      have clients : next.room.clients = race.room.clients := by rw [afterEq, log_clients]
      have heard : ∀ w, next.Heard w ↔
          race.Heard w ∨ (w = !who) ∧ race.phase (!who) = .finished := by
        intro w
        rw [moves.heard_iff (congrArg Room.history afterEq), ← meets.mem_streams]
        apply or_congr_right
        simp only [List.map_map, List.mem_map, Function.comp_apply, Prod.mk.injEq, Write.mk.injEq]
        constructor
        · rintro ⟨client, member, sender, stream, -⟩
          have wEq : w = !who := by
            rcases Bool.eq_or_eq_not w who with rfl | same
            · exact absurd sender.symm (meets.streams w)
            · exact same
          subst wEq
          exact ⟨rfl, client, member, stream⟩
        · rintro ⟨rfl, client, member, stream⟩
          rw [Bool.not_not]
          exact ⟨client, member, rfl, stream, rfl, trivial⟩
      refine ⟨?_, ?_⟩
      · apply moves.meets_same meets (phase.trans_ne (by decide))
          (fun w before => (heard w).mpr (.inl before)) clients
        · rw [movedEq]
          intro finished
          cases finished
        · rw [movedEq]
          intro member
          right
          rw [heard]
          rcases meets.listed who member with ⟨-, finished⟩ | before
          · exact .inr ⟨rfl, finished⟩
          · exact .inl before
      · simp only [heard, Unseen, not_or, not_and]
        constructor
        · intro silent
          exact ⟨fun w => (silent w).1, fun _ => (silent (!who)).2 rfl⟩
        · rintro ⟨silent, unseen⟩ w
          exact ⟨silent w, fun _ => unseen phase⟩
  | added phase absent clients history movedEq =>
      have silent := moves.silent history
      have notAnnounce : race.phase who ≠ .announce := phase.trans_ne (by decide)
      have member : ∀ entry, entry ∈ next.room.clients.entries ↔
          entry = (race.name who, (race.joiners who).client) ∨
            entry ∈ race.room.clients.entries := by
        rintro ⟨name, client⟩
        rw [clients]
        exact ArrayMap.mem_put_new absent
      refine ⟨?_, ?_⟩
      · apply moves.meets meets (phase.trans_ne (by decide)) (fun w => (silent w).mpr)
        · exact fun _ => (member _).mpr (.inl rfl)
        · exact fun entry inside => (member entry).mpr (.inr inside)
        · intro entry inside new
          rw [movedEq]
          exact ⟨rfl, ((member entry).mp inside).resolve_right new⟩
        · rw [movedEq]
          intro listed
          rcases meets.listed who listed with ⟨announces, -⟩ | heard
          · exact absurd announces notAnnounce
          · exact .inr ((silent _).mpr heard)
      · simp only [silent, Unseen, notAnnounce, false_implies, and_true]

/-- What other clients do. -/
theorem others_step (meets : race.Meets) {clients : Clients}
    (ran : raceStep race (.others clients) = some next) :
    next.Meets ∧ ∀ w, next.Heard w ↔ race.Heard w := by
  rw [raceStep] at ran
  split at ran
  · next own =>
    cases ran
    obtain ⟨noNew, kept⟩ := own
    refine ⟨⟨meets.names, meets.streams, meets.joined, ?_, ?_, meets.listed⟩, fun w => Iff.rfl⟩
    · intro w finished
      exact kept w _ (meets.present w finished) (.inl rfl)
    · intro w unfinished entry inside
      rw [← not_or]
      intro same
      have absent := meets.absent w unfinished entry (noNew w entry inside same)
      exact same.elim absent.1 absent.2
  · cases ran

/-! ### Every run -/

/-- A handler that has given up does not go on. -/
theorem failed_step {action : RaceAction} (failed : ∃ w, race.phase w = .failed)
    (ran : raceStep race action = some next) : ∃ w, next.phase w = .failed := by
  obtain ⟨w, failed⟩ := failed
  cases action with
  | others clients =>
      rw [raceStep] at ran
      split at ran
      · cases ran
        exact ⟨w, failed⟩
      · cases ran
  | join who writes =>
      rw [raceStep, Option.map_eq_some_iff] at ran
      obtain ⟨⟨after, moved⟩, stepped, rfl⟩ := ran
      refine ⟨w, ?_⟩
      have ne : w ≠ who := by
        rintro rfl
        rw [joinStep] at stepped
        rw [JoinRace.phase] at failed
        rw [failed] at stepped
        cases stepped
      exact (congrArg Joiner.phase (Function.update_of_ne ne _ _)).trans failed

/-- In every interleaving at whose end both have joined, one of them knows of the other if
and only if at some step one announced itself when the other had been added to the map. -/
theorem told_iff_seen {start final : JoinRace} {actions : List RaceAction}
    (fresh : start.Fresh) (ran : run raceStep start actions = some final)
    (done : ∀ who, final.phase who = .finished) :
    (∃ who, final.Told who) ↔ ¬ EachStep Unseen raceStep start actions := by
  have notFailed : ¬ ∃ who, final.phase who = .failed := by
    rintro ⟨who, failed⟩
    rw [done who] at failed
    cases failed
  have good := EachStep.of_final (fun race : JoinRace => ∃ who, race.phase who = .failed)
    (fun _ _ _ failed stepEq => failed_step failed stepEq) ran notFailed
  have kept : ∀ race action next, race.Meets →
      (∀ after, raceStep race action = some after → ¬ ∃ who, after.phase who = .failed) →
      raceStep race action = some next →
      next.Meets ∧
        ((∀ who, ¬ next.Heard who) ↔ (∀ who, ¬ race.Heard who) ∧ Unseen race action) := by
    intro race action next meets noFailure stepEq
    cases action with
    | join who writes =>
        exact join_step meets stepEq fun w failed => noFailure next stepEq ⟨w, failed⟩
    | others clients =>
        obtain ⟨after, same⟩ := others_step meets stepEq
        exact ⟨after, by simp only [same, Unseen, and_true]⟩
  have meets : final.Meets := run_preserves_when _ JoinRace.Meets
    (fun race action next before noFailure stepEq =>
      (kept race action next before noFailure stepEq).1) fresh.meets good ran
  have silent : (∀ who, ¬ final.Heard who) ↔
      (∀ who, ¬ start.Heard who) ∧ EachStep Unseen raceStep start actions :=
    run_iff_when _ Unseen JoinRace.Meets (fun race => ∀ who, ¬ race.Heard who) kept fresh.meets
      good ran
  rw [and_iff_right fresh.silent] at silent
  rw [← silent, not_forall_not]
  constructor
  · rintro ⟨who, listed | heard⟩
    · rcases meets.listed who listed with ⟨announces, -⟩ | heard
      · rw [done who] at announces
        cases announces
      · exact ⟨_, heard⟩
    · exact ⟨who, heard⟩
  · rintro ⟨who, heard⟩
    exact ⟨who, .inr heard⟩

/-- Two clients with names of one letter that have just been validated. -/
def twoNames : JoinRace where
  room := .init
  joiners who :=
    ⟨⟨.init (if who then 5 else 6), [], []⟩,
      ⟨if who then 5 else 6, true, ⟨[if who then 97 else 98], Nat.one_le_ofNat⟩⟩, .check, []⟩

theorem twoNames_fresh : twoNames.Fresh where
  names := by decide
  streams := by decide
  joined := by decide
  phase := by decide
  unlisted := by decide
  absent := by
    intro who entry inside
    cases inside
  silent := by
    intro who inside
    cases inside

/-- The steps of one client alone. -/
def joins (who : Bool) : List RaceAction := List.replicate 4 (.join who allWritten)

instance (race : JoinRace) (action : RaceAction) : Decidable (Unseen race action) :=
  match action with
  | .join who _ =>
      inferInstanceAs (Decidable (race.phase who = .announce → race.phase (!who) ≠ .finished))
  | .others _ => .isTrue trivial

/-- One after the other. -/
theorem told_iff_seen_sequential :
    ∃ final, run raceStep twoNames (joins true ++ joins false) = some final ∧
      ∃ who, final.Told who := by
  have phases : (run raceStep twoNames (joins true ++ joins false)).map
      (fun final => (final.phase true, final.phase false)) = some (.finished, .finished) := by
    decide +kernel
  obtain ⟨final, ran, finalEq⟩ := Option.map_eq_some_iff.mp phases
  obtain ⟨one, other⟩ := Prod.mk.inj finalEq
  refine ⟨final, ran, (told_iff_seen twoNames_fresh ran ?_).mpr (by decide +kernel)⟩
  exact Bool.forall_bool.mpr ⟨other, one⟩

instance (race : JoinRace) (who : Bool) : Decidable (race.Told who) :=
  inferInstanceAs (Decidable (race.name (!who) ∈ (race.joiners who).listed ∨
    (race.stream (!who), ⟨race.stream who, enteredText (race.name (!who)), .all⟩) ∈
      race.room.history))

/-- Both check, list, announce and add in turn. -/
def inTurn : List RaceAction :=
  [.join true allWritten, .join false allWritten, .join true allWritten, .join false allWritten,
    .join true allWritten, .join false allWritten, .join true allWritten, .join false allWritten]

/-- Both have joined, and neither knows of the other. -/
theorem neither_told :
    ∃ final, run raceStep twoNames inTurn = some final ∧
      (∀ who, final.phase who = .finished) ∧ ∀ who, ¬ final.Told who := by
  have ended : (run raceStep twoNames inTurn).map (fun final =>
      decide ((∀ who, final.phase who = .finished) ∧ ∀ who, ¬ final.Told who)) = some true := by
    decide +kernel
  obtain ⟨final, ran, ends⟩ := Option.map_eq_some_iff.mp ended
  exact ⟨final, ran, of_decide_eq_true ends⟩

end NetworkExercises.BudgetChat.Zig
