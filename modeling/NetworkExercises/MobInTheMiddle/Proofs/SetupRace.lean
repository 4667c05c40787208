/-
Module: NetworkExercises.MobInTheMiddle.Proofs.SetupRace
Purpose: No bytes are left unread on a pair whose set-up has finished, unless an event is
  looked up before the pair is in the map, or the pair is closed while bytes wait.
Main exports: setupStep_sequential, SetupRace.Quiet, FindsPair, ClosesRead, SetupRace.Watched,
  nothing_unread
-/
import NetworkExercises.Lib.Run
import NetworkExercises.MobInTheMiddle.SetupRace
import NetworkExercises.SpeedDaemon.Proofs.Stream

namespace NetworkExercises.MobInTheMiddle

open Lib
open SpeedDaemon (SocketFd Net WriteResult Arrival ReadEnd readLoop)

variable {pair : Pair} {race next final : SetupRace} {endpoint : Endpoint}
  {client upstream : SocketFd} {index count : Nat} {written : WriteResult} {fifo : Bytes}

/-! ### One thread alone -/

namespace ConnectionHashMap

variable {connections : ConnectionHashMap}

@[simp] theorem map_setFifo : (connections.setFifo client fifo).map = connections.map := rfl

theorem setFifo_setFifo (first : Bytes) :
    (connections.setFifo client first).setFifo client fifo = connections.setFifo client fifo := by
  simp [setFifo]

theorem remove_setFifo (paired : connections.map client = some upstream)
    (held : connections.streamfifomap client = some fifo)
    (first : Bytes) :
    (connections.setFifo client first).remove client = connections.remove client := by
  simp only [remove, map_setFifo, paired, held]
  simp only [setFifo, Function.update_self, Function.update_idem]

end ConnectionHashMap

theorem forward_setFifo {datapeek : Bytes} (proxy : Proxy) (first : Bytes) :
    forward client upstream datapeek written
        { proxy with connections := proxy.connections.setFifo client first } =
      forward client upstream datapeek written proxy := by
  simp only [forward, ConnectionHashMap.setFifo_setFifo]

/-- What `handle_messge` does behind its read loop, with the fifo and the last `bytes`. -/
def finish (client upstream : SocketFd) (fifo : Bytes) (bytes : Nat) (ended : Bool)
    (written : WriteResult) (proxy : Proxy) : Proxy :=
  if ended = true ∨ bytes = 0 then
    { proxy with connections := proxy.connections.remove client }
  else forward client upstream fifo written proxy

theorem finish_setFifo {bytes : Nat} {ended : Bool} {proxy : Proxy}
    (paired : proxy.connections.map client = some upstream)
    (held : proxy.connections.streamfifomap client = some fifo) (later first : Bytes) :
    finish client upstream later bytes ended written
        { proxy with connections := proxy.connections.setFifo client first } =
      finish client upstream later bytes ended written proxy := by
  simp only [finish, forward_setFifo, ConnectionHashMap.remove_setFifo paired held]

/-- The turns of the read loop, down to the end of what waits. -/
theorem run_reads (race : SetupRace) (fifo : Bytes) {chunks : List Bytes} (bytes : Nat)
    (written : WriteResult) (opened : race.closed = false)
    (nonempty : ∀ chunk ∈ chunks, chunk ≠ [])
    (paired : race.proxy.connections.map (pair.fd endpoint) = some upstream)
    (held : race.proxy.connections.streamfifomap (pair.fd endpoint) = some fifo)
    (waiting : race.unread endpoint = chunks.flatten)
    (reading : race.handlers = [⟨endpoint, .read upstream bytes⟩]) :
    ∃ final, run (setupStep pair) race
        (chunks.map (fun chunk => .handle 0 chunk.length .all) ++ [.handle 0 0 written]) =
          some final ∧
      final.unread endpoint = [] ∧
      final.proxy = finish (pair.fd endpoint) upstream (readLoop fifo bytes chunks).1
        (readLoop fifo bytes chunks).2 (race.ended endpoint) written race.proxy := by
  induction chunks generalizing race fifo bytes with
  | nil =>
      have done : setupStep pair race (.handle 0 0 written) =
          if race.ended endpoint = true ∨ bytes = 0 then
            some ((race.closePair (pair.fd endpoint)).return_ 0)
          else
            some ({ race with
              proxy :=
                forward (pair.fd endpoint) upstream fifo written race.proxy }.return_ 0) := by
        simp only [setupStep, reading, List.getElem?_cons_zero, SetupRace.handleStep,
          SetupRace.readStep, opened, Bool.false_eq_true, if_false, held, waiting,
          List.flatten_nil, if_true]
      rw [List.map_nil, List.nil_append, run, done, readLoop, finish]
      split
      · exact ⟨_, rfl, waiting, rfl⟩
      · exact ⟨_, rfl, waiting, rfl⟩
  | cons chunk chunks ih =>
      have size : 0 < chunk.length := List.length_pos_iff.mpr (nonempty chunk (by simp))
      have whole : race.unread endpoint = chunk ++ chunks.flatten := by
        rw [waiting, List.flatten_cons]
      have rest : race.unread endpoint ≠ [] := by
        rw [whole]
        exact List.append_ne_nil_of_left_ne_nil (nonempty chunk (by simp)) _
      have fits : 0 < chunk.length ∧ chunk.length ≤ (race.unread endpoint).length := by
        rw [whole, List.length_append]
        exact ⟨size, Nat.le_add_right _ _⟩
      let connections := race.proxy.connections.setFifo (pair.fd endpoint) (fifo ++ chunk)
      let after : SetupRace := { race with
        proxy := { race.proxy with connections := connections }
        unread := Function.update race.unread endpoint chunks.flatten
        handlers := [⟨endpoint, .read upstream chunk.length⟩] }
      have step : setupStep pair race (.handle 0 chunk.length .all) = some after := by
        simp only [setupStep, reading, List.getElem?_cons_zero, SetupRace.handleStep,
          SetupRace.readStep, opened, Bool.false_eq_true, if_false, held, if_neg rest,
          if_pos fits]
        simp only [SetupRace.setStage, List.set_cons_zero, whole, List.take_left,
          List.drop_left, after, connections, opened]
      obtain ⟨final, ran, nothing, proxyEq⟩ := ih after (fifo ++ chunk)
        chunk.length opened (fun other member => nonempty other (by simp [member]))
        paired (Function.update_self ..) (Function.update_self ..) rfl
      refine ⟨final, ?_, nothing, ?_⟩
      · rw [List.map_cons, List.cons_append, run, step]
        exact ran
      · rw [proxyEq, readLoop]
        exact finish_setFifo paired held _ _

/-- On its own, a thread does what `handleMessge` does with all that waits. -/
theorem setupStep_sequential {chunks : List Bytes} (opened : race.closed = false)
    (nonempty : ∀ chunk ∈ chunks, chunk ≠ [])
    (paired : race.proxy.connections.map (pair.fd endpoint) = some upstream)
    (held : race.proxy.connections.streamfifomap (pair.fd endpoint) = some fifo)
    (waiting : race.unread endpoint = chunks.flatten)
    (spawned : race.handlers = [⟨endpoint, .getStream⟩]) :
    ∃ final, run (setupStep pair) race ([.handle 0 0 .all, .handle 0 0 .all] ++
        (chunks.map (fun chunk => .handle 0 chunk.length .all) ++ [.handle 0 0 written])) =
          some final ∧
      final.unread endpoint = [] ∧
      final.proxy = handleMessge (pair.fd endpoint)
        ⟨chunks, if race.ended endpoint then .closed else .wouldBlock, nonempty⟩ written
        race.proxy := by
  let looked := race.setStage 0 endpoint (.getFifo upstream)
  have first : setupStep pair race (.handle 0 0 .all) = some looked := by
    simp only [setupStep, spawned, List.getElem?_cons_zero, SetupRace.handleStep, paired, looked]
  let reading := looked.setStage 0 endpoint (.read upstream 0)
  have lookedHandlers : looked.handlers = [⟨endpoint, .getFifo upstream⟩] := by
    simp only [looked, SetupRace.setStage, spawned, List.set_cons_zero]
  have second : setupStep pair looked (.handle 0 0 .all) = some reading := by
    have still : looked.proxy.connections.streamfifomap (pair.fd endpoint) = some fifo := held
    simp only [setupStep, lookedHandlers, List.getElem?_cons_zero, SetupRace.handleStep, still,
      reading]
  have readingHandlers : reading.handlers = [⟨endpoint, .read upstream 0⟩] := by
    simp only [reading, SetupRace.setStage, lookedHandlers, List.set_cons_zero]
  obtain ⟨final, ran, nothing, proxyEq⟩ :=
    run_reads reading fifo 0 written opened nonempty paired held waiting readingHandlers
  refine ⟨final, ?_, nothing, ?_⟩
  · rw [List.cons_append, run, first, Option.bind_eq_bind, Option.bind_some, List.cons_append,
      run, second]
    exact ran
  · have same : finish (pair.fd endpoint) upstream (readLoop fifo 0 chunks).1
        (readLoop fifo 0 chunks).2 (race.ended endpoint) written race.proxy =
        handleMessge (pair.fd endpoint)
          ⟨chunks, if race.ended endpoint then .closed else .wouldBlock, nonempty⟩ written
          race.proxy := by
      simp only [handleMessge, paired, held, finish]
      cases race.ended endpoint
      · simp
      · simp
    exact proxyEq.trans same

/-! ### What every step keeps -/

/-- No event is pending, and none is being handled. -/
def SetupRace.Quiet (race : SetupRace) : Prop :=
  (∀ endpoint, race.ready endpoint = false) ∧ race.handlers = []

/-- The step does not look an event up before the pair is in the map. -/
def FindsPair (race : SetupRace) : SetupAction → Prop
  | .handle index _ _ =>
      race.handlers[index]?.map Handling.stage = some .getStream → race.phase = .finished
  | _ => True

instance FindsPair.decidable (race : SetupRace) :
    ∀ action, Decidable (FindsPair race action)
  | .handle _ _ _ => inferInstanceAs (Decidable (_ → _))
  | .setUp | .fail | .arrive _ _ | .hangUp _ | .spawn _ => .isTrue trivial

/-- The step does not close the pair while bytes wait on one of its ends. -/
def ClosesRead (race : SetupRace) : SetupAction → Prop
  | .handle index _ _ =>
      ∀ endpoint upstream bytes, race.handlers[index]? = some ⟨endpoint, .read upstream bytes⟩ →
        race.unread endpoint = [] → race.ended endpoint = true ∨ bytes = 0 →
          race.unread endpoint.other = []
  | _ => True

/-- As long as the pair is open, an event is pending or being handled for every descriptor
of the epoll instance on which bytes wait, and its handler finds the pair. -/
structure SetupRace.Watched (pair : Pair) (race : SetupRace) : Prop where
  early : race.phase ≠ .finished → race.closed = false ∧
    ∀ handling ∈ race.handlers, handling.stage = .getStream
  paired : race.phase = .finished → race.closed = false → ∀ endpoint,
    (race.proxy.connections.map (pair.fd endpoint)).isSome ∧
      (race.proxy.connections.streamfifomap (pair.fd endpoint)).isSome
  seen : race.closed = false → ∀ endpoint, race.phase.inEpoll endpoint = true →
    race.unread endpoint ≠ [] →
      race.ready endpoint = true ∨ endpoint ∈ race.handlers.map Handling.endpoint

/-- Nothing is unread on a closed pair. -/
def SetupRace.ReadOut (race : SetupRace) : Prop :=
  race.closed = true → ∀ endpoint, race.unread endpoint = []

theorem SetupRace.watched_start (proxy : Proxy) (sent : Bytes) :
    (SetupRace.start proxy sent).Watched pair where
  early := fun _ => ⟨rfl, fun _ member => absurd member List.not_mem_nil⟩
  paired := fun finished => nomatch finished
  seen := fun _ endpoint listed => by cases endpoint <;> cases listed

theorem Phase.next_finished {phase : Phase} (finished : phase.next = .finished) :
    phase = .addPair ∨ phase = .finished := by
  cases phase <;> simp_all [Phase.next]

/-- The set-up adds one end at most to the epoll instance, and looks at what waits there. -/
theorem SetupRace.Watched.setUp (watched : race.Watched pair) (begun : race.phase ≠ .finished) :
    (race.setUp pair).Watched pair := by
  obtain ⟨opened, looking⟩ := watched.early begun
  have handlers : (race.setUp pair).handlers = race.handlers := by
    simp only [SetupRace.setUp]
    split <;> rfl
  have closed : (race.setUp pair).closed = false := by
    simp only [SetupRace.setUp]
    split <;> exact opened
  have unread : (race.setUp pair).unread = race.unread := by
    simp only [SetupRace.setUp]
    split <;> rfl
  have phase : (race.setUp pair).phase = race.phase.next := by
    simp only [SetupRace.setUp]
    split <;> rfl
  refine ⟨fun _ => ⟨closed, handlers ▸ looking⟩, fun finished _ endpoint => ?_, ?_⟩
  · rcases Phase.next_finished (phase ▸ finished) with adding | ended
    · have added : (race.setUp pair).proxy.connections =
          race.proxy.connections.add pair.client pair.upstream := by
        simp only [SetupRace.setUp, adding]
      rw [added]
      cases endpoint with
      | client =>
          have apart := pair.distinct
          simp [ConnectionHashMap.add, Pair.fd, Function.update_of_ne apart]
      | upstream => simp [ConnectionHashMap.add, Pair.fd]
    · exact absurd ended begun
  · rw [handlers, unread, phase]
    intro _ endpoint listed waits
    have later : (race.phase.inEpoll endpoint = true ∧
        (race.setUp pair).ready endpoint = race.ready endpoint) ∨
        (race.setUp pair).ready endpoint = true := by
      simp only [SetupRace.setUp]
      generalize race.phase = now at listed ⊢
      cases now <;> cases endpoint <;> simp_all [Phase.next, Phase.inEpoll]
    rcases later with ⟨already, same⟩ | nowReady
    · rw [same]
      exact watched.seen opened endpoint already waits
    · exact .inl nowReady

/-- Bytes and the end of a stream come with an event where the descriptor is in the epoll
instance. -/
theorem SetupRace.Watched.wake (watched : race.Watched pair) (unread : Endpoint → Bytes)
    (ended : Endpoint → Bool)
    (others : ∀ other, other ≠ endpoint → unread other = race.unread other) :
    ({ race with unread := unread, ended := ended }.wake endpoint).Watched pair := by
  refine ⟨watched.early, watched.paired, fun opened other listed waits => ?_⟩
  simp only [SetupRace.wake] at listed waits ⊢
  by_cases same : other = endpoint
  · subst same
    simp [listed]
  · rw [Function.update_of_ne same]
    exact watched.seen opened other listed (others other same ▸ waits)

/-- The main loop takes an event and starts a thread for it. -/
theorem SetupRace.Watched.spawn (watched : race.Watched pair) :
    SetupRace.Watched pair { race with
      ready := Function.update race.ready endpoint false
      handlers := race.handlers ++ [⟨endpoint, .getStream⟩] } := by
  refine ⟨fun begun => ?_, watched.paired, fun opened other listed waits => ?_⟩
  · obtain ⟨opened, looking⟩ := watched.early begun
    refine ⟨opened, fun handling member => ?_⟩
    rcases List.mem_append.mp member with old | new
    · exact looking handling old
    · rw [List.mem_singleton.mp new]
  · simp only [List.map_append, List.mem_append]
    by_cases same : other = endpoint
    · simp [same]
    · rw [Function.update_of_ne same]
      rcases watched.seen opened other listed waits with pending | handled
      · exact .inl pending
      · exact .inr (.inl handled)

/-- A thread goes on with the same descriptor. -/
theorem SetupRace.Watched.setStage {handling : Handling} (stage : Stage)
    (watched : race.Watched pair) (finished : race.phase = .finished)
    (current : race.handlers[index]? = some handling) :
    (race.setStage index handling.endpoint stage).Watched pair := by
  have same : (race.handlers.set index ⟨handling.endpoint, stage⟩).map Handling.endpoint =
      race.handlers.map Handling.endpoint := by
    obtain ⟨bound, rfl⟩ := List.getElem?_eq_some_iff.mp current
    have boundMap : index < (race.handlers.map Handling.endpoint).length := by simpa using bound
    have atIndex : (race.handlers.map Handling.endpoint)[index] =
        race.handlers[index].endpoint := List.getElem_map ..
    rw [List.map_set, ← atIndex, List.set_getElem_self]
  refine ⟨fun begun => absurd finished begun, watched.paired, ?_⟩
  simp only [SetupRace.setStage, same]
  exact watched.seen

/-- A thread that has read all, or that finds the pair closed, returns. -/
theorem SetupRace.Watched.return_ {handling : Handling} (watched : race.Watched pair)
    (finished : race.phase = .finished) (current : race.handlers[index]? = some handling)
    (read : race.closed = false → race.unread handling.endpoint = []) :
    (race.return_ index).Watched pair := by
  refine ⟨fun begun => absurd finished begun, watched.paired, fun opened other listed waits => ?_⟩
  simp only [SetupRace.return_] at opened waits ⊢
  rcases watched.seen opened other listed waits with pending | handled
  · exact .inl pending
  · obtain ⟨busy, member, rfl⟩ := List.mem_map.mp handled
    obtain ⟨place, busyEq⟩ := List.mem_iff_getElem?.mp member
    have elsewhere : place ≠ index := by
      rintro rfl
      rw [current, Option.some.injEq] at busyEq
      exact waits (busyEq ▸ read opened)
    exact .inr (List.mem_map_of_mem (List.mem_eraseIdx_iff_getElem?.mpr ⟨place, elsewhere, busyEq⟩))

/-- Reading moves bytes from the descriptor to the fifo. -/
theorem SetupRace.Watched.read (connections : ConnectionHashMap) (watched : race.Watched pair)
    (kept : ∀ endpoint, (race.proxy.connections.map (pair.fd endpoint)).isSome →
      (race.proxy.connections.streamfifomap (pair.fd endpoint)).isSome →
        (connections.map (pair.fd endpoint)).isSome ∧
          (connections.streamfifomap (pair.fd endpoint)).isSome)
    (net : Net) (unread : Endpoint → Bytes)
    (fewer : ∀ endpoint, unread endpoint ≠ [] → race.unread endpoint ≠ []) :
    SetupRace.Watched pair { race with proxy := ⟨connections, net⟩, unread := unread } where
  early := watched.early
  paired := fun finished opened endpoint =>
    have before := watched.paired finished opened endpoint
    kept endpoint before.1 before.2
  seen := fun opened endpoint listed waits =>
    watched.seen opened endpoint listed (fewer endpoint waits)

/-- Forwarding changes the fifo of one stream. -/
theorem forward_connections (client upstream : SocketFd) (datapeek : Bytes)
    (written : WriteResult) (proxy : Proxy) :
    ∃ fifo, (forward client upstream datapeek written proxy).connections =
      proxy.connections.setFifo client fifo := by
  rw [forward]
  split
  · exact ⟨datapeek, rfl⟩
  · refine ⟨[], ?_⟩
    simp only
    split
    · rfl
    · split
      · rfl
      · rfl

theorem ConnectionHashMap.setFifo_isSome {connections : ConnectionHashMap} {fd : SocketFd}
    (held : (connections.streamfifomap fd).isSome) :
    ((connections.setFifo client fifo).streamfifomap fd).isSome := by
  by_cases same : fd = client
  · subst same
    simp [setFifo]
  · simpa only [setFifo, Function.update_of_ne same] using held

/-- A step of a thread whose event is not looked up too early. -/
theorem SetupRace.Watched.handle {handling : Handling} (watched : race.Watched pair)
    (current : race.handlers[index]? = some handling)
    (finds : handling.stage = .getStream → race.phase = .finished)
    (step : race.handleStep pair index handling count written = some next) :
    next.Watched pair := by
  have finished : race.phase = .finished := by
    by_contra begun
    exact begun (finds ((watched.early begun).2 handling (List.mem_of_getElem? current)))
  obtain ⟨endpoint, stage⟩ := handling
  cases stage with
  | getStream =>
      simp only [SetupRace.handleStep] at step
      split at step
      · rename_i missing
        cases step
        refine watched.return_ finished current fun opened => ?_
        have found := (watched.paired finished opened endpoint).1
        simp [missing] at found
      · cases step
        exact watched.setStage _ finished current
  | getFifo upstream =>
      simp only [SetupRace.handleStep] at step
      split at step
      · rename_i missing
        cases step
        refine watched.return_ finished current fun opened => ?_
        have found := (watched.paired finished opened endpoint).2
        simp [missing] at found
      · cases step
        exact watched.setStage _ finished current
  | read upstream bytes =>
      simp only [SetupRace.handleStep, SetupRace.readStep] at step
      split at step
      · rename_i closed
        cases step
        exact watched.return_ finished current fun opened => by simp [closed] at opened
      split at step
      · cases step
      rename_i recvFifo held
      split at step
      · rename_i read
        split at step
        · -- Of a closed pair nothing is promised.
          cases step
          exact ⟨fun begun => absurd finished begun, nofun, nofun⟩
        · cases step
          obtain ⟨fifo, connections⟩ :=
            forward_connections (pair.fd endpoint) upstream recvFifo written race.proxy
          have forwarded := watched.read
            (race.proxy.connections.setFifo (pair.fd endpoint) fifo)
            (fun _ paired held => ⟨paired, ConnectionHashMap.setFifo_isSome held⟩)
            (forward (pair.fd endpoint) upstream recvFifo written race.proxy).net race.unread
            (fun _ waits => waits)
          rw [← connections] at forwarded
          exact forwarded.return_ finished current fun _ => read
      · split at step
        · cases step
          have taken := watched.read
            (race.proxy.connections.setFifo (pair.fd endpoint)
              (recvFifo ++ (race.unread endpoint).take count))
            (fun _ paired held => ⟨paired, ConnectionHashMap.setFifo_isSome held⟩)
            race.proxy.net (Function.update race.unread endpoint
              ((race.unread endpoint).drop count)) fun other waits => ?_
          · exact taken.setStage _ finished current
          · by_cases same : other = endpoint
            · subst same
              rintro nothing
              simp [nothing] at waits
            · rwa [Function.update_of_ne same] at waits
        · cases step

/-- A thread goes on with the event that it handles. -/
theorem setupStep_handle {index count : Nat} {written : WriteResult}
    (step : setupStep pair race (.handle index count written) = some next) :
    ∃ endpoint stage, race.handlers[index]? = some ⟨endpoint, stage⟩ ∧
      race.handleStep pair index ⟨endpoint, stage⟩ count written = some next := by
  simp only [setupStep] at step
  split at step
  · cases step
  · next handling current => exact ⟨handling.endpoint, handling.stage, current, step⟩

/-- Every step keeps the pair watched, if it does not look an event up too early. -/
theorem SetupRace.Watched.step {action : SetupAction} (watched : race.Watched pair)
    (finds : FindsPair race action) (step : setupStep pair race action = some next) :
    next.Watched pair := by
  cases action with
  | setUp =>
      obtain ⟨⟨-, begun⟩, ⟨⟩⟩ := Option.ite_none_right_eq_some.mp step
      exact watched.setUp begun
  | fail =>
      obtain ⟨-, ⟨⟩⟩ := Option.ite_none_right_eq_some.mp step
      exact ⟨watched.early, watched.paired, watched.seen⟩
  | arrive endpoint bytes =>
      obtain ⟨-, ⟨⟩⟩ := Option.ite_none_right_eq_some.mp step
      exact watched.wake _ race.ended fun other apart => Function.update_of_ne apart ..
  | hangUp endpoint =>
      obtain ⟨-, ⟨⟩⟩ := Option.ite_none_right_eq_some.mp step
      exact watched.wake race.unread _ fun _ _ => rfl
  | spawn endpoint =>
      obtain ⟨-, ⟨⟩⟩ := Option.ite_none_right_eq_some.mp step
      exact watched.spawn
  | handle index count written =>
      obtain ⟨endpoint, stage, current, step⟩ := setupStep_handle step
      refine watched.handle current (fun looking => ?_) step
      cases looking
      exact finds (by rw [current, Option.map_some])

/-- A step that closes the pair leaves nothing unread, if it is so asked. -/
theorem SetupRace.ReadOut.step {action : SetupAction} (readOut : race.ReadOut)
    (closes : ClosesRead race action) (step : setupStep pair race action = some next) :
    next.ReadOut := by
  cases action with
  | setUp =>
      obtain ⟨-, ⟨⟩⟩ := Option.ite_none_right_eq_some.mp step
      simp only [SetupRace.setUp]
      split
      all_goals exact readOut
  | fail =>
      obtain ⟨-, ⟨⟩⟩ := Option.ite_none_right_eq_some.mp step
      exact readOut
  | arrive endpoint bytes =>
      obtain ⟨⟨-, -, -, opened⟩, ⟨⟩⟩ := Option.ite_none_right_eq_some.mp step
      exact fun closed => absurd (opened.symm.trans closed) Bool.false_ne_true
  | hangUp endpoint =>
      obtain ⟨-, ⟨⟩⟩ := Option.ite_none_right_eq_some.mp step
      exact readOut
  | spawn endpoint =>
      obtain ⟨-, ⟨⟩⟩ := Option.ite_none_right_eq_some.mp step
      exact readOut
  | handle index count written =>
      obtain ⟨endpoint, stage, current, step⟩ := setupStep_handle step
      cases stage with
      | getStream =>
          simp only [SetupRace.handleStep] at step
          split at step
          all_goals
            cases step
            exact readOut
      | getFifo upstream =>
          simp only [SetupRace.handleStep] at step
          split at step
          all_goals
            cases step
            exact readOut
      | read upstream bytes =>
          simp only [SetupRace.handleStep, SetupRace.readStep] at step
          split at step
          · cases step
            exact readOut
          rename_i opened
          split at step
          · cases step
          split at step
          · rename_i read
            split at step
            · rename_i ends
              cases step
              intro _ other
              have rest := closes endpoint upstream bytes current read ends
              cases endpoint <;> cases other
              all_goals first | exact read | exact rest
            · cases step
              exact readOut
          · split at step
            · cases step
              exact fun closed => absurd closed opened
            · cases step

/-! ### Whole runs -/

/-- When every event is looked up behind `map.add`, nothing is left unread once all is
quiet: on an open pair never, and on a closed one if nothing waited when it was closed. -/
theorem nothing_unread (pair : Pair) (proxy : Proxy) (sent : Bytes) (actions : List SetupAction)
    (final : SetupRace)
    (ran : run (setupStep pair) (.start proxy sent) actions = some final)
    (found : EachStep FindsPair (setupStep pair) (.start proxy sent) actions)
    (closed : final.closed = false ∨
      EachStep ClosesRead (setupStep pair) (.start proxy sent) actions)
    (finished : final.phase = .finished) (quiet : final.Quiet) :
    ∀ endpoint, final.unread endpoint = [] := by
  have watched : final.Watched pair :=
    run_preserves_when FindsPair (SetupRace.Watched pair)
      (fun _ _ _ before finds step => before.step finds step)
      (SetupRace.watched_start proxy sent) found ran
  have opened : final.closed = false → ∀ endpoint, final.unread endpoint = [] := by
    intro opened endpoint
    by_contra waits
    have listed : final.phase.inEpoll endpoint = true := by
      cases endpoint <;> simp [finished, Phase.inEpoll]
    rcases watched.seen opened endpoint listed waits with pending | handled
    · exact absurd ((quiet.1 endpoint).symm.trans pending) Bool.false_ne_true
    · simp [quiet.2] at handled
  rcases closed with isOpen | eachCloses
  · exact opened isOpen
  · have readOut : final.ReadOut :=
      run_preserves_when ClosesRead SetupRace.ReadOut
        (fun _ _ _ before closes step => before.step closes step)
        (fun closed => absurd closed Bool.false_ne_true) eachCloses ran
    cases isClosed : final.closed with
    | false => exact opened isClosed
    | true => exact readOut isClosed

section Events

/-- No pair is in the map yet, and two sockets are open. -/
def emptyProxy : Proxy := ⟨ConnectionHashMap.init, fun _ => []⟩

def somePair : Pair := ⟨5, 6, by decide⟩

/-- The greeting of the upstream comes after `map.add`, and its event is handled. -/
def lateGreeting : List SetupAction :=
  [.setUp, .setUp, .setUp, .setUp, .arrive .upstream [72, 10], .spawn .upstream,
    .handle 0 0 .all, .handle 0 0 .all, .handle 0 2 .all, .handle 0 0 .all]

/-- The greeting comes when only the epoll instance knows the upstream. -/
def earlyGreeting : List SetupAction :=
  [.setUp, .setUp, .setUp, .arrive .upstream [72, 10], .spawn .upstream, .handle 0 0 .all,
    .setUp]

theorem nothing_unread_late :
    ∃ final, run (setupStep somePair) (.start emptyProxy []) lateGreeting = some final ∧
      ∀ endpoint, final.unread endpoint = [] :=
  have quiet : ∀ final, run (setupStep somePair) (.start emptyProxy []) lateGreeting = some final →
      (∀ endpoint, final.ready endpoint = false) ∧ final.handlers = [] := by
    rintro final ⟨⟩
    exact ⟨fun endpoint => by cases endpoint <;> rfl, rfl⟩
  ⟨_, rfl, nothing_unread somePair emptyProxy [] lateGreeting _ rfl (by decide +kernel) (.inl rfl)
    rfl (quiet _ rfl)⟩

/-- The greeting stays unread. -/
theorem greeting_unread :
    ¬ ∀ (pair : Pair) (proxy : Proxy) (sent : Bytes) (actions : List SetupAction)
        (final : SetupRace),
      run (setupStep pair) (.start proxy sent) actions = some final →
        final.phase = .finished → final.Quiet → ∀ endpoint, final.unread endpoint = [] := by
  intro always
  have quiet : ∀ final, run (setupStep somePair) (.start emptyProxy []) earlyGreeting = some final →
      final.phase = .finished ∧ final.Quiet ∧ final.unread .upstream = [72, 10] := by
    rintro final ⟨⟩
    exact ⟨rfl, ⟨fun endpoint => by cases endpoint <;> rfl, rfl⟩, rfl⟩
  obtain ⟨finished, isQuiet, waits⟩ := quiet _ rfl
  have nothing := always somePair emptyProxy [] earlyGreeting _ rfl finished isQuiet .upstream
  exact absurd (waits.symm.trans nothing) (by decide)

end Events

end NetworkExercises.MobInTheMiddle
