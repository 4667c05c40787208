/-
Module: NetworkExercises.SpeedDaemon.Proofs.TimerRace
Purpose: A timer that is set up while another thread handles its events ends up in the map
  and in the epoll instance, unless an expiry is looked up before the timer is in the map.
Main exports: Timer.IsNew, TimerRace.Settled, Unraced, timerStep_sequential,
  timer_settled_iff
-/
import NetworkExercises.SpeedDaemon.Threads
import NetworkExercises.SpeedDaemon.Proofs.Armed

namespace NetworkExercises.SpeedDaemon

open Lib

/-! ### What is left in the end -/

/-- The client that asks is registered and has the fifo that its message was read into, and
the new descriptor is one that no one uses. -/
structure Timer.IsNew (timer : Timer) (state : ServerState) (epoll : Epoll) : Prop where
  client : ∃ client, state.clients.map timer.clientfd = some client ∧
    client.fd = timer.clientfd ∧ client.fifo ≠ none
  registered : epoll.armed timer.clientfd ≠ none
  noClient : state.clients.map timer.timerfd = none
  noTimer : state.timers.map timer.timerfd = none
  notRegistered : epoll.armed timer.timerfd = none

/-- The timer is in the map and in the epoll instance, and `Clients.del` removes its
client. -/
structure TimerRace.Settled (timer : Timer) (race : TimerRace) : Prop where
  timed : race.state.timers.map timer.timerfd = some timer
  registered : race.epoll.armed timer.timerfd ≠ none
  removable : ∃ after, race.state.clients.delAgainst timer.clientfd race.state.timers
    race.epoll = some after ∧ after.1.map timer.clientfd = none

/-- An expiry is looked up only after the timer has been added to the map, and the
heartbeat for a timer that is found is sent. -/
def Unraced (race : TimerRace) (action : TimerAction) : Prop :=
  (action = .lookup → race.setup = .finished) ∧
    ∀ sys entry, action = .handle sys → race.expiry = .found entry →
      sys.timerRead = none ∧ sys.heartbeat = .all

variable {timer : Timer} {state : ServerState} {epoll : Epoll} {race next : TimerRace}

/-! ### Without other threads -/

/-- The steps of the handler alone do what the prong `.WantHeartbeat` does. -/
theorem timerStep_sequential {calls : Calls} {interval : UInt32} {session final : Session}
    (found : state.clients.map timer.clientfd = some session.client)
    (timers : state.timers = session.timers)
    (isNew : timer = ⟨timer.timerfd, session.client.fd, interval.toNat⟩)
    (unasked : ¬ (session.client.heartbeatRequested = true ∨ session.client.timer.isSome))
    (nonzero : interval.toNat ≠ 0) (created : calls.timerfd = .ok timer.timerfd)
    (added : calls.epollAdd = none)
    (done : handleWantHeartbeat calls interval session = .done final) :
    run (timerStep timer) (.start state epoll) [.createTimer, .addEpoll, .addMap] =
      some ⟨{ state with
          clients := state.clients.put timer.clientfd final.client
          timers := final.timers },
        handleMessageEpoll calls (.wantHeartbeat interval) session epoll, .finished, .idle⟩ := by
  obtain ⟨notRequested, noTimer⟩ := not_or.mp unasked
  have handled : handleWantHeartbeat calls interval session =
      .done { session with
        client := { session.client with timer := some timer }
        timers := session.timers.add timer } := by
    simp only [handleWantHeartbeat, if_neg unasked, if_neg nonzero, Client.addTimer,
      if_neg notRequested, if_neg noTimer, created, added, Outcome.map_done,
      Outcome.done_andThen, ← isNew]
  rw [handled, Outcome.done.injEq] at done
  subst done
  simp only [run, timerStep, TimerRace.start, found, handleMessageEpoll, if_neg unasked,
    if_neg nonzero, Client.addTimerEpoll, if_neg notRequested, if_neg noTimer, created, added,
    timers, Option.bind_eq_bind, Option.bind_some]

/-! ### The steps of both threads -/

/-- How far both threads are, what the map has for the timer's descriptor, and how it is
registered, as long as nothing has gone wrong. -/
inductive TimerPhase (timer : Timer) : Setup → Expiry → Option Timer → Option Bool → Prop where
  | asked : TimerPhase timer .asked .idle none none
  | created : TimerPhase timer .created .idle none none
  | added : TimerPhase timer .added .idle none (some true)
  | early : TimerPhase timer .added .woken none (some false)
  | finished : TimerPhase timer .finished .idle (some timer) (some true)
  | woken : TimerPhase timer .finished .woken (some timer) (some false)
  | found : TimerPhase timer .finished (.found timer) (some timer) (some false)

structure TimerRace.Intact (timer : Timer) (race : TimerRace) : Prop where
  client : ∃ client, race.state.clients.map timer.clientfd = some client ∧
    client.fd = timer.clientfd ∧ client.fifo ≠ none ∧
    (race.setup ≠ .asked → client.timer = some timer)
  noClient : race.state.clients.map timer.timerfd = none
  registered : race.epoll.armed timer.clientfd ≠ none
  phase : TimerPhase timer race.setup race.expiry (race.state.timers.map timer.timerfd)
    (race.epoll.armed timer.timerfd)

/-- The timer was not found, or its heartbeat was not sent: one of the two descriptors is
not registered any more, or is about not to be. -/
structure TimerRace.Broken (timer : Timer) (race : TimerRace) : Prop where
  begun : race.setup = .added ∨ race.setup = .finished
  deaf : race.epoll.armed timer.timerfd ≠ some true
  lost : race.expiry = .unknown ∨ race.expiry = .idle ∧
    (race.epoll.armed timer.timerfd = none ∨
      race.state.clients.map timer.clientfd ≠ none ∧ race.epoll.armed timer.clientfd = none)

theorem TimerRace.Intact.not_broken (intact : race.Intact timer) : ¬ race.Broken timer := by
  rintro ⟨begun, deaf, lost⟩
  obtain ⟨-, -, -, phase⟩ := intact
  generalize race.setup = setup, race.expiry = expiry, race.epoll.armed timer.timerfd = armed,
    race.state.timers.map timer.timerfd = entry at *
  cases phase <;> simp_all

theorem TimerRace.intact_start (isNew : timer.IsNew state epoll) :
    (TimerRace.start state epoll).Intact timer where
  client := by
    obtain ⟨client, found, same, held⟩ := isNew.client
    exact ⟨client, found, same, held, fun begun => absurd rfl begun⟩
  noClient := isNew.noClient
  registered := isNew.registered
  phase := by
    have noTimer : (TimerRace.start state epoll).state.timers.map timer.timerfd = none :=
      isNew.noTimer
    have notRegistered : (TimerRace.start state epoll).epoll.armed timer.timerfd = none :=
      isNew.notRegistered
    rw [noTimer, notRegistered]
    exact .asked

/-- What becomes of a timer that has fired: its heartbeat is sent and it is armed again, or
its client is removed. -/
theorem handleTimer_ends (epoll : Epoll) {event : Event} {entry : Timer} {client : Client}
    {after : ServerState} (found : state.clients.map entry.clientfd = some client)
    (step : handleTimer event entry state = some after) :
    (event.sys.timerRead = none ∧ event.sys.heartbeat = .all) ∧
        after.clients = state.clients ∧ after.timers = state.timers ∧
        handleTimerEpoll event entry state epoll = epoll.mod event.socket ∨
      ¬ (event.sys.timerRead = none ∧ event.sys.heartbeat = .all) ∧
        state.clients.del client.fd state.timers event.sys.timerDel event.sys.clientDel =
          some (after.clients, after.timers) ∧
        handleTimerEpoll event entry state epoll =
          state.clients.delEpoll client.fd event.sys.timerDel epoll := by
  obtain ⟨buf, encoded, -⟩ :=
    hostToNetwork_clear (by rfl : Message.heartbeat.IsServer) trivial
  unfold handleTimer at step
  unfold handleTimerEpoll
  simp only [found] at step ⊢
  cases reading : event.sys.timerRead with
  | some errorName =>
      simp only [reading] at step
      exact .inr ⟨by simp, (removeFd_parts step).1, rfl⟩
  | none =>
      simp only [reading, Client.sendHeartbeat, encoded] at step ⊢
      cases written : event.sys.heartbeat with
      | all =>
          simp only [written, writeAll, Outcome.map_done, Option.some.injEq] at step
          subst step
          exact .inl ⟨⟨trivial, rfl⟩, rfl, rfl, rfl⟩
      | failed count errorName =>
          simp only [written, writeAll, Outcome.map_raised] at step
          exact .inr ⟨by simp, (removeFd_parts step).1, rfl⟩

/-- A removal takes the client out of the map exactly when its descriptors are taken out of
the epoll instance. -/
theorem Clients.del_removes {clients : Clients} {fd : SocketFd} {client : Client}
    {timers : Timers} {timerDel clientDel : Bool} {after : Clients × Timers}
    (found : clients.map fd = some client)
    (removed : clients.del fd timers timerDel clientDel = some after) :
    after.1.map fd = none ↔ clientDel = true ∧ (client.timer ≠ none → timerDel = true) := by
  rw [del_eq timers timerDel clientDel found (del_held found removed), Option.some.injEq]
    at removed
  subst removed
  obtain ⟨clientfd, fifo, timer, requested, data⟩ := client
  cases timer <;> cases timerDel <;> cases clientDel <;> simp [Client.unregister]

/-- The heartbeat that is not sent leaves one of the descriptors unregistered. -/
theorem TimerRace.broken_of_removed {client : Client} {sys : Sys} {after : ServerState}
    (differs : timer.clientfd ≠ timer.timerfd)
    (present : state.clients.map timer.clientfd = some client)
    (same : client.fd = timer.clientfd) (timerSet : client.timer = some timer)
    (disarmed : epoll.armed timer.timerfd = some false)
    (removed : state.clients.del client.fd state.timers sys.timerDel sys.clientDel =
      some (after.clients, after.timers)) :
    (⟨after, state.clients.delEpoll client.fd sys.timerDel epoll, .finished, .idle⟩ :
      TimerRace).Broken timer := by
  have unregistered : state.clients.delEpoll client.fd sys.timerDel epoll =
      if sys.timerDel then (epoll.del timer.timerfd).del timer.clientfd
      else epoll.del timer.clientfd := by
    rw [Clients.delEpoll, same, present]
    simp only [Client.deinitEpoll, timerSet, same]
  refine ⟨.inr rfl, ?_, .inr ⟨rfl, ?_⟩⟩
  · simp only [unregistered]
    cases sys.timerDel <;> simp [Epoll.del, differs.symm, disarmed]
  · simp only [unregistered]
    cases timerDel : sys.timerDel with
    | true => exact .inl (by simp [Epoll.del, differs.symm])
    | false =>
        refine .inr ⟨?_, by simp [Epoll.del]⟩
        rw [same] at removed
        rw [Ne, Clients.del_removes present removed]
        simp [timerSet, timerDel]

theorem TimerRace.Intact.differs (intact : race.Intact timer) :
    timer.clientfd ≠ timer.timerfd := by
  intro collide
  obtain ⟨client, found, -⟩ := intact.client
  have noClient := intact.noClient
  rw [← collide, found] at noClient
  cases noClient

theorem unraced_of_ne {action : TimerAction} (notLookup : action ≠ .lookup)
    (notHandle : ∀ sys, action ≠ .handle sys) : Unraced race action :=
  ⟨fun same => absurd same notLookup, fun sys _ same => absurd same (notHandle sys)⟩

theorem unraced_lookup : Unraced race .lookup ↔ race.setup = .finished := by
  simp [Unraced]

/-! ### One step of an intact race -/

theorem TimerRace.Intact.createTimer (intact : race.Intact timer)
    (step : timerStep timer race .createTimer = some next) : next.Intact timer := by
  obtain ⟨state, epoll, setup, expiry⟩ := race
  have differs := intact.differs
  obtain ⟨⟨client, present, same, held, set⟩, noClient, registered, phase⟩ := intact
  simp only at present same held set noClient registered phase
  simp only [timerStep, present] at step
  generalize entryEq : state.timers.map timer.timerfd = mapped,
    armedEq : epoll.armed timer.timerfd = armed at phase
  cases phase with
  | asked =>
      cases step
      refine ⟨⟨{ client with timer := some timer }, by simp [Clients.put], same, held,
        fun _ => rfl⟩, ?_, registered, ?_⟩
      · simp [Clients.put, differs.symm, noClient]
      · simp only [entryEq, armedEq]
        exact .created
  | created | added | early | finished | woken | found => cases step

theorem TimerRace.Intact.addEpoll (intact : race.Intact timer)
    (step : timerStep timer race .addEpoll = some next) : next.Intact timer := by
  obtain ⟨state, epoll, setup, expiry⟩ := race
  have differs := intact.differs
  obtain ⟨client, noClient, registered, phase⟩ := intact
  simp only at client noClient registered phase
  generalize entryEq : state.timers.map timer.timerfd = mapped,
    armedEq : epoll.armed timer.timerfd = armed at phase
  cases phase with
  | created =>
      cases step
      refine ⟨by simpa using client, noClient, ?_, ?_⟩
      · rwa [Epoll.add_other differs]
      · simp only [entryEq, Epoll.add_self]
        exact .added
  | asked | added | early | finished | woken | found => cases step

theorem TimerRace.Intact.addMap (intact : race.Intact timer)
    (step : timerStep timer race .addMap = some next) : next.Intact timer := by
  obtain ⟨state, epoll, setup, expiry⟩ := race
  obtain ⟨client, noClient, registered, phase⟩ := intact
  simp only at client noClient registered phase
  generalize entryEq : state.timers.map timer.timerfd = mapped,
    armedEq : epoll.armed timer.timerfd = armed at phase
  have timed : (state.timers.add timer).map timer.timerfd = some timer :=
    Function.update_self ..
  cases phase with
  | added =>
      cases step
      refine ⟨by simpa using client, noClient, registered, ?_⟩
      simp only [timed, armedEq]
      exact .finished
  | early =>
      cases step
      refine ⟨by simpa using client, noClient, registered, ?_⟩
      simp only [timed, armedEq]
      exact .woken
  | asked | created | finished | woken | found => cases step

theorem TimerRace.Intact.expire (intact : race.Intact timer)
    (step : timerStep timer race .expire = some next) : next.Intact timer := by
  obtain ⟨state, epoll, setup, expiry⟩ := race
  have differs := intact.differs
  obtain ⟨client, noClient, registered, phase⟩ := intact
  simp only at client noClient registered phase
  simp only [timerStep] at step
  split at step
  · next fires =>
    obtain ⟨rfl, armed⟩ := fires
    cases step
    refine ⟨client, noClient, ?_, ?_⟩
    · simpa [Epoll.deliver, differs] using registered
    · have disarmed : (epoll.deliver timer.timerfd).armed timer.timerfd = some false :=
        Function.update_self ..
      simp only [armed, disarmed] at phase ⊢
      generalize state.timers.map timer.timerfd = mapped at phase ⊢
      cases phase with
      | added => exact .early
      | finished => exact .woken
  · cases step

/-- An expiry that is looked up before the timer is in the map is not found. -/
theorem TimerRace.Intact.lookup (intact : race.Intact timer)
    (step : timerStep timer race .lookup = some next) :
    Unraced race .lookup ∧ next.Intact timer ∨ ¬ Unraced race .lookup ∧ next.Broken timer := by
  obtain ⟨state, epoll, setup, expiry⟩ := race
  obtain ⟨client, noClient, registered, phase⟩ := intact
  simp only at client noClient registered phase
  generalize entryEq : state.timers.map timer.timerfd = mapped,
    armedEq : epoll.armed timer.timerfd = armed at phase
  cases phase with
  | early =>
      simp only [timerStep, entryEq] at step
      cases step
      rw [unraced_lookup]
      exact .inr ⟨by simp, .inl rfl, by simp [armedEq], .inl rfl⟩
  | woken =>
      simp only [timerStep, entryEq] at step
      cases step
      refine .inl ⟨unraced_lookup.mpr rfl, client, noClient, registered, ?_⟩
      simp only [entryEq, armedEq]
      exact .found
  | asked | created | added | finished | found => cases step

/-- The handling of an expiry that was looked up. -/
theorem TimerRace.Intact.handle (intact : race.Intact timer) {sys : Sys}
    (step : timerStep timer race (.handle sys) = some next) :
    Unraced race (.handle sys) ∧ next.Intact timer ∨
      ¬ Unraced race (.handle sys) ∧ next.Broken timer := by
  obtain ⟨state, epoll, setup, expiry⟩ := race
  have differs := intact.differs
  obtain ⟨⟨client, present, same, held, set⟩, noClient, registered, phase⟩ := intact
  simp only at present same held set noClient registered phase
  cases expiry with
  | idle | woken | unknown =>
      first
      | cases step
      | cases phase
  | found entry =>
      simp only [timerStep, Option.map_eq_some_iff] at step
      obtain ⟨after, handled, rfl⟩ := step
      generalize entryEq : state.timers.map timer.timerfd = mapped,
        armedEq : epoll.armed timer.timerfd = armed at phase
      cases phase
      rcases handleTimer_ends epoll present handled with
        ⟨sent, clients, timers, armedNow⟩ | ⟨unsent, clients, armedNow⟩
      · refine .inl ⟨⟨by simp, ?_⟩, ?_⟩
        · rintro sys' entry ⟨⟩ -
          exact sent
        · rw [armedNow]
          refine ⟨⟨client, by rw [clients, present], same, held, set⟩,
            by rw [clients, noClient], ?_, ?_⟩
          · rwa [Epoll.mod_other differs]
          · rw [timers, entryEq, Epoll.mod_self (by simp [armedEq])]
            exact .finished
      · refine .inr ⟨fun unraced => unsent (unraced.2 sys timer rfl rfl), ?_⟩
        rw [armedNow]
        exact TimerRace.broken_of_removed differs present same (set (by simp)) armedEq clients

/-- A step that is not raced keeps the race intact, another one breaks it. -/
theorem TimerRace.Intact.step (intact : race.Intact timer) {action : TimerAction}
    (step : timerStep timer race action = some next) :
    Unraced race action ∧ next.Intact timer ∨
      ¬ Unraced race action ∧ next.Broken timer := by
  cases action with
  | createTimer => exact .inl ⟨unraced_of_ne (by simp) (by simp), intact.createTimer step⟩
  | addEpoll => exact .inl ⟨unraced_of_ne (by simp) (by simp), intact.addEpoll step⟩
  | addMap => exact .inl ⟨unraced_of_ne (by simp) (by simp), intact.addMap step⟩
  | expire => exact .inl ⟨unraced_of_ne (by simp) (by simp), intact.expire step⟩
  | lookup => exact intact.lookup step
  | handle sys => exact intact.handle step

theorem TimerRace.Broken.step (broken : race.Broken timer) {action : TimerAction}
    (step : timerStep timer race action = some next) : next.Broken timer := by
  obtain ⟨state, epoll, setup, expiry⟩ := race
  obtain ⟨begun, deaf, lost⟩ := broken
  simp only at begun deaf lost
  cases action with
  | createTimer =>
      rcases begun with rfl | rfl <;> cases step
  | addEpoll =>
      rcases begun with rfl | rfl <;> cases step
  | addMap =>
      rcases begun with rfl | rfl
      · cases step
        exact ⟨.inr rfl, deaf, lost⟩
      · cases step
  | expire =>
      simp only [timerStep, deaf, and_false, if_false] at step
      cases step
  | lookup =>
      rcases lost with rfl | ⟨rfl, -⟩ <;> cases step
  | handle sys =>
      rcases lost with rfl | ⟨rfl, -⟩
      · simp only [timerStep] at step
        split at step
        · cases step
          refine ⟨begun, ?_, .inr ⟨rfl, .inl ?_⟩⟩ <;> simp [Epoll.del]
        · cases step
      · cases step

/-! ### Every interleaving -/

/-- When both threads are done, the timer is settled exactly when nothing went wrong. -/
theorem TimerRace.settled_iff (both : race.Intact timer ∨ race.Broken timer)
    (finished : race.setup = .finished) (idle : race.expiry = .idle) :
    race.Settled timer ↔ race.Intact timer := by
  obtain ⟨state, epoll, setup, expiry⟩ := race
  simp only at finished idle
  subst finished idle
  constructor
  · rintro ⟨timed, registered, removable⟩
    rcases both with intact | ⟨-, -, lost⟩
    · exact intact
    · rcases lost with unknown | ⟨-, unregistered | ⟨present, unregistered⟩⟩
      · cases unknown
      · exact absurd unregistered registered
      · obtain ⟨client, found⟩ := Option.ne_none_iff_exists'.mp present
        simp only at unregistered
        obtain ⟨after, removed, gone⟩ := removable
        rw [Clients.delAgainst] at removed
        rw [Clients.del_removes found removed, Epoll.registered, unregistered] at gone
        cases gone.1
  · rintro ⟨⟨client, present, same, held, set⟩, noClient, registered, phase⟩
    simp only at present same held set noClient registered phase
    generalize entryEq : state.timers.map timer.timerfd = mapped,
      armedEq : epoll.armed timer.timerfd = armed at phase
    cases phase
    have timerSet : client.timer = some timer := set (by simp)
    refine ⟨entryEq, by simp [armedEq], _, Clients.del_eq _ _ _ present held, ?_⟩
    simp [present, timerSet, Epoll.registered, armedEq, Option.isSome_iff_ne_none, registered,
      Client.unregister]

/-- In every interleaving of the handler with the expiries of its timer: when the handler
has finished and no expiry is being handled, the timer is in the map and in the epoll
instance and its client can be removed, exactly when no expiry was looked up before the
timer was in the map and every heartbeat was sent. -/
theorem timer_settled_iff {actions : List TimerAction} (isNew : timer.IsNew state epoll)
    (ran : run (timerStep timer) (.start state epoll) actions = some race)
    (finished : race.setup = .finished) (idle : race.expiry = .idle) :
    race.Settled timer ↔
      EachStep Unraced (timerStep timer) (.start state epoll) actions := by
  have start : (TimerRace.start state epoll).Intact timer := TimerRace.intact_start isNew
  have both : race.Intact timer ∨ race.Broken timer := by
    refine run_preserves (fun race => race.Intact timer ∨ race.Broken timer) ?_ (.inl start) ran
    rintro race action next (intact | broken) step
    · rcases intact.step step with ⟨-, kept⟩ | ⟨-, broken⟩
      · exact .inl kept
      · exact .inr broken
    · exact .inr (broken.step step)
  have iff := run_iff Unraced (fun race => race.Intact timer ∨ race.Broken timer)
    (fun race => race.Intact timer) ?_ (.inl start) ran
  · rw [TimerRace.settled_iff both finished idle, iff, and_iff_right start]
  · rintro race action next (intact | broken) step
    · rcases intact.step step with ⟨unraced, kept⟩ | ⟨raced, broken⟩
      · exact ⟨.inl kept, iff_of_true kept ⟨intact, unraced⟩⟩
      · exact ⟨.inr broken,
          iff_of_false (fun kept => kept.not_broken broken) (fun both => raced both.2)⟩
    · have still := broken.step step
      exact ⟨.inr still, iff_of_false (fun kept => kept.not_broken still)
        (fun both => both.1.not_broken broken)⟩

/-- The timer fires once, after its handler has finished. -/
def timerInTime : List TimerAction :=
  [.createTimer, .addEpoll, .addMap, .expire, .lookup, .handle (smoothSys nothingArrived)]

/-- The timer fires before the handler has added it to the map. -/
def timerTooEarly : List TimerAction :=
  [.createTimer, .addEpoll, .expire, .lookup, .handle (smoothSys nothingArrived), .addMap]

/-- The epoll instance with the one client. -/
def connectedEpoll : Epoll := (Epoll.empty.add 5).deliver 5

theorem timer_isNew : (⟨9, 5, 10⟩ : Timer).IsNew connected connectedEpoll where
  client := ⟨.init 5, by decide, rfl, by decide⟩
  registered := by decide
  noClient := by decide
  noTimer := by decide
  notRegistered := by decide

theorem timer_settled_iff_inTime :
    ∃ race, run (timerStep ⟨9, 5, 10⟩) (.start connected connectedEpoll) timerInTime =
        some race ∧
      (race.Settled ⟨9, 5, 10⟩ ↔
        EachStep Unraced (timerStep ⟨9, 5, 10⟩) (.start connected connectedEpoll)
          timerInTime) := by
  have ran : (run (timerStep ⟨9, 5, 10⟩) (.start connected connectedEpoll) timerInTime).map
      (fun race => (race.setup, race.expiry)) = some (.finished, .idle) := by decide +kernel
  obtain ⟨race, ranEq, ends⟩ := Option.map_eq_some_iff.mp ran
  obtain ⟨finished, idle⟩ := Prod.mk.inj ends
  exact ⟨race, ranEq, timer_settled_iff timer_isNew ranEq finished idle⟩

/-- An expiry in between takes the timer out of the epoll instance for good. -/
theorem timer_not_always_settled :
    ¬ ∀ (timer : Timer) (state : ServerState) (epoll : Epoll) (actions : List TimerAction)
      (race : TimerRace), timer.IsNew state epoll →
        run (timerStep timer) (.start state epoll) actions = some race →
          race.setup = .finished → race.expiry = .idle → race.Settled timer := by
  intro always
  have ran : (run (timerStep ⟨9, 5, 10⟩) (.start connected connectedEpoll) timerTooEarly).map
      (fun race => (race.setup, race.expiry, race.epoll.armed 9)) =
        some (.finished, .idle, none) := by decide +kernel
  obtain ⟨race, ranEq, ends⟩ := Option.map_eq_some_iff.mp ran
  obtain ⟨finished, idle, unregistered⟩ : race.setup = .finished ∧ race.expiry = .idle ∧
    race.epoll.armed 9 = none := by simpa using ends
  exact (always _ _ _ _ race timer_isNew ranEq finished idle).registered unregistered

end NetworkExercises.SpeedDaemon
