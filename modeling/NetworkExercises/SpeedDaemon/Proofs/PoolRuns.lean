/-
Module: NetworkExercises.SpeedDaemon.Proofs.PoolRuns
Purpose: Any number of threads on one epoll instance: each client and each timer is armed or waits
  with one thread, each event is handled by the thread it was delivered to, and what the threads
  do together one thread would do.
Main exports: Event.Opens, Pool.Orderly, Pool.Invariant, pool_hears_once, pool_takes_turns,
  pool_runs_server
-/
import NetworkExercises.Lib.OneShot
import NetworkExercises.Lib.Refinement
import NetworkExercises.SpeedDaemon.Pool
import NetworkExercises.SpeedDaemon.Proofs.Armed
import NetworkExercises.SpeedDaemon.Proofs.Connections

namespace NetworkExercises.SpeedDaemon

open Lib

section Arithmetic

variable {F : Type} [F64 F] {serverfd : SocketFd} {state next : ServerState} {event : Event}
  {epoll : Epoll} {fd : SocketFd}

/-! ### What an event arms -/

/-- The descriptor is a new one of the event: that of a connection, or that of a timer. -/
def Event.Opens (event : Event) (serverfd : SocketFd) (state : ServerState) (fd : SocketFd) :
    Prop :=
  event.socket = serverfd ∧ event.sys.accepted = .ok fd ∨
    ∃ client, state.clients.map event.socket = some client ∧ client.timer = none ∧
      ∃ i, (event.sys.calls i).timerfd = .ok fd

theorem Epoll.mod_armed {other : SocketFd} (armed : (epoll.mod other).armed fd = some true) :
    epoll.armed fd = some true ∨ fd = other := by
  by_cases same : fd = other
  · exact .inr same
  · exact .inl (Epoll.mod_other same ▸ armed)

theorem Epoll.del_armed {other : SocketFd} (armed : (epoll.del other).armed fd = some true) :
    epoll.armed fd = some true := by
  by_cases same : fd = other
  · simp [Epoll.del, same] at armed
  · exact Epoll.del_other same ▸ armed

theorem deinitEpoll_armed {client : Client}
    (armed : (client.deinitEpoll true epoll).armed fd = some true) :
    epoll.armed fd = some true := by
  unfold Client.deinitEpoll at armed
  split at armed
  · exact Epoll.del_armed (Epoll.del_armed armed)
  · exact Epoll.del_armed armed

/-- The messages of an event arm the new timer of the client at most. -/
theorem handleMessagesEpoll_armed (orderly : Orderly serverfd state event) {client : Client}
    (found : state.clients.map event.socket = some client) {session : Session}
    (reaches : (handleMessages F event.sys.arrival event.sys.calls
      (state.session client)).Reaches session)
    (armed : (handleMessagesEpoll F event.sys.arrival event.sys.calls (state.session client)
      epoll).armed fd = some true) :
    epoll.armed fd = some true ∨ event.Opens serverfd state fd := by
  have adds := handleMessages_adds epoll orderly.timersAdded reaches
  generalize handleMessagesEpoll F event.sys.arrival event.sys.calls (state.session client)
    epoll = handled at adds armed
  cases adds with
  | nothing => exact .inl armed
  | timer free own set isNew =>
      by_cases same : fd = own.timerfd
      · exact .inr (.inr ⟨client, found, free, same ▸ isNew⟩)
      · exact .inl (Epoll.add_other same ▸ armed)

/-- An event arms its own descriptor and new ones. -/
theorem eventEpoll_armed (consistent : state.registries.Consistent serverfd)
    (orderly : Orderly serverfd state event)
    (step : eventStep F serverfd state event = some next)
    (armed : (eventEpoll F serverfd state event epoll).armed fd = some true) :
    epoll.armed fd = some true ∨ fd = event.socket ∨ event.Opens serverfd state fd := by
  have effect := eventStep_effect consistent orderly epoll step
  generalize eventEpoll F serverfd state event epoll = after at effect armed
  cases effect with
  | refused => exact .inl armed
  | accepted isServer newfd opened =>
      rcases Epoll.mod_armed armed with armed | same
      · by_cases isNew : fd = newfd
        · exact .inr (.inr (.inl ⟨isServer, isNew ▸ opened⟩))
        · exact .inl (Epoll.add_other isNew ▸ armed)
      · exact .inr (.inl (same.trans isServer.symm))
  | unknown => exact .inl (Epoll.del_armed armed)
  | beat => exact (Epoll.mod_armed armed).imp_right .inl
  | served _ client found session done =>
      rcases Epoll.mod_armed armed with armed | same
      · exact (handleMessagesEpoll_armed orderly found (.inl done) armed).imp_right .inr
      · exact .inr (.inl same)
  | removed => exact .inl (deinitEpoll_armed armed)
  | failed _ client found error session raised =>
      exact (handleMessagesEpoll_armed orderly found (.inr ⟨error, raised⟩)
        (deinitEpoll_armed armed)).imp_right .inr

/-! ### One step of a thread -/

variable {cpus : Nat} {pool after : Pool cpus} {action : PoolAction cpus}
  {actions : List (PoolAction cpus)} {worker : Fin cpus}

/-- The descriptors that are armed, and those whose events wait with a thread. -/
def Pool.shots (pool : Pool cpus) : Shots (Fin cpus) SocketFd :=
  ⟨fun fd => pool.epoll.armed fd = some true, pool.ready⟩

def PoolAction.shot : PoolAction cpus → Shot (Fin cpus) SocketFd
  | .wait worker ready => .deliver worker ready
  | .handle worker event => .finish worker event.socket

/-- The event that is handled, if any, is orderly, and no new descriptor of it is one whose event
still waits with a thread. -/
def Pool.Orderly (serverfd : SocketFd) (pool : Pool cpus) : PoolAction cpus → Prop
  | .wait _ _ => True
  | .handle worker event =>
      SpeedDaemon.Orderly serverfd (pool.stateOf worker) event ∧
        ∀ fd, event.Opens serverfd pool.state fd → ∀ worker, fd ∉ pool.ready worker

/-- The parts of a step that handles an event. -/
theorem poolStep_handle (step : poolStep F serverfd pool (.handle worker event) = some after) :
    ∃ ready, pool.ready worker = event.socket :: ready ∧
      eventStep F serverfd (pool.stateOf worker) event = some after.state ∧
      after.epoll = eventEpoll F serverfd (pool.stateOf worker) event pool.epoll ∧
      after.ready = Function.update pool.ready worker ready := by
  simp only [poolStep] at step
  split at step
  · cases step
  · next first ready waiting =>
    split at step
    · next same =>
      obtain ⟨state, stepEq, rfl⟩ := Option.map_eq_some_iff.mp step
      exact ⟨ready, same ▸ waiting, stepEq, rfl, rfl⟩
    · cases step

/-- A step of a thread delivers events, or finishes one. -/
theorem poolStep_shot (consistent : pool.state.registries.Consistent serverfd)
    (orderly : pool.Orderly serverfd action)
    (step : poolStep F serverfd pool action = some after) :
    pool.shots.Step after.shots action.shot := by
  cases action with
  | wait worker ready =>
      simp only [poolStep] at step
      split at step
      · next guard =>
        cases step
        refine .deliver worker ready guard.1 guard.2.1 guard.2.2 (fun fd armed => ?_) rfl
        replace armed : (ready.foldl Epoll.deliver pool.epoll).armed fd = some true := armed
        rw [Epoll.deliver_all] at armed
        split at armed
        · cases armed
        · next absent => exact ⟨armed, absent⟩
      · cases step
  | handle worker event =>
      obtain ⟨ready, waiting, stepEq, epollEq, readyEq⟩ := poolStep_handle step
      refine .finish worker event.socket ready waiting (fun fd armed => ?_) readyEq
      replace armed : after.epoll.armed fd = some true := armed
      rw [epollEq] at armed
      have seen : (pool.stateOf worker).registries.Consistent serverfd := consistent
      exact (eventEpoll_armed seen orderly.1 stepEq armed).imp_right
        (Or.imp_right (orderly.2 fd))

/-- The descriptor is armed, or its event waits with a thread. -/
def Pool.Heard (pool : Pool cpus) (fd : SocketFd) : Prop :=
  pool.epoll.armed fd = some true ∨ ∃ worker, fd ∈ pool.ready worker

/-- What holds in every run: no event waits twice, and all clients and timers are registered and
heard. -/
structure Pool.Invariant (serverfd : SocketFd) (pool : Pool cpus) : Prop where
  consistent : pool.state.registries.Consistent serverfd
  exclusive : pool.shots.Exclusive
  registered : ∀ fd, fd = serverfd ∨ pool.state.registries.Holds fd →
    pool.epoll.armed fd ≠ none
  heard : ∀ fd, pool.state.registries.Holds fd → pool.Heard fd

theorem Pool.invariant_init (cpus : Nat) (serverfd : SocketFd) :
    (Pool.init serverfd : Pool cpus).Invariant serverfd where
  consistent := .empty serverfd
  exclusive := Shots.exclusive_idle
  registered := by
    rintro fd (rfl | ⟨client, found⟩ | ⟨timer, found⟩)
    · simp [init]
    · cases found
    · cases found
  heard := by
    rintro fd (⟨client, found⟩ | ⟨timer, found⟩)
    · cases found
    · cases found

/-- Waiting leaves everything registered and heard. -/
theorem Pool.Invariant.wait (invariant : pool.Invariant serverfd) {ready : List SocketFd}
    (step : poolStep F serverfd pool (.wait worker ready) = some after) :
    after.Invariant serverfd := by
  have orderly : pool.Orderly serverfd (.wait worker ready) := trivial
  have exclusive := (poolStep_shot invariant.consistent orderly step).exclusive
    invariant.exclusive
  simp only [poolStep] at step
  split at step
  · next guard =>
    cases step
    refine ⟨invariant.consistent, exclusive, fun fd held => ?_, fun fd holds => ?_⟩
    · rw [Epoll.deliver_all]
      split
      · simp
      · exact invariant.registered fd held
    · by_cases member : fd ∈ ready
      · exact .inr ⟨worker, by simpa using member⟩
      · refine (invariant.heard fd holds).imp (fun armed => ?_) fun ⟨other, waiting⟩ => ?_
        · rwa [Epoll.deliver_all, if_neg member]
        · refine ⟨other, ?_⟩
          show fd ∈ Function.update pool.shots.waiting worker ready other
          refine Shots.mem_update_waiting.mpr (.inr ⟨?_, waiting⟩)
          rintro rfl
          rw [guard.1] at waiting
          cases waiting
  · cases step

/-- An event leaves the listening socket registered. -/
theorem eventEpoll_registered (consistent : state.registries.Consistent serverfd)
    (orderly : Orderly serverfd state event) (registered : epoll.armed serverfd ≠ none)
    (step : eventStep F serverfd state event = some next) :
    (eventEpoll F serverfd state event epoll).armed serverfd ≠ none := by
  by_cases isServer : event.socket = serverfd
  · rcases @acceptClientEpoll_server F _ serverfd state event epoll orderly isServer registered
      with ⟨-, armed⟩ | ⟨-, same⟩
    · rw [armed]
      simp
    · rwa [same]
  · rwa [eventEpoll_server consistent orderly isServer step]

/-- So does the handling of an event. -/
theorem Pool.Invariant.handle (invariant : pool.Invariant serverfd)
    (orderly : pool.Orderly serverfd (.handle worker event))
    (step : poolStep F serverfd pool (.handle worker event) = some after) :
    after.Invariant serverfd := by
  have exclusive := (poolStep_shot invariant.consistent orderly step).exclusive
    invariant.exclusive
  obtain ⟨ready, waiting, stepEq, epollEq, readyEq⟩ := poolStep_handle step
  have consistent : (pool.stateOf worker).registries.Consistent serverfd := invariant.consistent
  have registered : ∀ fd, fd = serverfd ∨ (pool.stateOf worker).registries.Holds fd →
      pool.epoll.armed fd ≠ none := invariant.registered
  refine ⟨eventStep_consistent consistent orderly.1 stepEq, exclusive, ?_, fun fd holds => ?_⟩
  · rintro fd (rfl | holds)
    · rw [epollEq]
      exact eventEpoll_registered consistent orderly.1 (registered fd (.inl rfl)) stepEq
    · rw [epollEq]
      rcases eventEpoll_holds consistent orderly.1 registered stepEq holds with
        armed | ⟨-, before, same⟩
      · simp [armed]
      · rw [same]
        exact registered fd (.inr before)
  · rw [Pool.Heard, epollEq, readyEq]
    rcases eventEpoll_holds consistent orderly.1 registered stepEq holds with
      armed | ⟨notSocket, before, same⟩
    · exact .inl armed
    · rw [same]
      refine (invariant.heard fd before).imp_right fun ⟨other, member⟩ => ⟨other, ?_⟩
      exact (invariant.exclusive.mem_rest waiting).mpr ⟨member, notSocket⟩

theorem poolStep_invariant (invariant : pool.Invariant serverfd)
    (orderly : pool.Orderly serverfd action)
    (step : poolStep F serverfd pool action = some after) : after.Invariant serverfd := by
  cases action with
  | wait worker ready => exact invariant.wait step
  | handle worker event => exact invariant.handle orderly step

/-! ### Every run -/

theorem run_invariant
    (orderly : EachStep (Pool.Orderly serverfd) (poolStep F serverfd) (.init serverfd) actions)
    (ran : run (poolStep F serverfd) (.init serverfd) actions = some pool) :
    pool.Invariant serverfd :=
  run_preserves_when _ (Pool.Invariant serverfd)
    (fun _ _ _ invariant orderly step => poolStep_invariant invariant orderly step)
    (Pool.invariant_init cpus serverfd) orderly ran

/-- In every orderly run of any number of threads, each client and each timer is armed and waits
with no thread, or it is not armed and its event waits, once, with exactly one thread. -/
theorem pool_hears_once
    (orderly : EachStep (Pool.Orderly serverfd) (poolStep F serverfd) (.init serverfd) actions)
    (ran : run (poolStep F serverfd) (.init serverfd) actions = some pool)
    (holds : pool.state.registries.Holds fd) :
    (pool.epoll.armed fd = some true ∧ ∀ worker, fd ∉ pool.ready worker) ∨
      pool.epoll.armed fd = some false ∧
        ∃ worker, (pool.ready worker).count fd = 1 ∧
          ∀ other, fd ∈ pool.ready other → other = worker := by
  have invariant := run_invariant orderly ran
  have exclusive := invariant.exclusive
  rcases invariant.heard fd holds with armed | ⟨worker, member⟩
  · exact .inl ⟨armed, fun worker member => exclusive.disarmed worker fd member armed⟩
  · refine .inr ⟨?_, worker, List.count_eq_one_of_mem (exclusive.once worker) member,
      fun other also => exclusive.alone fd other worker also member⟩
    have disarmed : ¬ pool.epoll.armed fd = some true := exclusive.disarmed worker fd member
    have registered := invariant.registered fd (.inr holds)
    cases found : pool.epoll.armed fd with
    | none => exact absurd found registered
    | some armed =>
        cases armed with
        | false => rfl
        | true => exact absurd found disarmed

/-- What waits with the threads after a run was delivered to them in it, and not moved since. -/
theorem run_traced
    (orderly : EachStep (Pool.Orderly serverfd) (poolStep F serverfd) (.init serverfd) actions)
    (ran : run (poolStep F serverfd) (.init serverfd) actions = some pool) :
    Shots.Traced (actions.map PoolAction.shot) pool.shots := by
  have both : pool.Invariant serverfd ∧
      Shots.Traced (([] ++ actions).map PoolAction.shot) pool.shots := by
    refine run_relates_when (Pool.Orderly serverfd) (fun past pool =>
      pool.Invariant serverfd ∧ Shots.Traced (past.map PoolAction.shot) pool.shots) ?_ []
      ⟨Pool.invariant_init cpus serverfd, Shots.traced_idle⟩ orderly ran
    rintro past pool action after ⟨invariant, traced⟩ orderly step
    refine ⟨poolStep_invariant invariant orderly step, ?_⟩
    rw [List.map_append]
    exact (poolStep_shot invariant.consistent orderly step).traced invariant.exclusive traced
  exact both.2

/-- In every orderly run of any number of threads, each event is handled by the thread that it
was delivered to, and since then no thread was given or has handled an event of the same
descriptor. -/
theorem pool_takes_turns {front back : List (PoolAction cpus)}
    (orderly : EachStep (Pool.Orderly serverfd) (poolStep F serverfd) (.init serverfd)
      (front ++ .handle worker event :: back))
    (ran : run (poolStep F serverfd) (.init serverfd) (front ++ .handle worker event :: back) =
      some pool) :
    ∃ before ready between, front = before ++ .wait worker ready :: between ∧
      event.socket ∈ ready ∧ ∀ action ∈ between, ¬ action.shot.Moves event.socket := by
  obtain ⟨middle, ranFront, ranBack⟩ := run_append_eq_some.mp ran
  obtain ⟨next, step, -⟩ := run_cons_eq_some.mp ranBack
  obtain ⟨ready, waiting, -⟩ := poolStep_handle step
  have member : event.socket ∈ middle.shots.waiting worker := by
    rw [show middle.shots.waiting worker = _ from waiting]
    exact List.mem_cons_self
  have traced := run_traced (orderly.of_append ranFront).1 ranFront
  obtain ⟨past, keys, later, split, among, unmoved⟩ := (traced worker event.socket).mp member
  obtain ⟨before, rest, rfl, -, restEq⟩ := List.map_eq_append_iff.mp split
  obtain ⟨delivery, between, rfl, delivered, rfl⟩ := List.map_eq_cons_iff.mp restEq
  cases delivery with
  | handle => cases delivered
  | wait other given =>
      cases delivered
      exact ⟨before, keys, between, rfl, among, fun action inside =>
        unmoved action.shot (List.mem_map_of_mem inside)⟩

/-! ### One thread instead of many -/

/-- The event that the action handles, if any. -/
def PoolAction.handled : PoolAction cpus → List Event
  | .wait _ _ => []
  | .handle _ event => [event]

/-- When a new connection is added without an error, `thr_ctx.fd` does not matter. -/
theorem eventStep_withFd (added : event.sys.epollAdd = none)
    (step : eventStep F serverfd state event = some next) (fd : SocketFd) :
    ∃ last, eventStep F serverfd { state with fd := fd } event = some { next with fd := last } := by
  unfold eventStep at step ⊢
  split at step
  · next isServer =>
    rw [if_pos isServer]
    unfold acceptClient at step ⊢
    simp only [added] at step ⊢
    split at step <;> cases step <;> exact ⟨fd, rfl⟩
  next notServer =>
  rw [if_neg notServer]
  cases timerFound : state.timers.map event.socket with
  | some timer =>
      simp only [timerFound] at step ⊢
      unfold handleTimer at step ⊢
      split at step
      · next gone =>
        cases step
        simp only [gone]
        exact ⟨fd, rfl⟩
      · next client owner =>
        simp only [owner]
        exact ⟨next.fd, step⟩
  | none =>
      cases found : state.clients.map event.socket with
      | none =>
          simp only [timerFound, found] at step ⊢
          cases step
          exact ⟨fd, rfl⟩
      | some client =>
          simp only [timerFound, found] at step ⊢
          exact ⟨next.fd, step⟩

/-- What a thread does is what one thread does with the event, or nothing. -/
theorem poolStep_handled (orderly : pool.Orderly serverfd action)
    (step : poolStep F serverfd pool action = some after) (fd : SocketFd) :
    EachStep (Orderly serverfd) (eventStep F serverfd) { pool.state with fd := fd }
        action.handled ∧
      ∃ next, run (eventStep F serverfd) { pool.state with fd := fd } action.handled = some next ∧
        ∃ last, next = { after.state with fd := last } := by
  cases action with
  | wait worker ready =>
      simp only [poolStep] at step
      split at step
      · cases step
        exact ⟨trivial, _, rfl, fd, rfl⟩
      · cases step
  | handle worker event =>
      obtain ⟨ready, -, stepEq, -⟩ := poolStep_handle step
      obtain ⟨last, served⟩ := eventStep_withFd orderly.1.epollAdd stepEq fd
      refine ⟨⟨?_, fun _ _ => trivial⟩, _, run_cons_eq_some.mpr ⟨_, served, rfl⟩, last, rfl⟩
      exact ⟨orderly.1.epollAdd, orderly.1.timersAdded, orderly.1.timerDel, orderly.1.clientDel,
        orderly.1.accepted, orderly.1.created⟩

/-- What the threads handle in an orderly run is, one event after the other, an orderly run of the
loop in one thread, which leaves the same cars, roads, tickets, connections, clients and
timers. -/
theorem pool_runs_server
    (orderly : EachStep (Pool.Orderly serverfd) (poolStep F serverfd) (.init serverfd) actions)
    (ran : run (poolStep F serverfd) (.init serverfd) actions = some pool) :
    EachStep (Orderly serverfd) (eventStep F serverfd) .init
        (actions.flatMap PoolAction.handled) ∧
      ∃ fd, run (eventStep F serverfd) .init (actions.flatMap PoolAction.handled) =
        some { pool.state with fd := fd } := by
  have simulates : ∀ (pool : Pool cpus) (server : ServerState) action after,
      (∃ fd, server = { pool.state with fd := fd }) → pool.Orderly serverfd action →
        poolStep F serverfd pool action = some after →
          EachStep (Orderly serverfd) (eventStep F serverfd) server action.handled ∧
            ∃ next, run (eventStep F serverfd) server action.handled = some next ∧
              ∃ last, next = { after.state with fd := last } := by
    rintro pool _ action after ⟨fd, rfl⟩ orderly step
    exact poolStep_handled orderly step fd
  obtain ⟨each, _, served, fd, rfl⟩ := run_simulates_each (fun _ : Pool cpus => PoolAction.handled)
    (Pool.Orderly serverfd) (Orderly serverfd)
    (fun pool server => ∃ fd, server = { pool.state with fd := fd }) simulates ⟨0, rfl⟩ orderly ran
  rw [emissions_eq_flatMap PoolAction.handled ran] at each served
  exact ⟨each, fd, served⟩

end Arithmetic

section TwoThreads

/-- One thread accepts two connections, the other one handles the bytes of the first. -/
def twoThreads : List (PoolAction 2) :=
  [.wait 0 [3], .handle 0 (opening 5), .wait 1 [5], .wait 0 [3], .handle 0 (opening 6),
    .handle 1 (bytesOn 5 [0x81, 1, 0, 7] (by decide))]

/-- The new descriptors belong to no client and no timer, and wait with no thread. -/
def Pool.Spare (pool : Pool 2) (event : Event) : Prop :=
  (pool.state.Spare 9 ∧ (event.socket = 3 → event.sys.accepted ≠ .ok 3 ∧
    ∀ fd ∈ event.sys.accepted.toOption, pool.state.Spare fd)) ∧
  (∀ worker, 9 ∉ pool.ready worker) ∧ (event.socket = 3 →
    ∀ fd ∈ event.sys.accepted.toOption, ∀ worker, fd ∉ pool.ready worker)

instance (pool : Pool 2) (event : Event) : Decidable (pool.Spare event) :=
  inferInstanceAs (Decidable (_ ∧ _))

theorem orderly_twoThreads : EachStep (Pool.Orderly 3) (poolStep ℚ 3) (.init 3) twoThreads := by
  have spare : EachStep (fun pool action => ∀ event ∈ action.handled, pool.Spare event)
      (poolStep ℚ 3) (.init 3) twoThreads := by decide +kernel
  have smooth : ∀ action ∈ twoThreads, ∀ event ∈ action.handled, ∃ arrival fd,
      event.sys = { smoothSys arrival with accepted := .ok fd } := by
    intro action member event handled
    simp only [twoThreads, List.mem_cons, List.not_mem_nil, or_false] at member
    rcases member with rfl | rfl | rfl | rfl | rfl | rfl <;>
      simp only [PoolAction.handled, List.mem_singleton, List.not_mem_nil] at handled <;>
      exact handled ▸ ⟨_, _, rfl⟩
  refine (spare.and_forall smooth).of_invariant (fun _ => True) ?_ (fun _ _ _ _ _ _ => trivial)
    trivial
  rintro pool (⟨worker, ready⟩ | ⟨worker, event⟩) - ⟨spare, smooth⟩
  · trivial
  · have isEvent : event ∈ (PoolAction.handle worker event).handled := List.mem_singleton_self _
    obtain ⟨unused, timerFree, connectionFree⟩ := spare event isEvent
    refine ⟨orderly_smooth (smooth event isEvent) unused, ?_⟩
    obtain ⟨arrival, _, sysEq⟩ := smooth event isEvent
    rintro fd (⟨isServer, opened⟩ | ⟨client, -, -, i, created⟩)
    · exact connectionFree isServer fd (by rw [opened]; rfl)
    · rw [sysEq] at created
      obtain rfl : 9 = fd := Except.ok.inj created
      exact timerFree

/-- Before its bytes are handled, the first connection waits with the second thread only. -/
theorem pool_hears_once_twoThreads :
    ∃ pool, run (poolStep ℚ 3) (.init 3) (twoThreads.take 5) = some pool ∧
      ∃ worker, (pool.ready worker).count 5 = 1 ∧
        ∀ other, 5 ∈ pool.ready other → other = worker := by
  have ran : (run (poolStep ℚ 3) (.init 3) (twoThreads.take 5)).map (fun pool =>
      ((pool.state.clients.map 5).isSome, pool.epoll.armed 5)) = some (true, some false) := by
    decide +kernel
  obtain ⟨pool, ranEq, known⟩ := Option.map_eq_some_iff.mp ran
  obtain ⟨found, disarmed⟩ := Prod.mk.inj known
  have orderly : EachStep (Pool.Orderly 3) (poolStep ℚ 3) (.init 3) (twoThreads.take 5) :=
    (orderly_twoThreads.of_append ranEq).1
  refine ⟨pool, ranEq, ?_⟩
  rcases pool_hears_once orderly ranEq (.inl (Option.isSome_iff_exists.mp found)) with
    ⟨armed, -⟩ | ⟨-, once⟩
  · rw [disarmed] at armed
    cases armed
  · exact once

/-- The second thread handles what it was given, whatever the first did meanwhile. -/
theorem pool_takes_turns_twoThreads :
    ∃ before ready between, twoThreads.take 5 = before ++ .wait 1 ready :: between ∧
      5 ∈ ready ∧ ∀ action ∈ between, ¬ action.shot.Moves 5 := by
  obtain ⟨pool, ran⟩ := Option.isSome_iff_exists.mp
    (show (run (poolStep ℚ 3) (.init 3) twoThreads).isSome by decide +kernel)
  exact @pool_takes_turns ℚ _ 3 _ 2 pool 1 (twoThreads.take 5) [] orderly_twoThreads ran

/-- Together they have done what one thread does. -/
theorem pool_runs_server_twoThreads :
    ∃ pool fd, run (poolStep ℚ 3) (.init 3) twoThreads = some pool ∧
      run (eventStep ℚ 3) .init
        [opening 5, opening 6, bytesOn 5 [0x81, 1, 0, 7] (by decide)] =
          some { pool.state with fd := fd } := by
  obtain ⟨pool, ran⟩ := Option.isSome_iff_exists.mp
    (show (run (poolStep ℚ 3) (.init 3) twoThreads).isSome by decide +kernel)
  obtain ⟨fd, served⟩ := (pool_runs_server orderly_twoThreads ran).2
  exact ⟨pool, fd, ran, served⟩

end TwoThreads

end NetworkExercises.SpeedDaemon
