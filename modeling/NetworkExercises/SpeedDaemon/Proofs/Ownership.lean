/-
Module: NetworkExercises.SpeedDaemon.Proofs.Ownership
Purpose: What an event does to the registries, and that they agree between any two
  events: dispatchers are registered for their roads, timers belong to their clients.
Main exports: Orderly, EventEffect, eventStep_effect, eventStep_consistent,
  dispatchers_registered, timers_owned
-/
import NetworkExercises.Lib.Run
import NetworkExercises.SpeedDaemon.Epoll
import NetworkExercises.SpeedDaemon.Proofs.Output
import NetworkExercises.SpeedDaemon.Proofs.Registry

namespace NetworkExercises.SpeedDaemon

open Lib

/-! ### One event -/

def ServerState.registries (state : ServerState) : Registries :=
  ⟨state.world.roads, state.clients, state.timers⟩

@[simp] theorem ServerState.registries_clients (state : ServerState) :
    state.registries.clients = state.clients := rfl

@[simp] theorem ServerState.registries_timers (state : ServerState) :
    state.registries.timers = state.timers := rfl

/-- The calls of an event on the epoll instance succeed, and a new descriptor is one
that no one uses. -/
structure Orderly (serverfd : SocketFd) (state : ServerState) (event : Event) : Prop where
  epollAdd : event.sys.epollAdd = none
  timersAdded : ∀ i, (event.sys.calls i).epollAdd = none
  timerDel : event.sys.timerDel = true
  clientDel : event.sys.clientDel = true
  accepted : event.socket = serverfd → ∀ fd, event.sys.accepted = .ok fd →
    state.registries.Unused serverfd fd
  created : ∀ client, state.clients.map event.socket = some client → client.timer = none →
    ∀ i timerfd, (event.sys.calls i).timerfd = .ok timerfd →
      state.registries.Unused serverfd timerfd

section Events

variable {F : Type} [F64 F] {serverfd : SocketFd} {state next : ServerState} {event : Event}

/-- To remove a client whose fifo has been freed is a trap. -/
theorem Clients.del_eq_none_iff {clients : Clients} {fd : SocketFd} {timers : Timers}
    {timerDel clientDel : Bool} :
    clients.del fd timers timerDel clientDel = none ↔
      ∃ client, clients.map fd = some client ∧ client.fifo = none := by
  cases found : clients.map fd with
  | none => simp [Clients.del, found]
  | some client =>
      cases held : client.fifo with
      | none => simp [Clients.del, found, Client.deinit, held]
      | some fifo => simp [Clients.del, found, Client.deinit, held]

/-- `Clients.del` of a client that is in the map and has its fifo. -/
theorem Clients.del_eq {clients : Clients} {fd : SocketFd} {client : Client} (timers : Timers)
    (timerDel clientDel : Bool) (found : clients.map fd = some client)
    (held : client.fifo ≠ none) :
    clients.del fd timers timerDel clientDel = some
      (⟨Function.update clients.map fd
          (if (client.unregister timers timerDel clientDel).2.2 then none
            else some (client.unregister timers timerDel clientDel).1)⟩,
        (client.unregister timers timerDel clientDel).2.1) := by
  obtain ⟨fifo, heldEq⟩ := Option.ne_none_iff_exists'.mp held
  simp only [Clients.del, found, Client.deinit, heldEq, Option.map_some, Option.some.injEq]
  split
  · rfl
  · rfl

theorem Clients.del_held {clients : Clients} {fd : SocketFd} {client : Client}
    {timers : Timers} {timerDel clientDel : Bool} {after : Clients × Timers}
    (found : clients.map fd = some client)
    (removed : clients.del fd timers timerDel clientDel = some after) : client.fifo ≠ none := by
  intro freed
  rw [Clients.del_eq_none_iff.mpr ⟨client, found, freed⟩] at removed
  cases removed

theorem Clients.del_found {clients : Clients} {fd : SocketFd} {client : Client}
    {timers : Timers} {after : Clients × Timers} (found : clients.map fd = some client)
    (removed : clients.del fd timers true true = some after) :
    after = (⟨Function.update clients.map fd none⟩, timers.release client.timer) := by
  rw [Clients.del_eq timers true true found (Clients.del_held found removed),
    Option.some.injEq] at removed
  rw [← removed]
  cases timerEq : client.timer with
  | none => simp [Client.unregister, timerEq, Timers.release]
  | some timer => simp [Client.unregister, timerEq, Timers.release]

variable {sys : Sys} {fd : SocketFd} {client : Client} {errorMsg : Option Bytes}
  {buf : U8BoundedArray}

/-- What a removal does to each part of the state. -/
theorem removeFd_parts (removed : removeFd sys fd client errorMsg buf state = some next) :
    state.clients.del fd state.timers sys.timerDel sys.clientDel =
        some (next.clients, next.timers) ∧
      next.world.roads = state.world.roads.release client.data ∧
      next.world.net = client.sendErrorMsg errorMsg buf sys.errorWrite state.world.net := by
  obtain ⟨⟨clients, timers⟩, deleted, rfl⟩ := Option.map_eq_some_iff.mp removed
  refine ⟨deleted, ?_, rfl⟩
  cases data : client.data with
  | dispatcher | camera | unidentified => simp [Roads.release]

theorem removeFd_eq_none_iff :
    removeFd sys fd client errorMsg buf state = none ↔
      ∃ client, state.clients.map fd = some client ∧ client.fifo = none := by
  rw [removeFd, Option.map_eq_none_iff]
  exact Clients.del_eq_none_iff

/-- A removal takes the client, its roads and its timer out of the registries. -/
theorem removeFd_registries (timerDel : sys.timerDel = true) (clientDel : sys.clientDel = true)
    (found : state.clients.map fd = some client)
    (removed : removeFd sys fd client errorMsg buf state = some next) :
    next.registries = state.registries.remove fd client := by
  obtain ⟨both, roads, -⟩ := removeFd_parts removed
  rw [timerDel, clientDel] at both
  obtain ⟨clients, timers⟩ := Prod.mk.inj (Clients.del_found found both)
  rw [ServerState.registries, roads, clients, timers]
  rfl

variable (F) in
/-- What an event does to the registries, and which calls it makes on the epoll
instance.  Where messages are handled, `handled` is the epoll instance after them. -/
inductive EventEffect (serverfd : SocketFd) (state : ServerState) (event : Event)
    (epoll : Epoll) (next : ServerState) : Epoll → Prop where
  | refused (isServer : event.socket = serverfd) (errorName : String)
      (failed : event.sys.accepted = .error errorName)
      (same : next.registries = state.registries) :
      EventEffect serverfd state event epoll next epoll
  | accepted (isServer : event.socket = serverfd) (fd : SocketFd)
      (opened : event.sys.accepted = .ok fd)
      (registries : next.registries =
        { state.registries with clients := state.clients.put fd (.init fd) }) :
      EventEffect serverfd state event epoll next ((epoll.add fd).mod serverfd)
  | unknown (notServer : event.socket ≠ serverfd)
      (noTimer : state.timers.map event.socket = none)
      (noClient : state.clients.map event.socket = none)
      (same : next.registries = state.registries) :
      EventEffect serverfd state event epoll next (epoll.del event.socket)
  | beat (notServer : event.socket ≠ serverfd) (timer : Timer)
      (found : state.timers.map event.socket = some timer)
      (same : next.registries = state.registries) :
      EventEffect serverfd state event epoll next (epoll.mod event.socket)
  | served (notServer : event.socket ≠ serverfd) (client : Client)
      (found : state.clients.map event.socket = some client) (session : Session)
      (done : handleMessages F event.sys.arrival event.sys.calls (state.session client) =
        .done session)
      (registries : next.registries = session.registries state.clients event.socket) :
      EventEffect serverfd state event epoll next
        ((handleMessagesEpoll F event.sys.arrival event.sys.calls (state.session client)
          epoll).mod event.socket)
  | removed (notServer : event.socket ≠ serverfd) (fd : SocketFd) (client : Client)
      (found : state.clients.map fd = some client)
      (own : event.socket = fd ∨
        ∃ timer, client.timer = some timer ∧ timer.timerfd = event.socket)
      (registries : next.registries = state.registries.remove fd client) :
      EventEffect serverfd state event epoll next (client.deinitEpoll true epoll)
  | failed (notServer : event.socket ≠ serverfd) (client : Client)
      (found : state.clients.map event.socket = some client) (error : ServerError)
      (session : Session)
      (raised : handleMessages F event.sys.arrival event.sys.calls (state.session client) =
        .raised error session)
      (registries : next.registries =
        (session.registries state.clients event.socket).remove event.socket session.client) :
      EventEffect serverfd state event epoll next
        (session.client.deinitEpoll true (handleMessagesEpoll F event.sys.arrival
          event.sys.calls (state.session client) epoll))

theorem acceptClient_effect (orderly : Orderly serverfd state event) (epoll : Epoll)
    (isServer : event.socket = serverfd) (step : acceptClient event.sys state = some next) :
    EventEffect F serverfd state event epoll next
      (acceptClientEpoll serverfd event.sys state epoll) := by
  unfold acceptClient at step
  unfold acceptClientEpoll
  cases accepted : event.sys.accepted with
  | error errorName =>
      rw [accepted] at step
      cases step
      exact .refused isServer errorName accepted rfl
  | ok fd =>
      rw [accepted, orderly.epollAdd] at step
      cases step
      rw [orderly.epollAdd]
      exact .accepted isServer fd accepted rfl

theorem handleTimer_effect (consistent : state.registries.Consistent serverfd)
    (orderly : Orderly serverfd state event) (epoll : Epoll)
    (notServer : event.socket ≠ serverfd) {timer : Timer}
    (found : state.timers.map event.socket = some timer)
    (step : handleTimer event timer state = some next) :
    EventEffect F serverfd state event epoll next
      (handleTimerEpoll event timer state epoll) := by
  obtain ⟨named, client, owner, set⟩ := (consistent.timed event.socket timer).mp found
  replace owner : state.clients.map timer.clientfd = some client := owner
  have keyed := consistent.keyed _ client owner
  have ownerFd : state.clients.map client.fd = some client := by
    rw [keyed]
    exact owner
  have removes : ∀ errorMsg buf net,
      removeFd event.sys client.fd client errorMsg buf
          { state with world := { state.world with net := net }, fd := client.fd } = some next →
        EventEffect F serverfd state event epoll next
          (state.clients.delEpoll client.fd event.sys.timerDel epoll) := by
    intro errorMsg buf net removed
    rw [Clients.delEpoll, ownerFd, orderly.timerDel]
    have registries :=
      removeFd_registries orderly.timerDel orderly.clientDel (by exact ownerFd) removed
    exact .removed notServer client.fd client ownerFd (.inr ⟨timer, set, named⟩) registries
  unfold handleTimer at step
  unfold handleTimerEpoll
  rw [owner] at step ⊢
  cases read : event.sys.timerRead with
  | some errorName =>
      simp only [read] at step ⊢
      exact removes _ _ state.world.net step
  | none =>
      simp only [read] at step ⊢
      split at step
      · cases step
      · next sent =>
        cases step
        rw [sent]
        exact .beat notServer timer found rfl
      · next sent =>
        rw [sent]
        exact removes _ _ _ step

theorem handleClient_effect (orderly : Orderly serverfd state event) (epoll : Epoll)
    (notServer : event.socket ≠ serverfd) {client : Client}
    (found : state.clients.map event.socket = some client)
    (step : handleClient F event client state = some next) :
    EventEffect F serverfd state event epoll next
      (handleClientEpoll F event client state epoll) := by
  unfold handleClientEpoll
  cases handleClient_cases step with
  | closed closing removed =>
      rw [if_pos closing, Clients.delEpoll, found, orderly.timerDel]
      have registries :=
        removeFd_registries orderly.timerDel orderly.clientDel (by exact found) removed
      exact .removed notServer event.socket client found (.inl rfl) registries
  | served stays session done =>
      rw [if_neg stays]
      simp only [done]
      exact .served notServer client found session done rfl
  | failed stays error session raised errorMsg buf silent removed =>
      have foundAfter : (state.afterSession event.socket session).clients.map event.socket =
          some session.client := Function.update_self ..
      rw [if_neg stays]
      simp only [raised]
      rw [Clients.delEpoll, foundAfter, orderly.timerDel]
      have registries :=
        removeFd_registries orderly.timerDel orderly.clientDel (by exact foundAfter) removed
      exact .failed notServer client found error session raised registries

/-- Every event has one of the effects. -/
theorem eventStep_effect (consistent : state.registries.Consistent serverfd)
    (orderly : Orderly serverfd state event) (epoll : Epoll)
    (step : eventStep F serverfd state event = some next) :
    EventEffect F serverfd state event epoll next
      (eventEpoll F serverfd state event epoll) := by
  unfold eventStep at step
  unfold eventEpoll
  split at step
  · next isServer =>
    rw [if_pos isServer]
    exact acceptClient_effect orderly epoll isServer step
  next notServer =>
  rw [if_neg notServer]
  cases timerFound : state.timers.map event.socket with
  | some timer =>
      rw [timerFound] at step
      exact handleTimer_effect consistent orderly epoll notServer timerFound step
  | none =>
      cases found : state.clients.map event.socket with
      | none =>
          rw [timerFound, found] at step
          cases step
          exact .unknown notServer timerFound found rfl
      | some client =>
          rw [timerFound, found] at step
          exact handleClient_effect orderly epoll notServer found step

/-- An event's messages keep the registries consistent, and a timer that is set stays
set. -/
theorem handleMessages_consistent (consistent : state.registries.Consistent serverfd)
    (orderly : Orderly serverfd state event) {client : Client}
    (found : state.clients.map event.socket = some client) {session : Session}
    (reaches : (handleMessages F event.sys.arrival event.sys.calls
      (state.session client)).Reaches session) :
    (session.registries state.clients event.socket).Consistent serverfd ∧
      ∀ timer, client.timer = some timer → session.client.timer = some timer := by
  have start : (state.session client).registries state.clients event.socket =
      state.registries := by
    have same : state.clients.put event.socket client = state.clients := by
      rw [Clients.put, ← found, Function.update_eq_self]
    simp [Session.registries, ServerState.session, ServerState.registries, same]
  refine (handleMessages_keeps (fun session =>
    (session.client.timer = none → session.timers = state.timers) ∧
      (session.registries state.clients event.socket).Consistent serverfd ∧
        ∀ timer, client.timer = some timer → session.client.timer = some timer)
    ?_ ?_ ⟨fun _ => rfl, start ▸ consistent, fun _ => id⟩ reaches).2
  · rintro session fifo ⟨untimed, held, kept⟩
    exact ⟨untimed, held.refill fifo, kept⟩
  · rintro i msg session final - ⟨untimed, held, kept⟩ handled
    obtain ⟨fdEq, registers⟩ := handleMessage_registers (orderly.timersAdded i) handled
    have fresh : session.client.timer = none → ∀ timerfd,
        (event.sys.calls i).timerfd = .ok timerfd →
          (session.registries state.clients event.socket).Unused serverfd timerfd := by
      intro none timerfd created
      have untimedBefore : client.timer = Option.none := by
        cases set : client.timer with
        | none => rfl
        | some timer =>
            rw [kept timer set] at none
            cases none
      obtain ⟨notServer, noClient, noTimer⟩ :=
        orderly.created client found untimedBefore i timerfd created
      replace noClient : state.clients.map timerfd = Option.none := noClient
      have differs : timerfd ≠ event.socket := by
        rintro rfl
        rw [noClient] at found
        cases found
      refine ⟨notServer, ?_, ?_⟩
      · simpa [Session.registries, Clients.put, differs] using noClient
      · rw [Session.registries_timers, untimed none]
        exact noTimer
    refine ⟨?_, registers.consistent held fdEq fresh, fun timer set => ?_⟩
    · intro none
      cases registers with
      | nothing _ timer _ timers | camera _ _ _ timer _ timers
        | dispatcher _ _ _ _ timer _ timers =>
          rw [timers]
          exact untimed (timer ▸ none)
      | timer _ _ _ _ _ timerEq =>
          rw [timerEq] at none
          cases none
    · have before := kept timer set
      cases registers with
      | nothing _ timer | camera _ _ _ timer | dispatcher _ _ _ _ timer =>
          rw [timer]
          exact before
      | timer free =>
          rw [free] at before
          cases before

/-- An event keeps the registries consistent. -/
theorem eventStep_consistent (consistent : state.registries.Consistent serverfd)
    (orderly : Orderly serverfd state event)
    (step : eventStep F serverfd state event = some next) :
    next.registries.Consistent serverfd := by
  have effect := eventStep_effect consistent orderly .empty step
  generalize eventEpoll F serverfd state event .empty = epoll at effect
  cases effect with
  | refused _ _ _ same | unknown _ _ _ same | beat _ _ _ same =>
      rw [same]
      exact consistent
  | accepted isServer fd opened registries =>
      rw [registries]
      exact consistent.accept (orderly.accepted isServer fd opened)
  | served _ client found session done registries =>
      rw [registries]
      exact (handleMessages_consistent consistent orderly found (.inl done)).1
  | removed _ fd client found _ registries =>
      rw [registries]
      exact consistent.remove found
  | failed _ client found error session raised registries =>
      rw [registries]
      have after := handleMessages_consistent consistent orderly found (.inr ⟨error, raised⟩)
      exact after.1.remove session.registries_client

/-- Between two events a client keeps the timer that it has. -/
theorem eventStep_timer (consistent : state.registries.Consistent serverfd)
    (orderly : Orderly serverfd state event)
    (step : eventStep F serverfd state event = some next) {fd : SocketFd}
    {client client' : Client} {timer : Timer} (before : state.clients.map fd = some client)
    (set : client.timer = some timer) (after : next.clients.map fd = some client') :
    client'.timer = some timer := by
  have same : next.clients.map fd = state.clients.map fd → client'.timer = some timer := by
    intro same
    rw [same, before] at after
    cases after
    exact set
  have effect := eventStep_effect consistent orderly .empty step
  generalize eventEpoll F serverfd state event .empty = epoll at effect
  cases effect with
  | refused _ _ _ registries | unknown _ _ _ registries | beat _ _ _ registries =>
      exact same (congrArg (fun registries => registries.clients.map fd) registries)
  | accepted isServer newfd opened registries =>
      have differs : fd ≠ newfd := by
        rintro rfl
        have unused := (orderly.accepted isServer fd opened).2.1
        rw [show state.registries.clients.map fd = some client from before] at unused
        cases unused
      apply same
      rw [show next.clients = _ from congrArg Registries.clients registries]
      exact Function.update_of_ne differs _ _
  | served _ served found session done registries =>
      rw [show next.clients = _ from congrArg Registries.clients registries] at same after
      by_cases isSocket : fd = event.socket
      · subst isSocket
        rw [found] at before
        cases before
        rw [Session.registries_client, Option.some.injEq] at after
        exact after ▸ (handleMessages_consistent consistent orderly found (.inl done)).2 timer set
      · exact same (Function.update_of_ne isSocket _ _)
  | removed _ gone served found _ registries =>
      rw [show next.clients = _ from congrArg Registries.clients registries] at same after
      by_cases isGone : fd = gone
      · simp [Registries.remove, isGone] at after
      · exact same (Function.update_of_ne isGone _ _)
  | failed _ served found error session raised registries =>
      rw [show next.clients = _ from congrArg Registries.clients registries] at same after
      by_cases isSocket : fd = event.socket
      · simp [Registries.remove, isSocket] at after
      · apply same
        simp [Registries.remove, Session.registries, Clients.put, isSocket]

/-! ### Whole runs -/

/-- Every run of orderly events leads to consistent registries. -/
theorem run_consistent {events : List Event} (start : state.registries.Consistent serverfd)
    (orderly : EachStep (Orderly serverfd) (eventStep F serverfd) state events)
    (ran : run (eventStep F serverfd) state events = some next) :
    next.registries.Consistent serverfd :=
  run_preserves_when (Orderly serverfd) (fun state => state.registries.Consistent serverfd)
    (fun _ _ _ consistent orderly step => eventStep_consistent consistent orderly step)
    start orderly ran

/-- In every run, between any two events, a descriptor is registered for a road exactly
when its client is a dispatcher that lists the road. -/
theorem dispatchers_registered {events : List Event}
    (orderly : EachStep (Orderly serverfd) (eventStep F serverfd) .init events)
    (ran : run (eventStep F serverfd) .init events = some state) (fd : SocketFd)
    (road : UInt16) :
    fd ∈ state.world.roads.dispatchers road ↔
      ∃ client disp, state.clients.map fd = some client ∧ client.data = .dispatcher disp ∧
        road ∈ disp.roads := by
  have consistent := run_consistent (.empty serverfd) orderly ran
  have listed : fd ∈ state.world.roads.dispatchers road ↔
    ∃ client, state.clients.map fd = some client ∧ client.Lists road := consistent.listed fd road
  rw [listed]
  constructor
  · rintro ⟨client, found, disp, data, member⟩
    exact ⟨client, disp, found, data, member⟩
  · rintro ⟨client, disp, found, data, member⟩
    exact ⟨client, found, disp, data, member⟩

/-- A client connects and becomes a dispatcher of road 7, which it lists twice. -/
def dispatcherEvents : List Event :=
  [⟨3, false, smoothSys nothingArrived⟩,
    ⟨5, false, smoothSys ⟨[[0x81, 2, 0, 7, 0, 7]], .wouldBlock, by decide⟩⟩]

/-- The first two events of a client are orderly. -/
theorem orderly_connected (event : Event) (socket : event.socket = 5)
    (smooth : ∃ arrival, event.sys = smoothSys arrival) : Orderly 3 connected event := by
  obtain ⟨arrival, sysEq⟩ := smooth
  refine ⟨by rw [sysEq]; rfl, by rw [sysEq]; exact fun _ => rfl, by rw [sysEq]; rfl,
    by rw [sysEq]; rfl, fun isServer => by simp [socket] at isServer, ?_⟩
  rintro client - - i timerfd created
  rw [sysEq] at created
  cases created
  exact ⟨by decide, rfl, rfl⟩

theorem orderly_start : Orderly 3 .init ⟨3, false, smoothSys nothingArrived⟩ := by
  refine ⟨rfl, fun _ => rfl, rfl, rfl, ?_, ?_⟩
  · rintro - fd ⟨⟩
    exact ⟨by decide, rfl, rfl⟩
  · rintro client ⟨⟩

theorem dispatchers_registered_twice :
    ∃ state, run (eventStep ℚ 3) .init dispatcherEvents = some state ∧
      5 ∈ state.world.roads.dispatchers 7 ∧
      (5 ∈ state.world.roads.dispatchers 7 ↔
        ∃ client disp, state.clients.map 5 = some client ∧ client.data = .dispatcher disp ∧
          7 ∈ disp.roads) := by
  have orderly : EachStep (Orderly 3) (eventStep ℚ 3) .init dispatcherEvents := by
    refine ⟨orderly_start, fun next accepted => ⟨?_, fun _ _ => trivial⟩⟩
    obtain rfl : connected = next := Option.some.inj accepted
    exact orderly_connected _ rfl ⟨_, rfl⟩
  have ran : (run (eventStep ℚ 3) .init dispatcherEvents).map
      (fun state => decide (5 ∈ state.world.roads.dispatchers 7)) = some true := by
    decide +kernel
  obtain ⟨state, ranEq, member⟩ := Option.map_eq_some_iff.mp ran
  exact ⟨state, ranEq, of_decide_eq_true member, dispatchers_registered orderly ranEq 5 7⟩

/-- In every run, between any two events: a timer is registered exactly when it is set in
its client, which is registered too; a client that has a timer keeps it as long as it is
connected; and when a client is removed, no timer of it is left. -/
theorem timers_owned {events : List Event}
    (orderly : EachStep (Orderly serverfd) (eventStep F serverfd) .init events)
    (ran : run (eventStep F serverfd) .init events = some state) :
    (∀ timerfd timer, state.timers.map timerfd = some timer ↔ timer.timerfd = timerfd ∧
        ∃ client, state.clients.map timer.clientfd = some client ∧
          client.timer = some timer) ∧
      (∀ fd client timer, state.clients.map fd = some client → client.timer = some timer →
        timer.clientfd = fd) ∧
      (∀ fd client timer, state.clients.map fd = some client → client.timer = some timer →
        ∀ later final client', EachStep (fun state event => Orderly serverfd state event ∧
            ∃ connected, state.clients.map fd = some connected)
            (eventStep F serverfd) state later →
          run (eventStep F serverfd) state later = some final →
            final.clients.map fd = some client' → client'.timer = some timer) ∧
      ∀ event next fd, Orderly serverfd state event →
        eventStep F serverfd state event = some next → next.clients.map fd = none →
          ∀ timerfd timer, next.timers.map timerfd = some timer → timer.clientfd ≠ fd := by
  have consistent := run_consistent (.empty serverfd) orderly ran
  refine ⟨consistent.timed, consistent.owned, ?_, ?_⟩
  · intro fd client timer found set later final client' stays laterRan foundAfter
    have kept := run_preserves_when _ (fun state => state.registries.Consistent serverfd ∧
        ∀ client, state.clients.map fd = some client → client.timer = some timer) ?_
      ⟨consistent, fun other otherFound => by rw [found] at otherFound; cases otherFound; exact set⟩
      stays laterRan
    · exact kept.2 client' foundAfter
    · rintro state event next ⟨consistent, timed⟩ ⟨orderly, client, connected⟩ step
      exact ⟨eventStep_consistent consistent orderly step, fun after =>
        eventStep_timer consistent orderly step connected (timed client connected)⟩
  · intro event next fd orderly step gone timerfd timer left owned
    obtain ⟨client, owner, -⟩ := (eventStep_consistent consistent orderly step).owner left
    rw [show next.registries.clients = next.clients from rfl, owned, gone] at owner
    cases owner

theorem timers_owned_heartbeat :
    ∃ state, run (eventStep ℚ 3) .init heartbeatEvents = some state ∧
      ∃ timer, state.timers.map 9 = some timer ∧ timer.timerfd = 9 ∧
        ∃ client, state.clients.map timer.clientfd = some client ∧
          client.timer = some timer := by
  have orderly : EachStep (Orderly 3) (eventStep ℚ 3) .init heartbeatEvents := by
    refine ⟨orderly_start, fun next accepted => ?_⟩
    obtain rfl : connected = next := Option.some.inj accepted
    refine ⟨orderly_connected _ rfl ⟨_, rfl⟩, fun next asked => ⟨?_, fun _ _ => trivial⟩⟩
    refine ⟨rfl, fun _ => rfl, rfl, rfl, fun isServer => by simp at isServer, ?_⟩
    intro client found
    have noClient : (eventStep ℚ 3 connected heartbeatWanted).map
        (fun state => (state.clients.map 9).isNone) = some true := by decide +kernel
    rw [asked, Option.map_some, found] at noClient
    cases noClient
  have ran : (run (eventStep ℚ 3) .init heartbeatEvents).map
      (fun state => (state.timers.map 9).isSome) = some true := by decide +kernel
  obtain ⟨state, ranEq, isSet⟩ := Option.map_eq_some_iff.mp ran
  obtain ⟨timer, found⟩ := Option.isSome_iff_exists.mp isSet
  exact ⟨state, ranEq, timer, found, ((timers_owned orderly ranEq).1 9 timer).mp found⟩

end Events

end NetworkExercises.SpeedDaemon
