/-
Module: NetworkExercises.SpeedDaemon.Proofs.Armed
Purpose: After every event each client and each timer is armed again; the listening
  socket is, as long as no connection fails to be accepted.
Main exports: Polled.Attentive, Polled.Invariant, attentive_iff
-/
import NetworkExercises.SpeedDaemon.Proofs.Ownership

namespace NetworkExercises.SpeedDaemon

open Lib

/-! ### The epoll instance -/

namespace Epoll

variable {epoll : Epoll} {fd other : SocketFd}

@[simp] theorem add_self : (epoll.add fd).armed fd = some true := Function.update_self ..

theorem add_other (differs : other ≠ fd) : (epoll.add fd).armed other = epoll.armed other :=
  Function.update_of_ne differs ..

/-- A registered descriptor is armed by `mod`. -/
theorem mod_self (registered : epoll.armed fd ≠ none) : (epoll.mod fd).armed fd = some true := by
  unfold mod
  split
  · next missing => exact absurd missing registered
  · exact Function.update_self ..

theorem mod_other (differs : other ≠ fd) : (epoll.mod fd).armed other = epoll.armed other := by
  unfold mod
  split
  · rfl
  · exact Function.update_of_ne differs ..

theorem del_other (differs : other ≠ fd) : (epoll.del fd).armed other = epoll.armed other :=
  Function.update_of_ne differs ..

/-- The delivery of some events disarms their descriptors. -/
theorem deliver_all (ready : List SocketFd) (epoll : Epoll) (fd : SocketFd) :
    (ready.foldl deliver epoll).armed fd = if fd ∈ ready then some false else epoll.armed fd := by
  induction ready generalizing epoll with
  | nil => simp
  | cons first ready ih =>
      rw [List.foldl_cons, ih]
      by_cases later : fd ∈ ready
      · simp [later]
      · by_cases same : fd = first
        · simp [same, deliver]
        · simp [later, same, deliver]

end Epoll

/-- The removal of a client only concerns its own descriptors. -/
theorem deinitEpoll_other {client : Client} {epoll : Epoll} {other : SocketFd}
    (notClient : other ≠ client.fd)
    (notTimer : ∀ timer, client.timer = some timer → other ≠ timer.timerfd) :
    (client.deinitEpoll true epoll).armed other = epoll.armed other := by
  unfold Client.deinitEpoll
  cases set : client.timer with
  | none => exact Epoll.del_other notClient
  | some timer =>
      simp only [if_true]
      rw [Epoll.del_other notClient, Epoll.del_other (notTimer timer set)]

/-! ### The descriptors that messages add -/

section Messages

variable {F : Type} [F64 F] {session final : Session} {epoll : Epoll}

/-- The epoll instance goes with the timer of the client: either both are as before, or
a new timer is set and armed. -/
inductive AddsTimer (created : SocketFd → Prop) (before after : Option Timer) (epoll : Epoll) :
    Epoll → Prop where
  | nothing (same : after = before) : AddsTimer created before after epoll epoll
  | timer (free : before = none) (timer : Timer) (set : after = some timer)
      (isNew : created timer.timerfd) :
      AddsTimer created before after epoll (epoll.add timer.timerfd)

theorem Registers.timer_kept {errorName : String}
    (registers : Registers (.error errorName) session final) :
    final.client.timer = session.client.timer := by
  cases registers with
  | nothing _ timer | camera _ _ _ timer | dispatcher _ _ _ _ timer => exact timer
  | timer _ _ created => cases created

theorem handleWantHeartbeat_adds {calls : Calls} {interval : UInt32}
    (added : calls.epollAdd = none)
    (reaches : (handleWantHeartbeat calls interval session).Reaches final) :
    AddsTimer (fun fd => calls.timerfd = .ok fd) session.client.timer final.client.timer epoll
      (handleMessageEpoll calls (.wantHeartbeat interval) session epoll) := by
  simp only [handleWantHeartbeat] at reaches
  unfold handleMessageEpoll
  split at reaches
  · next asked =>
    rw [Outcome.raised_reaches] at reaches
    simp only [if_pos asked]
    exact .nothing (by rw [reaches])
  next unasked =>
  simp only [if_neg unasked]
  obtain ⟨notRequested, noTimer⟩ := not_or.mp unasked
  split at reaches
  · next zero =>
    rw [Outcome.done_reaches] at reaches
    rw [if_pos zero]
    exact .nothing (by rw [reaches])
  next nonzero =>
  rw [if_neg nonzero]
  unfold Client.addTimerEpoll
  unfold Client.addTimer at reaches
  rw [if_neg notRequested, if_neg noTimer] at reaches ⊢
  cases created : calls.timerfd with
  | error errorName =>
      rw [created, Outcome.map_raised, Outcome.raised_andThen, Outcome.raised_reaches] at reaches
      exact .nothing (by rw [reaches])
  | ok timerfd =>
      simp only [created, added, Outcome.map_done, Outcome.done_andThen,
        Outcome.done_reaches] at reaches
      simp only [added]
      exact .timer (by simpa using noTimer) ⟨timerfd, session.client.fd, interval.toNat⟩
        (by rw [reaches]) rfl

theorem handleMessage_adds {calls : Calls} {msg : Message} (added : calls.epollAdd = none)
    (reaches : (handleMessage F calls msg session).Reaches final) :
    AddsTimer (fun fd => calls.timerfd = .ok fd) session.client.timer final.client.timer epoll
      (handleMessageEpoll calls msg session epoll) := by
  cases msg with
  | wantHeartbeat interval => exact handleWantHeartbeat_adds added reaches
  | camera position =>
      have registers : _ ∧ Registers (.error "") session final := handleIAmCamera_registers reaches
      exact .nothing registers.2.timer_kept
  | dispatcher roads =>
      have registers : _ ∧ Registers (.error "") session final :=
        handleIAmDispatcher_registers reaches
      exact .nothing registers.2.timer_kept
  | plate seen =>
      have registers : _ ∧ Registers (.error "") session final := handlePlate_registers reaches
      exact .nothing registers.2.timer_kept
  | heartbeat | errorM | ticket =>
      rw [handleMessage, Outcome.raised_reaches] at reaches
      exact .nothing (by rw [reaches])

theorem AddsTimer.trans {created more : SocketFd → Prop} {before between after : Option Timer}
    {middle last : Epoll} (first : AddsTimer more before between epoll middle)
    (second : AddsTimer created between after middle last)
    (subset : ∀ fd, more fd → created fd) : AddsTimer created before after epoll last := by
  cases first with
  | nothing same => exact same ▸ second
  | timer free timer set isNew =>
      cases second with
      | nothing same => exact .timer free timer (same ▸ set) (subset _ isNew)
      | timer stillFree =>
          rw [set] at stillFree
          cases stillFree

theorem handleLoop_adds {calls : Nat → Calls} {i : Nat} {msgs : List Message}
    (added : ∀ i, (calls i).epollAdd = none)
    (reaches : (handleLoop F calls i msgs session).Reaches final) :
    AddsTimer (fun fd => ∃ i, (calls i).timerfd = .ok fd) session.client.timer
      final.client.timer epoll (handleLoopEpoll F calls i msgs session epoll) := by
  induction msgs generalizing i session epoll with
  | nil =>
      rw [handleLoop, Outcome.done_reaches] at reaches
      exact .nothing (by rw [reaches])
  | cons msg msgs ih =>
      rw [handleLoop] at reaches
      have first : ∀ middle, (handleMessage F (calls i) msg session).Reaches middle →
          AddsTimer (fun fd => (calls i).timerfd = .ok fd) session.client.timer
            middle.client.timer epoll (handleMessageEpoll (calls i) msg session epoll) :=
        fun middle => handleMessage_adds (added i)
      simp only [handleLoopEpoll]
      rcases Outcome.andThen_reaches reaches with ⟨error, failed⟩ | ⟨middle, handled, rest⟩
      · rw [failed]
        exact (first final (.inr ⟨error, failed⟩)).trans (.nothing rfl) fun fd created =>
          ⟨i, created⟩
      · rw [handled]
        exact (first middle (.inl handled)).trans (ih rest) fun fd created => ⟨i, created⟩

/-- The messages of an event add at most the new timer of the client. -/
theorem handleMessages_adds (epoll : Epoll) {arrival : Arrival} {calls : Nat → Calls}
    (added : ∀ i, (calls i).epollAdd = none)
    (reaches : (handleMessages F arrival calls session).Reaches final) :
    AddsTimer (fun fd => ∃ i, (calls i).timerfd = .ok fd) session.client.timer
      final.client.timer epoll (handleMessagesEpoll F arrival calls session epoll) := by
  unfold handleMessages at reaches
  unfold handleMessagesEpoll
  cases held : session.client.fifo with
  | none =>
      rw [held] at reaches
      exact absurd reaches Outcome.not_trap_reaches
  | some fifo =>
      simp only [held] at reaches ⊢
      cases received : receive fifo arrival with
      | trap =>
          rw [received] at reaches
          exact absurd reaches Outcome.not_trap_reaches
      | failed error left =>
          simp only [received, Outcome.raised_reaches] at reaches
          exact .nothing (by rw [reaches]; rfl)
      | messages msgs len left =>
          simp only [received] at reaches ⊢
          obtain ⟨looped, reached, rfl⟩ := Outcome.map_reaches reaches
          exact handleLoop_adds added reached

end Messages

/-! ### One turn of the loop -/

/-- The descriptor is that of a client or of a timer. -/
def Registries.Holds (self : Registries) (fd : SocketFd) : Prop :=
  (∃ client, self.clients.map fd = some client) ∨ ∃ timer, self.timers.map fd = some timer

/-- The descriptor is armed, or its event is still to be handled. -/
def Polled.Heard (polled : Polled) (fd : SocketFd) : Prop :=
  polled.epoll.armed fd = some true ∨ fd ∈ polled.ready

/-- The listening socket, every client and every timer is heard. -/
def Polled.Attentive (serverfd : SocketFd) (polled : Polled) : Prop :=
  ∀ fd, fd = serverfd ∨ polled.state.registries.Holds fd → polled.Heard fd

/-- What holds in every run: clients and timers are heard, and the listening socket is
registered, and disarmed by the event that is still to be handled. -/
structure Polled.Invariant (serverfd : SocketFd) (polled : Polled) : Prop where
  consistent : polled.state.registries.Consistent serverfd
  once : polled.ready.Nodup
  registered : ∀ fd, fd = serverfd ∨ polled.state.registries.Holds fd →
    polled.epoll.armed fd ≠ none
  heard : ∀ fd, polled.state.registries.Holds fd → polled.Heard fd
  delivered : serverfd ∈ polled.ready → polled.epoll.armed serverfd = some false

theorem Registries.Consistent.not_holds {serverfd : SocketFd} {registries : Registries}
    (consistent : registries.Consistent serverfd) : ¬ registries.Holds serverfd := by
  rintro (⟨client, found⟩ | ⟨timer, found⟩)
  · rw [consistent.server.1] at found
    cases found
  · rw [consistent.server.2] at found
    cases found

theorem Registries.Unused.not_holds {serverfd fd : SocketFd} {registries : Registries}
    (unused : registries.Unused serverfd fd) : ¬ registries.Holds fd := by
  rintro (⟨client, found⟩ | ⟨timer, found⟩)
  · rw [unused.2.1] at found
    cases found
  · rw [unused.2.2] at found
    cases found

/-- What is held after a removal was held before, and is neither the client nor its
timer. -/
theorem Registries.remove_holds {serverfd fd other : SocketFd} {registries : Registries}
    {client : Client} (consistent : registries.Consistent serverfd)
    (found : registries.clients.map fd = some client)
    (holds : (registries.remove fd client).Holds other) :
    registries.Holds other ∧ other ≠ fd ∧
      ∀ timer, client.timer = some timer → other ≠ timer.timerfd := by
  have mine : ∀ timer, client.timer = some timer →
      registries.timers.map timer.timerfd = some timer := by
    intro timer set
    refine (consistent.timed _ _).mpr ⟨rfl, client, ?_, set⟩
    rw [consistent.owned fd client timer found set]
    exact found
  rcases holds with ⟨holder, after⟩ | ⟨timer, after⟩
  · have differs : other ≠ fd := by
      rintro rfl
      simp [remove] at after
    have before : registries.clients.map other = some holder := by
      simpa [remove, differs] using after
    refine ⟨.inl ⟨holder, before⟩, differs, ?_⟩
    rintro timer set rfl
    have spare := consistent.apart _ holder before
    rw [mine timer set] at spare
    cases spare
  · obtain ⟨notMine, before⟩ := (remove_timed consistent found other timer).mp after
    refine ⟨.inr ⟨timer, before⟩, ?_, ?_⟩
    · rintro rfl
      have spare := consistent.apart _ client found
      rw [before] at spare
      cases spare
    · rintro own set rfl
      rw [mine own set, Option.some.injEq] at before
      exact notMine (before ▸ consistent.owned fd client own found set)

section Events

variable {F : Type} [F64 F] {serverfd : SocketFd} {state next : ServerState} {event : Event}
  {epoll : Epoll}

/-- What is held after some messages was held before, or is the new timer. -/
theorem Session.registries_holds {session : Session} {client : Client} {fd : SocketFd}
    (consistent : state.registries.Consistent serverfd)
    (after : (session.registries state.clients event.socket).Consistent serverfd)
    (found : state.clients.map event.socket = some client)
    (holds : (session.registries state.clients event.socket).Holds fd) :
    state.registries.Holds fd ∨
      ∃ timer, session.client.timer = some timer ∧ timer.timerfd = fd ∧
        session.client.timer ≠ client.timer := by
  rcases holds with ⟨holder, held⟩ | ⟨timer, held⟩
  · by_cases same : fd = event.socket
    · exact .inl (.inl ⟨client, same ▸ found⟩)
    · refine .inl (.inl ⟨holder, ?_⟩)
      simpa [registries, Clients.put, same] using held
  · obtain ⟨named, owner, ownerFound, set⟩ := (after.timed fd timer).mp held
    by_cases same : timer.clientfd = event.socket
    · rw [same, Session.registries_client, Option.some.injEq] at ownerFound
      subst ownerFound
      by_cases kept : session.client.timer = client.timer
      · refine .inl (.inr ⟨timer, (consistent.timed fd timer).mpr ⟨named, client, ?_, ?_⟩⟩)
        · rw [same]
          exact found
        · rw [← kept, set]
      · exact .inr ⟨timer, set, named, kept⟩
    · refine .inl (.inr ⟨timer, (consistent.timed fd timer).mpr ⟨named, owner, ?_, set⟩⟩)
      simpa [registries, Clients.put, same] using ownerFound

/-- What is held after some messages is the new timer, which is armed, or was held before
and is as it was. -/
theorem handleMessagesEpoll_holds (consistent : state.registries.Consistent serverfd)
    (orderly : Orderly serverfd state event) {client : Client}
    (found : state.clients.map event.socket = some client) {session : Session}
    (reaches : (handleMessages F event.sys.arrival event.sys.calls
      (state.session client)).Reaches session) {fd : SocketFd}
    (holds : (session.registries state.clients event.socket).Holds fd) :
    (∃ timer, session.client.timer = some timer ∧ timer.timerfd = fd ∧
        (handleMessagesEpoll F event.sys.arrival event.sys.calls (state.session client)
          epoll).armed fd = some true ∧ fd ≠ event.socket) ∨
      state.registries.Holds fd ∧
        (handleMessagesEpoll F event.sys.arrival event.sys.calls (state.session client)
          epoll).armed fd = epoll.armed fd := by
  have after := (handleMessages_consistent consistent orderly found reaches).1
  have adds := handleMessages_adds epoll orderly.timersAdded reaches
  generalize handleMessagesEpoll F event.sys.arrival event.sys.calls (state.session client)
    epoll = handled at adds
  rcases Session.registries_holds consistent after found holds with held | ⟨timer, set, named, new⟩
  · cases adds with
    | nothing same => exact .inr ⟨held, rfl⟩
    | timer free own set isNew =>
        obtain ⟨i, created⟩ := isNew
        have unused := orderly.created client found free i _ created
        refine .inr ⟨held, Epoll.add_other ?_⟩
        rintro rfl
        exact unused.not_holds held
  · cases adds with
    | nothing same => exact absurd same new
    | timer free own ownSet isNew =>
        obtain ⟨i, created⟩ := isNew
        have unused := orderly.created client found free i _ created
        rw [ownSet, Option.some.injEq] at set
        subst set
        refine .inl ⟨own, ownSet, named, named ▸ Epoll.add_self, ?_⟩
        rintro rfl
        exact unused.not_holds (.inl ⟨client, named ▸ found⟩)

/-- After an event, what is held is armed, or was held before, did not have the event and
is as it was. -/
theorem eventEpoll_holds (consistent : state.registries.Consistent serverfd)
    (orderly : Orderly serverfd state event)
    (registered : ∀ fd, fd = serverfd ∨ state.registries.Holds fd → epoll.armed fd ≠ none)
    (step : eventStep F serverfd state event = some next) {fd : SocketFd}
    (holds : next.registries.Holds fd) :
    (eventEpoll F serverfd state event epoll).armed fd = some true ∨
      fd ≠ event.socket ∧ state.registries.Holds fd ∧
        (eventEpoll F serverfd state event epoll).armed fd = epoll.armed fd := by
  have effect := eventStep_effect consistent orderly epoll step
  generalize eventEpoll F serverfd state event epoll = after at effect
  cases effect with
  | refused isServer errorName failed same =>
      rw [same] at holds
      refine .inr ⟨?_, holds, rfl⟩
      rintro rfl
      exact consistent.not_holds (isServer ▸ holds)
  | accepted isServer newfd opened same =>
      have unused := orderly.accepted isServer newfd opened
      by_cases isNew : fd = newfd
      · subst isNew
        rw [Epoll.mod_other unused.1]
        exact .inl Epoll.add_self
      have before : state.registries.Holds fd := by
        rw [same] at holds
        simpa [Registries.Holds, Clients.put, isNew] using holds
      have differs : fd ≠ serverfd := by
        rintro rfl
        exact consistent.not_holds before
      rw [Epoll.mod_other differs, Epoll.add_other isNew]
      exact .inr ⟨isServer ▸ differs, before, rfl⟩
  | unknown notServer noTimer noClient same =>
      rw [same] at holds
      have differs : fd ≠ event.socket := by
        rintro rfl
        rcases holds with ⟨client, found⟩ | ⟨timer, found⟩
        · rw [ServerState.registries_clients, noClient] at found
          cases found
        · rw [ServerState.registries_timers, noTimer] at found
          cases found
      exact .inr ⟨differs, holds, Epoll.del_other differs⟩
  | beat notServer timer found same =>
      rw [same] at holds
      by_cases isSocket : fd = event.socket
      · subst isSocket
        exact .inl (Epoll.mod_self (registered _ (.inr holds)))
      · exact .inr ⟨isSocket, holds, Epoll.mod_other isSocket⟩
  | served notServer client found session done same =>
      rw [same] at holds
      have handled := @handleMessagesEpoll_holds F _ serverfd state event epoll consistent
        orderly client found session (.inl done) fd holds
      rcases handled with ⟨timer, -, -, armed, differs⟩ | ⟨before, armed⟩
      · rw [Epoll.mod_other differs]
        exact .inl armed
      by_cases isSocket : fd = event.socket
      · refine .inl ?_
        rw [← isSocket]
        apply Epoll.mod_self
        rw [armed]
        exact registered fd (.inr before)
      · rw [Epoll.mod_other isSocket]
        exact .inr ⟨isSocket, before, armed⟩
  | removed notServer gone client found own same =>
      rw [same] at holds
      obtain ⟨before, notGone, notTimer⟩ := Registries.remove_holds consistent found holds
      have keyed := consistent.keyed gone client found
      rw [deinitEpoll_other (keyed ▸ notGone) notTimer]
      refine .inr ⟨?_, before, rfl⟩
      rcases own with isGone | ⟨timer, set, named⟩
      · exact isGone ▸ notGone
      · exact named ▸ notTimer timer set
  | failed notServer client found error session raised same =>
      rw [same] at holds
      have after :=
        (handleMessages_consistent consistent orderly found (.inr ⟨error, raised⟩)).1
      obtain ⟨held, notSocket, notTimer⟩ :=
        Registries.remove_holds after session.registries_client holds
      have keyed := after.keyed _ _ session.registries_client
      rw [deinitEpoll_other (keyed ▸ notSocket) notTimer]
      have handled := @handleMessagesEpoll_holds F _ serverfd state event epoll consistent
        orderly client found session (.inr ⟨error, raised⟩) fd held
      rcases handled with ⟨timer, set, named, -, -⟩ | ⟨before, armed⟩
      · exact absurd named.symm (notTimer timer set)
      · exact .inr ⟨notSocket, before, armed⟩

/-- The handling of messages leaves the listening socket as it is. -/
theorem handleMessagesEpoll_server (orderly : Orderly serverfd state event) {client : Client}
    (found : state.clients.map event.socket = some client) {session : Session}
    (reaches : (handleMessages F event.sys.arrival event.sys.calls
      (state.session client)).Reaches session) :
    (handleMessagesEpoll F event.sys.arrival event.sys.calls (state.session client)
      epoll).armed serverfd = epoll.armed serverfd := by
  have adds := handleMessages_adds epoll orderly.timersAdded reaches
  generalize handleMessagesEpoll F event.sys.arrival event.sys.calls (state.session client)
    epoll = handled at adds
  cases adds with
  | nothing same => rfl
  | timer free own set isNew =>
      obtain ⟨i, created⟩ := isNew
      exact Epoll.add_other (orderly.created client found free i _ created).1.symm

/-- The removal of a client leaves the listening socket as it is. -/
theorem deinitEpoll_server {registries : Registries}
    (consistent : registries.Consistent serverfd) {fd : SocketFd} {client : Client}
    (found : registries.clients.map fd = some client) :
    (client.deinitEpoll true epoll).armed serverfd = epoll.armed serverfd := by
  apply deinitEpoll_other
  · rintro rfl
    rw [consistent.keyed fd client found] at consistent
    rw [consistent.server.1] at found
    cases found
  · rintro timer set rfl
    have mine : registries.timers.map timer.timerfd = some timer := by
      refine (consistent.timed _ _).mpr ⟨rfl, client, ?_, set⟩
      rw [consistent.owned fd client timer found set]
      exact found
    rw [consistent.server.2] at mine
    cases mine

/-- Only its own events touch the listening socket. -/
theorem eventEpoll_server (consistent : state.registries.Consistent serverfd)
    (orderly : Orderly serverfd state event) (notServer : event.socket ≠ serverfd)
    (step : eventStep F serverfd state event = some next) :
    (eventEpoll F serverfd state event epoll).armed serverfd = epoll.armed serverfd := by
  have effect := eventStep_effect consistent orderly epoll step
  generalize eventEpoll F serverfd state event epoll = after at effect
  cases effect with
  | refused isServer => exact absurd isServer notServer
  | accepted isServer => exact absurd isServer notServer
  | unknown => exact Epoll.del_other notServer.symm
  | beat => exact Epoll.mod_other notServer.symm
  | served _ client found session done =>
      rw [Epoll.mod_other notServer.symm]
      exact handleMessagesEpoll_server orderly found (.inl done)
  | removed _ gone client found => exact deinitEpoll_server consistent found
  | failed _ client found error session raised =>
      have after :=
        (handleMessages_consistent consistent orderly found (.inr ⟨error, raised⟩)).1
      rw [deinitEpoll_server after session.registries_client]
      exact handleMessagesEpoll_server orderly found (.inr ⟨error, raised⟩)

/-- An event of the listening socket arms it again exactly when the connection is
accepted. -/
theorem acceptClientEpoll_server (orderly : Orderly serverfd state event)
    (isServer : event.socket = serverfd) (registered : epoll.armed serverfd ≠ none) :
    (∃ fd, event.sys.accepted = .ok fd) ∧
        (eventEpoll F serverfd state event epoll).armed serverfd = some true ∨
      (¬ ∃ fd, event.sys.accepted = .ok fd) ∧
        (eventEpoll F serverfd state event epoll).armed serverfd = epoll.armed serverfd := by
  rw [eventEpoll, if_pos isServer, acceptClientEpoll]
  cases accepted : event.sys.accepted with
  | error errorName => simp
  | ok fd =>
      have unused := orderly.accepted isServer fd accepted
      have stillRegistered : (epoll.add fd).armed serverfd ≠ none := by
        rwa [Epoll.add_other unused.1.symm]
      simp [orderly.epollAdd, Epoll.mod_self stillRegistered]

end Events

/-! ### Whole runs -/

/-- The action does not fail to accept a connection. -/
def PollAction.Connects (serverfd : SocketFd) : PollAction → Prop
  | .wait _ => True
  | .handle event => event.socket = serverfd → ∃ fd, event.sys.accepted = .ok fd

/-- The event that is handled, if any, is orderly. -/
def Polled.Orderly (serverfd : SocketFd) (polled : Polled) : PollAction → Prop
  | .wait _ => True
  | .handle event => SpeedDaemon.Orderly serverfd polled.state event

section Runs

variable {F : Type} [F64 F] {serverfd : SocketFd} {polled next : Polled}

theorem Polled.invariant_init (serverfd : SocketFd) :
    (Polled.init serverfd).Invariant serverfd where
  consistent := .empty serverfd
  once := List.nodup_nil
  registered := by
    rintro fd (rfl | ⟨client, found⟩ | ⟨timer, found⟩)
    · simp [init]
    · cases found
    · cases found
  heard := by
    rintro fd (⟨client, found⟩ | ⟨timer, found⟩)
    · cases found
    · cases found
  delivered member := by cases member

/-- The listening socket decides whether all are heard. -/
theorem Polled.Invariant.attends_iff (invariant : polled.Invariant serverfd) :
    polled.Attentive serverfd ↔ polled.Heard serverfd := by
  constructor
  · exact fun attentive => attentive serverfd (.inl rfl)
  · rintro heard fd (rfl | holds)
    · exact heard
    · exact invariant.heard fd holds

/-- Waiting only takes armed descriptors, and keeps their events. -/
theorem Polled.Invariant.wait (invariant : polled.Invariant serverfd) {ready : List SocketFd}
    (step : pollStep F serverfd polled (.wait ready) = some next) :
    next.Invariant serverfd ∧ (next.Heard serverfd ↔ polled.Heard serverfd) := by
  simp only [pollStep] at step
  split at step
  · next guard =>
    cases step
    obtain ⟨idle, once, armed⟩ := guard
    have heard : ∀ fd, (Polled.mk polled.state (ready.foldl Epoll.deliver polled.epoll)
        ready).Heard fd ↔ polled.Heard fd := by
      intro fd
      by_cases member : fd ∈ ready
      · simp [Heard, member, armed fd member]
      · simp [Heard, member, idle, Epoll.deliver_all]
    refine ⟨⟨invariant.consistent, once, fun fd held => ?_, fun fd holds => ?_,
      fun member => ?_⟩, heard serverfd⟩
    · rw [Epoll.deliver_all]
      split
      · simp
      · exact invariant.registered fd held
    · exact (heard fd).mpr (invariant.heard fd holds)
    · rw [Epoll.deliver_all, if_pos member]
  · cases step

/-- The listening socket after one event. -/
theorem eventEpoll_listens {ready : List SocketFd} {state state' : ServerState} {event : Event}
    {epoll : Epoll} (consistent : state.registries.Consistent serverfd)
    (orderly : Orderly serverfd state event) (once : (event.socket :: ready).Nodup)
    (registered : epoll.armed serverfd ≠ none)
    (delivered : serverfd ∈ event.socket :: ready → epoll.armed serverfd = some false)
    (step : eventStep F serverfd state event = some state') :
    (eventEpoll F serverfd state event epoll).armed serverfd ≠ none ∧
      (serverfd ∈ ready →
        (eventEpoll F serverfd state event epoll).armed serverfd = some false) ∧
      ((eventEpoll F serverfd state event epoll).armed serverfd = some true ∨
          serverfd ∈ ready ↔
        (epoll.armed serverfd = some true ∨ serverfd ∈ event.socket :: ready) ∧
          PollAction.Connects serverfd (.handle event)) := by
  obtain ⟨notAgain, -⟩ := List.nodup_cons.mp once
  by_cases isServer : event.socket = serverfd
  · rw [isServer] at notAgain
    have disarmed := delivered (by simp [isServer])
    rcases @acceptClientEpoll_server F _ serverfd state event epoll orderly isServer registered
      with ⟨connects, armed⟩ | ⟨fails, same⟩
    · rw [armed]
      simp [PollAction.Connects, isServer, notAgain, connects]
    · rw [same, disarmed]
      simp [PollAction.Connects, isServer, notAgain, fails]
  · rw [eventEpoll_server consistent orderly isServer step]
    refine ⟨registered, fun member => delivered (List.mem_cons_of_mem _ member), ?_⟩
    simp [PollAction.Connects, isServer, Ne.symm isServer]

/-- Handling an event keeps all but the listening socket heard, and that one too unless
its connection fails. -/
theorem Polled.Invariant.handle (invariant : polled.Invariant serverfd) {event : Event}
    (orderly : SpeedDaemon.Orderly serverfd polled.state event)
    (step : pollStep F serverfd polled (.handle event) = some next) :
    next.Invariant serverfd ∧
      (next.Heard serverfd ↔ polled.Heard serverfd ∧
        PollAction.Connects serverfd (.handle event)) := by
  obtain ⟨state, epoll, queued⟩ := polled
  obtain ⟨consistent, once, registered, heard, delivered⟩ := invariant
  simp only [pollStep] at step
  cases queued with
  | nil => cases step
  | cons first rest =>
      by_cases isFirst : event.socket = first
      · subst isFirst
        simp only [if_true] at step
        obtain ⟨state', stepEq, rfl⟩ := Option.map_eq_some_iff.mp step
        obtain ⟨serverRegistered, serverDelivered, serverHeard⟩ :=
          eventEpoll_listens consistent orderly once (registered serverfd (.inl rfl)) delivered
            stepEq
        refine ⟨⟨eventStep_consistent consistent orderly stepEq, (List.nodup_cons.mp once).2,
          ?_, ?_, serverDelivered⟩, serverHeard⟩
        · rintro fd (rfl | holds)
          · exact serverRegistered
          · rcases eventEpoll_holds consistent orderly registered stepEq holds with
              armed | ⟨-, before, same⟩
            · simp only [armed, ne_eq, reduceCtorEq, not_false_eq_true]
            · simp only [same]
              exact registered fd (.inr before)
        · intro fd holds
          rcases eventEpoll_holds consistent orderly registered stepEq holds with
            armed | ⟨notSocket, before, same⟩
          · exact .inl armed
          · rcases heard fd before with armed | member
            · exact .inl (same.trans armed)
            · exact .inr (List.mem_of_ne_of_mem notSocket member)
      · simp only [if_neg isFirst] at step
        cases step

theorem pollStep_invariant (invariant : polled.Invariant serverfd) {action : PollAction}
    (orderly : polled.Orderly serverfd action)
    (step : pollStep F serverfd polled action = some next) :
    next.Invariant serverfd ∧
      (next.Heard serverfd ↔ polled.Heard serverfd ∧ action.Connects serverfd) := by
  cases action with
  | wait ready => simpa [PollAction.Connects] using invariant.wait step
  | handle event => exact invariant.handle orderly step

/-- In every run: after every event the listening socket, every client and every timer are
armed again, or have an event of their own still to be handled, exactly when no connection
failed to be accepted. -/
theorem attentive_iff {actions : List PollAction}
    (orderly : EachStep (Polled.Orderly serverfd) (pollStep F serverfd) (.init serverfd) actions)
    (ran : run (pollStep F serverfd) (.init serverfd) actions = some polled) :
    polled.Attentive serverfd ↔
      EachStep (fun _ action => action.Connects serverfd) (pollStep F serverfd)
        (.init serverfd) actions := by
  have invariant : polled.Invariant serverfd :=
    run_preserves_when _ (Polled.Invariant serverfd)
      (fun _ _ _ invariant orderly step => (pollStep_invariant invariant orderly step).1)
      (Polled.invariant_init serverfd) orderly ran
  have start : (Polled.init serverfd).Heard serverfd := .inl Epoll.add_self
  have iff := run_iff_when (Polled.Orderly serverfd) (fun _ action => action.Connects serverfd)
    (Polled.Invariant serverfd) (fun polled => polled.Heard serverfd)
    (fun _ _ _ invariant orderly step => pollStep_invariant invariant orderly step)
    (Polled.invariant_init serverfd) orderly ran
  rw [invariant.attends_iff, iff, and_iff_right start]

/-- The listening socket is ready, and its connection is accepted or not. -/
def oneConnection (accepted : Except String SocketFd) : List PollAction :=
  [.wait [3], .handle ⟨3, false, { smoothSys nothingArrived with accepted := accepted }⟩]

theorem orderly_oneConnection {accepted : Except String SocketFd}
    (fresh : ∀ fd, accepted = .ok fd → fd ≠ 3) :
    EachStep (Polled.Orderly 3) (pollStep ℚ 3) (.init 3) (oneConnection accepted) := by
  refine ⟨trivial, fun next waits => ⟨?_, fun _ _ => trivial⟩⟩
  have same : next.state = .init := by
    simp only [pollStep] at waits
    split at waits
    · cases waits
      rfl
    · cases waits
  unfold Polled.Orderly
  simp only [same]
  refine ⟨rfl, fun _ => rfl, rfl, rfl, ?_, ?_⟩
  · exact fun _ fd opened => ⟨fresh fd opened, rfl, rfl⟩
  · rintro client ⟨⟩

theorem attentive_iff_accepted :
    ∃ polled, run (pollStep ℚ 3) (.init 3) (oneConnection (.ok 5)) = some polled ∧
      polled.ready = [] ∧ (polled.Attentive 3 ↔
        EachStep (fun _ action => action.Connects 3) (pollStep ℚ 3) (.init 3)
          (oneConnection (.ok 5))) := by
  have ran : (run (pollStep ℚ 3) (.init 3) (oneConnection (.ok 5))).map
      (fun polled => polled.ready) = some [] := by decide +kernel
  obtain ⟨polled, ranEq, idle⟩ := Option.map_eq_some_iff.mp ran
  exact ⟨polled, ranEq, idle, attentive_iff (orderly_oneConnection (by simp)) ranEq⟩

/-- A connection that is aborted before it is accepted leaves the listening socket
disarmed, with no event left to handle. -/
theorem not_always_attentive :
    ¬ ∀ (actions : List PollAction) (polled : Polled),
      EachStep (Polled.Orderly 3) (pollStep ℚ 3) (.init 3) actions →
        run (pollStep ℚ 3) (.init 3) actions = some polled → polled.ready = [] →
          ∀ fd, fd = 3 ∨ polled.state.registries.Holds fd →
            polled.epoll.armed fd = some true := by
  intro always
  have ran : (run (pollStep ℚ 3) (.init 3) (oneConnection (.error "ConnectionAborted"))).map
      (fun polled => (polled.ready, polled.epoll.armed 3)) = some ([], some false) := by
    decide +kernel
  obtain ⟨polled, ranEq, deaf⟩ := Option.map_eq_some_iff.mp ran
  obtain ⟨idle, disarmed⟩ := Prod.mk.inj deaf
  have armed := always _ polled (orderly_oneConnection (by simp)) ranEq idle 3 (.inl rfl)
  rw [disarmed] at armed
  cases armed

end Runs

end NetworkExercises.SpeedDaemon
