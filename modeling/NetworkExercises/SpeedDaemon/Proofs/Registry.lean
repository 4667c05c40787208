/-
Module: NetworkExercises.SpeedDaemon.Proofs.Registry
Purpose: The registries of roads, clients and timers, and why every message and every
  removal of a client lets them agree with each other.
Main exports: Registries, Registries.Consistent, Registers, Registers.consistent,
  Registries.remove, Registries.Consistent.remove
-/
import NetworkExercises.SpeedDaemon.Proofs.Delivery
import NetworkExercises.SpeedDaemon.Proofs.Handling

namespace NetworkExercises.SpeedDaemon

open Lib

/-! ### What a message does to the registries -/

/-- At most a message gives a role to an unidentified client, or the new timer to a client
without one. -/
inductive Registers (timerfd : Except String SocketFd) (before after : Session) : Prop where
  | nothing (data : after.client.data = before.client.data)
      (timer : after.client.timer = before.client.timer)
      (roads : after.world.roads = before.world.roads) (timers : after.timers = before.timers)
  | camera (free : before.client.data = .unidentified) (camera : Camera)
      (data : after.client.data = .camera camera)
      (timer : after.client.timer = before.client.timer)
      (roads : after.world.roads = before.world.roads) (timers : after.timers = before.timers)
  | dispatcher (free : before.client.data = .unidentified) (disp : Dispatcher)
      (named : disp.fd = before.client.fd) (data : after.client.data = .dispatcher disp)
      (timer : after.client.timer = before.client.timer)
      (roads : after.world.roads = before.world.roads.addDispatcher disp)
      (timers : after.timers = before.timers)
  | timer (free : before.client.timer = none) (timer : Timer)
      (created : timerfd = .ok timer.timerfd) (owner : timer.clientfd = before.client.fd)
      (data : after.client.data = before.client.data)
      (timerEq : after.client.timer = some timer)
      (roads : after.world.roads = before.world.roads)
      (timers : after.timers = before.timers.add timer)

theorem registers_of_eq {timerfd : Except String SocketFd} {session final : Session}
    (same : final = session) :
    final.client.fd = session.client.fd ∧ Registers timerfd session final := by
  subst same
  exact ⟨rfl, .nothing rfl rfl rfl rfl⟩

section Arithmetic

variable {F : Type} [F64 F] {session final : Session} {calls : Calls}
  {timerfd : Except String SocketFd}

/-- A pass leaves the client, the roads and the timers alone. -/
theorem Session.dispatch_frame {sends : Nat → Sending}
    (reaches : (session.dispatch sends).Reaches final) :
    final.client = session.client ∧ final.world.roads = session.world.roads ∧
      final.timers = session.timers := by
  obtain ⟨pass, -, rfl⟩ := Outcome.map_reaches reaches
  exact ⟨rfl, rfl, rfl⟩

theorem handleIAmCamera_registers {msg : Message}
    (reaches : (handleIAmCamera msg session).Reaches final) :
    final.client.fd = session.client.fd ∧ Registers timerfd session final := by
  rw [handleIAmCamera] at reaches
  split at reaches
  · rw [Outcome.raised_reaches] at reaches
    exact registers_of_eq reaches
  next free =>
  unfold Client.setAsCamera at reaches
  rw [if_neg free] at reaches
  cases msg with
  | camera position =>
      rw [Outcome.done_reaches] at reaches
      rw [reaches]
      exact ⟨rfl, .camera (Client.type_eq_unidentified.mp (not_not.mp free)) _ rfl rfl rfl rfl⟩
  | errorM | plate | ticket | wantHeartbeat | heartbeat | dispatcher =>
      rw [Outcome.raised_reaches] at reaches
      exact registers_of_eq reaches

theorem handleIAmDispatcher_registers {msg : Message}
    (reaches : (handleIAmDispatcher calls msg session).Reaches final) :
    final.client.fd = session.client.fd ∧ Registers timerfd session final := by
  rw [handleIAmDispatcher] at reaches
  split at reaches
  · rw [Outcome.raised_reaches] at reaches
    exact registers_of_eq reaches
  next free =>
  split at reaches
  · rw [Outcome.raised_reaches] at reaches
    exact registers_of_eq reaches
  · next client disp made =>
    obtain ⟨named, rfl⟩ := setAsDispatcher_ok made
    obtain ⟨clientEq, roadsEq, timersEq⟩ := Session.dispatch_frame reaches
    exact ⟨by rw [clientEq], .dispatcher (Client.type_eq_unidentified.mp (not_not.mp free))
      disp named (by rw [clientEq]) (by rw [clientEq]) roadsEq timersEq⟩

theorem handleWantHeartbeat_registers {interval : UInt32} (added : calls.epollAdd = none)
    (reaches : (handleWantHeartbeat calls interval session).Reaches final) :
    final.client.fd = session.client.fd ∧ Registers calls.timerfd session final := by
  simp only [handleWantHeartbeat] at reaches
  split at reaches
  · rw [Outcome.raised_reaches] at reaches
    exact registers_of_eq reaches
  next unasked =>
  obtain ⟨notRequested, noTimer⟩ := not_or.mp unasked
  split at reaches
  · rw [Outcome.done_reaches] at reaches
    rw [reaches]
    exact ⟨rfl, .nothing rfl rfl rfl rfl⟩
  cases created : calls.timerfd with
  | error errorName =>
      simp only [Client.addTimer, created, notRequested, noTimer, if_false, Bool.false_eq_true,
        Outcome.map_raised, Outcome.raised_andThen, Outcome.raised_reaches] at reaches
      exact registers_of_eq reaches
  | ok timerfd =>
      simp only [Client.addTimer, created, added, notRequested, noTimer, if_false,
        Bool.false_eq_true, Outcome.map_done, Outcome.done_andThen,
        Outcome.done_reaches] at reaches
      rw [reaches]
      exact ⟨rfl, .timer (by simpa using noTimer) _ rfl rfl rfl rfl rfl rfl⟩

theorem handlePlate_registers {seen : Plate}
    (reaches : (handlePlate F calls seen session).Reaches final) :
    final.client.fd = session.client.fd ∧ Registers timerfd session final := by
  simp only [handlePlate] at reaches
  split at reaches
  · split at reaches
    · exact absurd reaches Outcome.not_trap_reaches
    · rw [Outcome.raised_reaches] at reaches
      exact registers_of_eq reaches
    · split at reaches
      · obtain ⟨clientEq, roadsEq, timersEq⟩ := Session.dispatch_frame reaches
        exact ⟨by rw [clientEq], .nothing (by rw [clientEq]) (by rw [clientEq]) roadsEq timersEq⟩
      · rw [Outcome.done_reaches] at reaches
        rw [reaches]
        exact ⟨rfl, .nothing rfl rfl rfl rfl⟩
  · rw [Outcome.raised_reaches] at reaches
    exact registers_of_eq reaches

/-- A message whose timer, if it makes one, can be added to the epoll instance. -/
theorem handleMessage_registers {msg : Message} (added : calls.epollAdd = none)
    (reaches : (handleMessage F calls msg session).Reaches final) :
    final.client.fd = session.client.fd ∧ Registers calls.timerfd session final := by
  cases msg with
  | camera position => exact handleIAmCamera_registers reaches
  | dispatcher roads => exact handleIAmDispatcher_registers reaches
  | wantHeartbeat interval => exact handleWantHeartbeat_registers added reaches
  | plate seen => exact handlePlate_registers reaches
  | heartbeat | errorM | ticket =>
      rw [handleMessage, Outcome.raised_reaches] at reaches
      exact registers_of_eq reaches

end Arithmetic

/-! ### Registries that agree -/

/-- The client is a dispatcher that lists the road. -/
def Client.Lists (client : Client) (road : UInt16) : Prop :=
  ∃ disp, client.data = .dispatcher disp ∧ road ∈ disp.roads

/-- The registries of the server. -/
structure Registries where
  roads : Roads
  clients : Clients
  timers : Timers

/-- The registries while the client of a descriptor is being handled. -/
def Session.registries (session : Session) (clients : Clients) (fd : SocketFd) : Registries :=
  ⟨session.world.roads, clients.put fd session.client, session.timers⟩

/-- Dispatchers are registered for the roads they list, clients and timers under their
own descriptors, and a timer exactly when it is set in its client.  No descriptor is
used twice. -/
structure Registries.Consistent (serverfd : SocketFd) (registries : Registries) : Prop where
  keyed : ∀ fd client, registries.clients.map fd = some client → client.fd = fd
  named : ∀ fd client disp, registries.clients.map fd = some client →
    client.data = .dispatcher disp → disp.fd = fd
  owned : ∀ fd client timer, registries.clients.map fd = some client →
    client.timer = some timer → timer.clientfd = fd
  listed : ∀ fd road, fd ∈ registries.roads.dispatchers road ↔
    ∃ client, registries.clients.map fd = some client ∧ client.Lists road
  timed : ∀ timerfd timer, registries.timers.map timerfd = some timer ↔
    timer.timerfd = timerfd ∧
      ∃ client, registries.clients.map timer.clientfd = some client ∧ client.timer = some timer
  apart : ∀ fd client, registries.clients.map fd = some client → registries.timers.map fd = none
  server : registries.clients.map serverfd = none ∧ registries.timers.map serverfd = none

/-- The descriptor is in use by no one. -/
def Registries.Unused (serverfd : SocketFd) (self : Registries) (fd : SocketFd) : Prop :=
  fd ≠ serverfd ∧ self.clients.map fd = none ∧ self.timers.map fd = none

namespace Registries.Consistent

variable {serverfd : SocketFd} {registries : Registries}

theorem empty (serverfd : SocketFd) :
    Consistent serverfd ⟨.empty, .empty, .empty⟩ where
  keyed _ _ found := by cases found
  named _ _ _ found := by cases found
  owned _ _ _ found := by cases found
  listed fd road := by simp [Roads.dispatchers, Roads.empty, Clients.empty]
  timed timerfd timer := by simp [Timers.empty, Clients.empty]
  apart _ _ found := by cases found
  server := ⟨rfl, rfl⟩

/-- Another entry for one client, with the roads and the timers that go with it. -/
theorem update (consistent : registries.Consistent serverfd) {fd : SocketFd}
    {entry : Option Client} {roads : Roads} {timers : Timers}
    (keyed : ∀ client, entry = some client → client.fd = fd)
    (named : ∀ client disp, entry = some client → client.data = .dispatcher disp →
      disp.fd = fd)
    (owned : ∀ client timer, entry = some client → client.timer = some timer →
      timer.clientfd = fd)
    (listedOther : ∀ other road, other ≠ fd →
      (other ∈ roads.dispatchers road ↔ other ∈ registries.roads.dispatchers road))
    (listedOwn : ∀ road, fd ∈ roads.dispatchers road ↔
      ∃ client, entry = some client ∧ client.Lists road)
    (timed : ∀ timerfd timer, timers.map timerfd = some timer ↔
      timer.clientfd = fd ∧ timer.timerfd = timerfd ∧
          (∃ client, entry = some client ∧ client.timer = some timer) ∨
        timer.clientfd ≠ fd ∧ registries.timers.map timerfd = some timer)
    (own : entry = none ∨ fd ≠ serverfd ∧ timers.map fd = none)
    (spare : ∀ other, other = serverfd ∨ (∃ client, registries.clients.map other = some client) →
      timers.map other = none) :
    Consistent serverfd ⟨roads, ⟨Function.update registries.clients.map fd entry⟩, timers⟩ where
  keyed other client found := by
    by_cases same : other = fd
    · subst same
      exact keyed client (by simpa using found)
    · exact consistent.keyed other client (by simpa [same] using found)
  named other client disp found data := by
    by_cases same : other = fd
    · subst same
      exact named client disp (by simpa using found) data
    · exact consistent.named other client disp (by simpa [same] using found) data
  owned other client timer found set := by
    by_cases same : other = fd
    · subst same
      exact owned client timer (by simpa using found) set
    · exact consistent.owned other client timer (by simpa [same] using found) set
  listed other road := by
    by_cases same : other = fd
    · subst same
      simpa using listedOwn road
    · simpa [same] using (listedOther other road same).trans (consistent.listed other road)
  timed timerfd timer := by
    rw [timed]
    by_cases same : timer.clientfd = fd
    · simp [same]
    · simpa [same] using consistent.timed timerfd timer
  apart other client found := by
    by_cases same : other = fd
    · subst same
      rcases own with nothing | ⟨-, free⟩
      · simp [nothing] at found
      · exact free
    · exact spare other (.inr ⟨client, by simpa [same] using found⟩)
  server := by
    refine ⟨?_, spare serverfd (.inl rfl)⟩
    by_cases same : serverfd = fd
    · rcases own with nothing | ⟨differs, -⟩
      · simp [same, nothing]
      · exact absurd same.symm differs
    · simpa [same] using consistent.server.1

/-- A timer belongs to a client that is registered. -/
theorem owner (consistent : registries.Consistent serverfd) {timerfd : SocketFd}
    {timer : Timer} (found : registries.timers.map timerfd = some timer) :
    ∃ client, registries.clients.map timer.clientfd = some client ∧ client.timer = some timer :=
  ((consistent.timed timerfd timer).mp found).2

/-- No descriptor of the server or of a client is a timer. -/
theorem spare (consistent : registries.Consistent serverfd) {other : SocketFd}
    (used : other = serverfd ∨ ∃ client, registries.clients.map other = some client) :
    registries.timers.map other = none := by
  rcases used with rfl | ⟨client, found⟩
  · exact consistent.server.2
  · exact consistent.apart other client found

/-- A new client has no role and no timer. -/
theorem accept (consistent : registries.Consistent serverfd) {fd : SocketFd}
    (unused : registries.Unused serverfd fd) :
    Consistent serverfd { registries with clients := registries.clients.put fd (.init fd) } := by
  obtain ⟨notServer, noClient, noTimer⟩ := unused
  refine consistent.update ?_ ?_ ?_ (fun _ _ _ => Iff.rfl) ?_ ?_
    (.inr ⟨notServer, noTimer⟩) (fun other => consistent.spare)
  · rintro client ⟨⟩
    rfl
  · rintro client disp ⟨⟩ data
    cases data
  · rintro client timer ⟨⟩ set
    cases set
  · intro road
    simp [consistent.listed, noClient, Client.Lists, Client.init]
  · intro timerfd timer
    constructor
    · intro found
      obtain ⟨client, owner, -⟩ := consistent.owner found
      refine .inr ⟨?_, found⟩
      rintro rfl
      rw [noClient] at owner
      cases owner
    · rintro (⟨-, -, client, ⟨⟩, set⟩ | ⟨-, found⟩)
      · cases set
      · exact found

end Registries.Consistent

/-! ### Messages keep the registries consistent -/

section Messages

variable {serverfd fd : SocketFd} {clients : Clients} {created : Except String SocketFd}
  {before after : Session}

theorem Session.registries_client (session : Session) :
    (session.registries clients fd).clients.map fd = some session.client :=
  Function.update_self ..

@[simp] theorem Session.registries_timers (session : Session) :
    (session.registries clients fd).timers = session.timers := rfl

/-- A client lists a road exactly when it is registered for it, before and after. -/
theorem Registers.listed (registers : Registers created before after)
    (consistent : (before.registries clients fd).Consistent serverfd) :
    (∀ disp, after.client.data = .dispatcher disp → disp.fd = fd) ∧
      (∀ other road, other ≠ fd → (other ∈ after.world.roads.dispatchers road ↔
        other ∈ before.world.roads.dispatchers road)) ∧
      ∀ road, fd ∈ after.world.roads.dispatchers road ↔ after.client.Lists road := by
  have found : (before.registries clients fd).clients.map fd = some before.client :=
    before.registries_client
  have own : ∀ road, fd ∈ before.world.roads.dispatchers road ↔ before.client.Lists road := by
    intro road
    have listed := consistent.listed fd road
    simpa [Session.registries, Clients.put] using listed
  have kept : after.client.data = before.client.data →
      after.world.roads = before.world.roads →
      (∀ disp, after.client.data = .dispatcher disp → disp.fd = fd) ∧
        (∀ other road, other ≠ fd → (other ∈ after.world.roads.dispatchers road ↔
          other ∈ before.world.roads.dispatchers road)) ∧
        ∀ road, fd ∈ after.world.roads.dispatchers road ↔ after.client.Lists road := by
    intro data roads
    refine ⟨fun disp isDisp => consistent.named fd _ disp found (data ▸ isDisp), ?_, ?_⟩
    · intro other road _
      rw [roads]
    · intro road
      rw [roads, own, Client.Lists, Client.Lists, data]
  cases registers with
  | nothing data timer roads timers => exact kept data roads
  | timer free timer created owner data timerEq roads timers => exact kept data roads
  | camera free camera data timer roads timers =>
      refine ⟨by simp [data], fun other road _ => by rw [roads], fun road => ?_⟩
      rw [roads, own]
      simp [Client.Lists, data, free]
  | dispatcher free disp named data timer roads timers =>
      rw [consistent.keyed fd _ found] at named
      refine ⟨?_, fun other road differs => ?_, fun road => ?_⟩
      · intro disp' isDisp
        rw [data] at isDisp
        cases isDisp
        exact named
      · simp [roads, addDispatcher_dispatchers, named, differs]
      · rw [roads, addDispatcher_dispatchers, own]
        simp [Client.Lists, data, free, named]

/-- A timer is set in its client exactly when it is registered, before and after. -/
theorem Registers.timed (registers : Registers created before after)
    (consistent : (before.registries clients fd).Consistent serverfd)
    (fresh : before.client.timer = none → ∀ timerfd, created = .ok timerfd →
      (before.registries clients fd).Unused serverfd timerfd) :
    (∀ timer, after.client.timer = some timer → timer.clientfd = fd) ∧
    (∀ timerfd timer, after.timers.map timerfd = some timer ↔
      timer.clientfd = fd ∧ timer.timerfd = timerfd ∧ after.client.timer = some timer ∨
        timer.clientfd ≠ fd ∧ before.timers.map timerfd = some timer) ∧
      ∀ other, (other = serverfd ∨
          ∃ client, (before.registries clients fd).clients.map other = some client) →
        after.timers.map other = none := by
  have found : (before.registries clients fd).clients.map fd = some before.client :=
    before.registries_client
  have own : ∀ timerfd timer, before.timers.map timerfd = some timer ↔
      timer.clientfd = fd ∧ timer.timerfd = timerfd ∧ before.client.timer = some timer ∨
        timer.clientfd ≠ fd ∧ before.timers.map timerfd = some timer := by
    intro timerfd timer
    by_cases same : timer.clientfd = fd
    · have timed := consistent.timed timerfd timer
      rw [same, found] at timed
      simpa [same] using timed
    · simp [same]
  have kept : after.client.timer = before.client.timer → after.timers = before.timers →
      (∀ timer, after.client.timer = some timer → timer.clientfd = fd) ∧
      (∀ timerfd timer, after.timers.map timerfd = some timer ↔
        timer.clientfd = fd ∧ timer.timerfd = timerfd ∧ after.client.timer = some timer ∨
          timer.clientfd ≠ fd ∧ before.timers.map timerfd = some timer) ∧
        ∀ other, (other = serverfd ∨
            ∃ client, (before.registries clients fd).clients.map other = some client) →
          after.timers.map other = none := by
    intro timerEq timersEq
    rw [timerEq, timersEq]
    exact ⟨fun timer => consistent.owned fd _ timer found, own, fun other => consistent.spare⟩
  cases registers with
  | nothing data timer roads timers => exact kept timer timers
  | camera free camera data timer roads timers => exact kept timer timers
  | dispatcher free disp named data timer roads timers => exact kept timer timers
  | timer free new createdEq owner data timerEq roads timers =>
      obtain ⟨notServer, noClient, noTimer⟩ := fresh free new.timerfd createdEq
      rw [consistent.keyed fd _ found] at owner
      refine ⟨fun timer set => ?_, fun timerfd timer => ?_, fun other used => ?_⟩
      · rw [timerEq] at set
        cases set
        exact owner
      · by_cases same : timerfd = new.timerfd
        · subst same
          have none : before.timers.map new.timerfd = none := noTimer
          simp only [timers, Timers.add, Function.update_self, timerEq, none,
            Option.some.injEq, reduceCtorEq, and_false, or_false]
          constructor
          · rintro rfl
            exact ⟨owner, rfl, rfl⟩
          · exact fun isNew => isNew.2.2
        · rw [timers, Timers.add, timerEq]
          simp only [Function.update_of_ne same, Option.some.injEq]
          constructor
          · intro set
            rcases (own timerfd timer).mp set with ⟨-, -, mine⟩ | others
            · rw [free] at mine
              cases mine
            · exact .inr others
          · rintro (⟨-, named, rfl⟩ | ⟨-, set⟩)
            · exact absurd named.symm same
            · exact set
      · have differs : other ≠ new.timerfd := by
          rintro rfl
          rcases used with server | ⟨client, inUse⟩
          · exact notServer server
          · rw [noClient] at inUse
            cases inUse
        simpa [timers, Timers.add, differs] using consistent.spare used

/-- One message keeps the registries consistent. -/
theorem Registers.consistent (registers : Registers created before after)
    (consistent : (before.registries clients fd).Consistent serverfd)
    (fdEq : after.client.fd = before.client.fd)
    (fresh : before.client.timer = none → ∀ timerfd, created = .ok timerfd →
      (before.registries clients fd).Unused serverfd timerfd) :
    (after.registries clients fd).Consistent serverfd := by
  have found : (before.registries clients fd).clients.map fd = some before.client :=
    before.registries_client
  obtain ⟨named, listedOther, listedOwn⟩ := registers.listed consistent
  obtain ⟨owned, timed, spare⟩ := registers.timed consistent fresh
  have whole : after.registries clients fd = ⟨after.world.roads,
      ⟨Function.update (before.registries clients fd).clients.map fd (some after.client)⟩,
      after.timers⟩ := by
    simp [Session.registries, Clients.put]
  rw [whole]
  refine consistent.update ?_ ?_ ?_ listedOther ?_ ?_ (.inr ⟨?_, ?_⟩) spare
  · rintro client ⟨⟩
    rw [fdEq, consistent.keyed fd _ found]
  · rintro client disp ⟨⟩
    exact named disp
  · rintro client timer ⟨⟩
    exact owned timer
  · simpa using listedOwn
  · simpa using timed
  · rintro rfl
    rw [consistent.server.1] at found
    cases found
  · exact spare fd (.inr ⟨_, found⟩)

/-- The fifo of a client does not matter. -/
theorem Registries.Consistent.refill {session : Session} (fifo : Option Bytes)
    (consistent : (session.registries clients fd).Consistent serverfd) :
    ((session.refill fifo).registries clients fd).Consistent serverfd :=
  have registers : Registers (.error "") session (session.refill fifo) :=
    .nothing rfl rfl rfl rfl
  registers.consistent consistent rfl (by simp)

end Messages

/-! ### Removing a client -/

/-- The roads without the dispatcher that a client is. -/
def Roads.release (self : Roads) : ClientData → Roads
  | .dispatcher disp => self.removeDispatcher disp
  | .camera _ | .unidentified => self

/-- The timers without the timer of a client. -/
def Timers.release (self : Timers) : Option Timer → Timers
  | some timer => self.del timer.timerfd
  | none => self

/-- The registries without a client, its roads and its timer. -/
def Registries.remove (self : Registries) (fd : SocketFd) (client : Client) : Registries where
  roads := self.roads.release client.data
  clients := ⟨Function.update self.clients.map fd none⟩
  timers := self.timers.release client.timer

section Removal

variable {serverfd fd : SocketFd} {registries : Registries} {client : Client}

theorem Registries.remove_listed (consistent : registries.Consistent serverfd)
    (found : registries.clients.map fd = some client) (other : SocketFd) (road : UInt16) :
    other ∈ (registries.remove fd client).roads.dispatchers road ↔
      other ≠ fd ∧ other ∈ registries.roads.dispatchers road := by
  have ownRoads : fd ∈ registries.roads.dispatchers road ↔ client.Lists road := by
    simp [consistent.listed, found]
  cases data : client.data with
  | dispatcher disp =>
      have named := consistent.named fd client disp found data
      have lists : client.Lists road ↔ road ∈ disp.roads := by simp [Client.Lists, data]
      simp only [remove, data, Roads.release, removeDispatcher_dispatchers, named]
      by_cases same : other = fd
      · subst same
        simp [ownRoads, lists]
      · simp [same]
  | camera | unidentified =>
      have lists : ¬ client.Lists road := by simp [Client.Lists, data]
      simp only [remove, data, Roads.release]
      constructor
      · refine fun registered => ⟨?_, registered⟩
        rintro rfl
        exact lists (ownRoads.mp registered)
      · exact And.right

theorem Registries.remove_timed (consistent : registries.Consistent serverfd)
    (found : registries.clients.map fd = some client) (timerfd : SocketFd) (timer : Timer) :
    (registries.remove fd client).timers.map timerfd = some timer ↔
      timer.clientfd ≠ fd ∧ registries.timers.map timerfd = some timer := by
  have own : ∀ timerfd timer, registries.timers.map timerfd = some timer →
      timer.clientfd = fd → client.timer = some timer ∧ timer.timerfd = timerfd := by
    intro timerfd timer set owned
    obtain ⟨named, owner, ownerFound, ownerTimer⟩ := (consistent.timed timerfd timer).mp set
    rw [owned, found] at ownerFound
    cases ownerFound
    exact ⟨ownerTimer, named⟩
  cases timerEq : client.timer with
  | none =>
      simp only [remove, timerEq, Timers.release]
      constructor
      · refine fun set => ⟨fun owned => ?_, set⟩
        rw [(own timerfd timer set owned).1] at timerEq
        cases timerEq
      · exact And.right
  | some mine =>
      have mineOwned := consistent.owned fd client mine found timerEq
      have mineSet : registries.timers.map mine.timerfd = some mine :=
        (consistent.timed _ _).mpr ⟨rfl, client, mineOwned ▸ found, timerEq⟩
      simp only [remove, timerEq, Timers.release, Timers.del]
      by_cases same : timerfd = mine.timerfd
      · subst same
        simp only [Function.update_self, mineSet, reduceCtorEq, Option.some.injEq, false_iff]
        rintro ⟨differs, rfl⟩
        exact differs mineOwned
      · rw [Function.update_of_ne same]
        constructor
        · refine fun set => ⟨fun owned => ?_, set⟩
          obtain ⟨isMine, named⟩ := own timerfd timer set owned
          rw [timerEq] at isMine
          cases isMine
          exact same named.symm
        · exact And.right

/-- Removing a client keeps the registries consistent. -/
theorem Registries.Consistent.remove (consistent : registries.Consistent serverfd)
    (found : registries.clients.map fd = some client) :
    (registries.remove fd client).Consistent serverfd := by
  have listed := Registries.remove_listed consistent found
  have timed := Registries.remove_timed consistent found
  have whole : registries.remove fd client = ⟨(registries.remove fd client).roads,
    ⟨Function.update registries.clients.map fd none⟩, (registries.remove fd client).timers⟩ := rfl
  rw [whole]
  refine consistent.update (by simp) (by simp) (by simp) (fun other road differs => ?_)
    (fun road => ?_) (fun timerfd timer => ?_) (.inl rfl) (fun other used => ?_)
  · simp [listed, differs]
  · simp [listed]
  · simp [timed]
  · have spare := consistent.spare used
    cases left : (registries.remove fd client).timers.map other with
    | none => rfl
    | some timer =>
        rw [((timed other timer).mp left).2] at spare
        cases spare

end Removal

end NetworkExercises.SpeedDaemon
