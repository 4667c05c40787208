/-
Module: NetworkExercises.SpeedDaemon.Proofs.Removal
Purpose: When the removal of a client leaves nothing of it in the registries, whatever the
  calls on the epoll instance give while it is set up and removed.
Main exports: Gone, Deleted, Tidy, Removing, eventStep_entry, removed_iff
-/
import NetworkExercises.SpeedDaemon.Proofs.Failures

namespace NetworkExercises.SpeedDaemon

open Lib

/-! ### A removal -/

/-- The client, its timer and its descriptor are in no registry. -/
structure Gone (fd : SocketFd) (client : Client) (state : ServerState) : Prop where
  unmapped : state.clients.map fd = none
  untimed : ∀ timer, client.timer = some timer → state.timers.map timer.timerfd = none
  unlisted : ∀ road, fd ∉ state.world.roads.dispatchers road

/-- The timer of the client, if it has one, and the client can be taken out of the epoll
instance. -/
def Deleted (sys : Sys) (client : Client) : Prop :=
  (client.timer ≠ none → sys.timerDel = true) ∧ sys.clientDel = true

/-- Clients are registered under their own descriptors, and only clients that have not been
removed, not even in vain, are registered for a road, which they list. -/
structure Tidy (roads : Roads) (clients : Clients) : Prop where
  keyed : ∀ fd client, clients.map fd = some client → client.fd = fd
  named : ∀ fd client disp, clients.map fd = some client → client.data = .dispatcher disp →
    disp.fd = fd
  listed : ∀ fd road, fd ∈ roads.dispatchers road →
    ∃ client, clients.map fd = some client ∧ client.Lists road ∧ client.fifo ≠ none

variable {roads : Roads} {clients : Clients} {fd : SocketFd} {client : Client} {sys : Sys}

theorem Client.unregister_role (client : Client) (timers : Timers) (timerDel clientDel : Bool) :
    (client.unregister timers timerDel clientDel).1.fd = client.fd ∧
      (client.unregister timers timerDel clientDel).1.data = client.data := by
  simp only [unregister]
  repeat' split
  all_goals exact ⟨rfl, rfl⟩

theorem Client.unregister_removed_iff (client : Client) (timers : Timers) (sys : Sys) :
    (client.unregister timers sys.timerDel sys.clientDel).2.2 = true ↔ Deleted sys client := by
  unfold unregister Deleted
  cases client.timer with
  | none => simp
  | some timer =>
      cases sys.timerDel with
      | true | false => simp

theorem Client.unregister_timers (timers : Timers) (deleted : Deleted sys client) :
    (client.unregister timers sys.timerDel sys.clientDel).2.1 = timers.release client.timer := by
  unfold Deleted at deleted
  unfold unregister
  cases timerEq : client.timer with
  | none => simp [Timers.release]
  | some timer =>
      rw [timerEq] at deleted
      simp [deleted.1 (by simp), Timers.release]

namespace Tidy

theorem empty : Tidy .empty .empty where
  keyed _ _ found := by cases found
  named _ _ _ found := by cases found
  listed fd road member := by simp [Roads.dispatchers, Roads.empty] at member

/-- Another entry for one client, with the roads that go with it. -/
theorem update (tidy : Tidy roads clients) {entry : Option Client} {roads' : Roads}
    (keyed : ∀ client, entry = some client → client.fd = fd)
    (named : ∀ client disp, entry = some client → client.data = .dispatcher disp → disp.fd = fd)
    (listedOther : ∀ other road, other ≠ fd → other ∈ roads'.dispatchers road →
      other ∈ roads.dispatchers road)
    (listedOwn : ∀ road, fd ∈ roads'.dispatchers road →
      ∃ client, entry = some client ∧ client.Lists road ∧ client.fifo ≠ none) :
    Tidy roads' ⟨Function.update clients.map fd entry⟩ where
  keyed other client found := by
    by_cases same : other = fd
    · subst same
      exact keyed client (by simpa using found)
    · exact tidy.keyed other client (by simpa [same] using found)
  named other client disp found data := by
    by_cases same : other = fd
    · subst same
      exact named client disp (by simpa using found) data
    · exact tidy.named other client disp (by simpa [same] using found) data
  listed other road member := by
    by_cases same : other = fd
    · subst same
      simpa using listedOwn road member
    · simpa [same] using tidy.listed other road (listedOther other road same member)

/-- A new client, in the place of one whose descriptor has been closed. -/
theorem accept (tidy : Tidy roads clients)
    (closed : ∀ client, clients.map fd = some client → client.fifo = none) :
    Tidy roads (clients.put fd (.init fd)) := by
  refine tidy.update ?_ ?_ (fun _ _ _ member => member) ?_
  · rintro client ⟨⟩
    rfl
  · rintro client disp ⟨⟩ data
    cases data
  · intro road member
    obtain ⟨client, found, -, held⟩ := tidy.listed fd road member
    exact absurd (closed client found) held

/-- Without its roads, no road lists a client. -/
theorem release_notMem (tidy : Tidy roads clients) (found : clients.map fd = some client)
    (road : UInt16) : fd ∉ (roads.release client.data).dispatchers road := by
  intro member
  cases data : client.data with
  | dispatcher disp =>
      rw [data, Roads.release, removeDispatcher_dispatchers] at member
      obtain ⟨before, kept⟩ := member
      obtain ⟨other, otherFound, ⟨disp', dispEq, lists⟩, -⟩ := tidy.listed fd road before
      rw [found] at otherFound
      cases otherFound
      rw [data] at dispEq
      cases dispEq
      exact kept ⟨(tidy.named fd client disp found data).symm, lists⟩
  | camera | unidentified =>
      rw [data, Roads.release] at member
      obtain ⟨other, otherFound, ⟨disp', dispEq, lists⟩, -⟩ := tidy.listed fd road member
      rw [found] at otherFound
      cases otherFound
      rw [data] at dispEq
      cases dispEq

end Tidy

theorem mem_of_mem_release {data : ClientData} {road : UInt16}
    (member : fd ∈ (roads.release data).dispatchers road) : fd ∈ roads.dispatchers road := by
  cases data with
  | dispatcher disp => exact ((removeDispatcher_dispatchers disp fd roads road).mp member).1
  | camera | unidentified => exact member

variable {removing after : ServerState} {errorMsg : Option Bytes} {buf : U8BoundedArray}

/-- What a removal leaves in the registries. -/
theorem removeFd_entry (found : removing.clients.map fd = some client)
    (removed : removeFd sys fd client errorMsg buf removing = some after) :
    ∃ entry : Option Client,
      after.clients = ⟨Function.update removing.clients.map fd entry⟩ ∧
      (entry = none ↔ Deleted sys client) ∧
      (∀ left, entry = some left → left.fd = client.fd ∧ left.data = client.data) ∧
      (Deleted sys client → after.timers = removing.timers.release client.timer) := by
  obtain ⟨both, -, -⟩ := removeFd_parts removed
  rw [Clients.del_eq _ _ _ found (Clients.del_held found both), Option.some.injEq] at both
  obtain ⟨clientsEq, timersEq⟩ := Prod.mk.inj both
  refine ⟨_, clientsEq.symm, ?_, fun left stays => ?_, fun deleted => ?_⟩
  · rw [← client.unregister_removed_iff removing.timers]
    simp
  · split at stays
    · cases stays
    · cases stays
      exact client.unregister_role ..
  · rw [← timersEq, Client.unregister_timers _ deleted]

/-- A removal keeps the registries tidy, whether it succeeds or not. -/
theorem removeFd_tidy (tidy : Tidy removing.world.roads removing.clients)
    (found : removing.clients.map fd = some client)
    (removed : removeFd sys fd client errorMsg buf removing = some after) :
    Tidy after.world.roads after.clients := by
  obtain ⟨-, roadsEq, -⟩ := removeFd_parts removed
  obtain ⟨entry, clientsEq, -, left, -⟩ := removeFd_entry found removed
  rw [roadsEq, clientsEq]
  refine tidy.update ?_ ?_ (fun other road _ => mem_of_mem_release) ?_
  · intro other stays
    rw [(left other stays).1, tidy.keyed fd client found]
  · intro other disp stays data
    rw [(left other stays).2] at data
    exact tidy.named fd client disp found data
  · exact fun road member => absurd member (tidy.release_notMem found road)

/-- A removal that returns succeeds if and only if both calls do. -/
theorem removeFd_gone_iff (tidy : Tidy removing.world.roads removing.clients)
    (found : removing.clients.map fd = some client)
    (removed : removeFd sys fd client errorMsg buf removing = some after) :
    Gone fd client after ↔ Deleted sys client := by
  obtain ⟨-, roadsEq, -⟩ := removeFd_parts removed
  obtain ⟨entry, clientsEq, deleted_iff, -, timersEq⟩ := removeFd_entry found removed
  have entryEq : after.clients.map fd = entry := by
    rw [clientsEq]
    exact Function.update_self ..
  constructor
  · exact fun gone => deleted_iff.mp (entryEq.symm.trans gone.unmapped)
  · intro deleted
    refine ⟨entryEq.trans (deleted_iff.mpr deleted), ?_, ?_⟩
    · intro timer set
      rw [timersEq deleted, set]
      exact Function.update_self ..
    · intro road
      rw [roadsEq]
      exact tidy.release_notMem found road

/-- A removal returns if and only if the client has its fifo. -/
theorem removeFd_returns_iff (found : removing.clients.map fd = some client) :
    (∃ after, removeFd sys fd client errorMsg buf removing = some after) ↔
      client.fifo ≠ none := by
  rw [← Option.ne_none_iff_exists', Ne, removeFd_eq_none_iff, found]
  simp

/-! ### The messages of a client -/

/-- A message leaves the role of a client and its roads alone, or it gives it a role. -/
inductive Enlists (before after : Session) : Prop where
  | nothing (data : after.client.data = before.client.data)
      (roads : after.world.roads = before.world.roads)
  | camera (free : before.client.data = .unidentified) (camera : Camera)
      (data : after.client.data = .camera camera)
      (roads : after.world.roads = before.world.roads)
  | dispatcher (free : before.client.data = .unidentified) (disp : Dispatcher)
      (named : disp.fd = before.client.fd) (data : after.client.data = .dispatcher disp)
      (roads : after.world.roads = before.world.roads.addDispatcher disp)

theorem Registers.enlists {timerfd : Except String SocketFd} {before after : Session}
    (registers : Registers timerfd before after) : Enlists before after := by
  cases registers with
  | nothing data timer roads timers => exact .nothing data roads
  | camera free camera data timer roads timers => exact .camera free camera data roads
  | dispatcher free disp named data timer roads timers =>
      exact .dispatcher free disp named data roads
  | timer free timer created owner data timerEq roads timers => exact .nothing data roads

section Arithmetic

variable {F : Type} [F64 F] {session final : Session} {state : ServerState}

/-- A message, whatever its calls give. -/
theorem handleMessage_enlists {calls : Calls} {msg : Message}
    (reaches : (handleMessage F calls msg session).Reaches final) :
    final.client.fd = session.client.fd ∧ Enlists session final := by
  have enlists : final.client.fd = session.client.fd ∧ Registers calls.timerfd session final →
      final.client.fd = session.client.fd ∧ Enlists session final :=
    And.imp_right Registers.enlists
  cases msg with
  | camera position => exact enlists (handleIAmCamera_registers reaches)
  | dispatcher roads => exact enlists (handleIAmDispatcher_registers reaches)
  | wantHeartbeat interval =>
      obtain ⟨requested, timer, timers, rfl⟩ := handleWantHeartbeat_reaches reaches
      exact ⟨rfl, .nothing rfl rfl⟩
  | plate seen => exact enlists (handlePlate_registers reaches)
  | heartbeat | errorM | ticket =>
      rw [handleMessage, Outcome.raised_reaches] at reaches
      rw [reaches]
      exact ⟨rfl, .nothing rfl rfl⟩

/-- The session of a client is tidy: the client is registered only for roads that it lists,
the others as before. -/
structure Session.Tidy (roads : Roads) (fd : SocketFd) (session : Session) : Prop where
  keyed : session.client.fd = fd
  named : ∀ disp, session.client.data = .dispatcher disp → disp.fd = fd
  others : ∀ other road, other ≠ fd → other ∈ session.world.roads.dispatchers road →
    other ∈ roads.dispatchers road
  own : ∀ road, fd ∈ session.world.roads.dispatchers road → session.client.Lists road

theorem Session.Tidy.enlists (tidy : session.Tidy roads fd)
    (fdEq : final.client.fd = session.client.fd) (enlists : Enlists session final) :
    final.Tidy roads fd := by
  have keyed := fdEq.trans tidy.keyed
  cases enlists with
  | nothing data roadsEq =>
      refine ⟨keyed, fun disp isDisp => tidy.named disp (data ▸ isDisp), ?_, fun road member => ?_⟩
      · rw [roadsEq]
        exact tidy.others
      · rw [roadsEq] at member
        rw [Client.Lists, data]
        exact tidy.own road member
  | camera free camera data roadsEq =>
      refine ⟨keyed, fun disp isDisp => ?_, ?_, fun road member => ?_⟩
      · rw [data] at isDisp
        cases isDisp
      · rw [roadsEq]
        exact tidy.others
      · rw [roadsEq] at member
        obtain ⟨disp, isDisp, -⟩ := tidy.own road member
        rw [free] at isDisp
        cases isDisp
  | dispatcher free disp named data roadsEq =>
      refine ⟨keyed, fun disp' isDisp => ?_, fun other road differs member => ?_,
        fun road member => ?_⟩
      · rw [data] at isDisp
        cases isDisp
        exact named.trans tidy.keyed
      · rw [roadsEq, addDispatcher_dispatchers] at member
        rcases member with before | ⟨isOwn, -⟩
        · exact tidy.others other road differs before
        · exact absurd (isOwn.trans (named.trans tidy.keyed)) differs
      · rw [roadsEq, addDispatcher_dispatchers] at member
        rcases member with before | ⟨-, lists⟩
        · obtain ⟨disp', isDisp, -⟩ := tidy.own road before
          rw [free] at isDisp
          cases isDisp
        · exact ⟨disp, data, lists⟩

/-- The messages of an event keep the registries tidy. -/
theorem handleMessages_tidy (tidy : Tidy state.world.roads state.clients)
    (found : state.clients.map fd = some client) {arrival : Arrival} {calls : Nat → Calls}
    (reaches : (handleMessages F arrival calls (state.session client)).Reaches session) :
    Tidy session.world.roads (state.clients.put fd session.client) := by
  have start : (state.session client).Tidy state.world.roads fd := by
    refine ⟨tidy.keyed fd client found, fun disp => tidy.named fd client disp found,
      fun _ _ _ member => member, fun road member => ?_⟩
    obtain ⟨other, otherFound, lists, -⟩ := tidy.listed fd road member
    rw [found] at otherFound
    cases otherFound
    exact lists
  have after : session.Tidy state.world.roads fd := by
    refine handleMessages_keeps (Session.Tidy state.world.roads fd) ?_ ?_ start reaches
    · rintro session fifo ⟨keyed, named, others, own⟩
      exact ⟨keyed, named, others, own⟩
    · intro i msg session final _ held handled
      obtain ⟨fdEq, enlists⟩ := handleMessage_enlists handled
      exact held.enlists fdEq enlists
  refine tidy.update ?_ ?_ after.others ?_
  · rintro client ⟨⟩
    exact after.keyed
  · rintro client disp ⟨⟩
    exact after.named disp
  · intro road member
    exact ⟨session.client, rfl, after.own road member, handleMessages_held reaches⟩

/-! ### Events -/

variable (F) in
/-- What `removeFd` is called with for the client of a descriptor: the client as it is in the
map, with some bytes written since, or as the messages of an event have left it. -/
inductive Removing (state : ServerState) (fd : SocketFd) : Client → ServerState → Prop where
  | kept (client : Client) (found : state.clients.map fd = some client) (net : Net)
      (last : SocketFd) :
      Removing state fd client
        { state with world := { state.world with net := net }, fd := last }
  | handled (before : Client) (found : state.clients.map fd = some before) (arrival : Arrival)
      (calls : Nat → Calls) (session : Session)
      (reaches : (handleMessages F arrival calls (state.session before)).Reaches session) :
      Removing state fd session.client { state.afterSession fd session with fd := fd }

theorem Removing.tidy (tidy : Tidy state.world.roads state.clients) {removing : ServerState}
    (ready : Removing F state fd client removing) :
    Tidy removing.world.roads removing.clients ∧ removing.clients.map fd = some client := by
  cases ready with
  | kept _ found => exact ⟨tidy, found⟩
  | handled before found arrival calls session reaches =>
      exact ⟨handleMessages_tidy tidy found reaches, Function.update_self ..⟩

/-- A new connection gets no descriptor of a client that is connected, and where it cannot be
added, what the thread knows of its last event is one client. -/
structure Coherent (serverfd : SocketFd) (state : ServerState) (event : Event) : Prop where
  accepted : event.socket = serverfd → ∀ fd client, event.sys.accepted = .ok fd →
    state.clients.map fd = some client → client.fifo = none
  stale : FailsToAdd serverfd event → event.sys.stale = some state.fd

variable {serverfd : SocketFd} {next : ServerState} {event : Event}

variable (F) in
/-- What an event does to the clients and the roads. -/
inductive EntryEffect (state next : ServerState) : Prop where
  | same (clients : next.clients = state.clients) (roads : next.world.roads = state.world.roads)
  | accepted (fd : SocketFd)
      (closed : ∀ client, state.clients.map fd = some client → client.fifo = none)
      (clients : next.clients = state.clients.put fd (.init fd))
      (roads : next.world.roads = state.world.roads)
  | served (fd : SocketFd) (client : Client) (found : state.clients.map fd = some client)
      (arrival : Arrival) (calls : Nat → Calls) (session : Session)
      (reaches : (handleMessages F arrival calls (state.session client)).Reaches session)
      (clients : next.clients = state.clients.put fd session.client)
      (roads : next.world.roads = session.world.roads)
  | removed (fd : SocketFd) (client : Client) (removing : ServerState)
      (ready : Removing F state fd client removing) (sys : Sys) (errorMsg : Option Bytes)
      (buf : U8BoundedArray)
      (removed : removeFd sys fd client errorMsg buf removing = some next)

theorem acceptClient_entry (coherent : Coherent serverfd state event)
    (isServer : event.socket = serverfd) (step : acceptClient event.sys state = some next) :
    EntryEffect F state next := by
  unfold acceptClient at step
  cases accepted : event.sys.accepted with
  | error errorName =>
      rw [accepted] at step
      cases step
      exact .same rfl rfl
  | ok clientfd =>
      cases added : event.sys.epollAdd with
      | none =>
          rw [accepted, added] at step
          cases step
          have closed := fun client => coherent.accepted isServer clientfd client accepted
          exact .accepted clientfd closed rfl rfl
      | some errorName =>
          have stale := coherent.stale ⟨isServer, ⟨clientfd, accepted⟩, errorName, added⟩
          rw [accepted, added, stale] at step
          simp only [Option.bind_some] at step
          cases found : state.clients.map state.fd with
          | none =>
              rw [found] at step
              cases step
          | some client =>
              rw [found] at step
              exact .removed state.fd client _ (.kept client found _ state.fd) _ _ _ step

theorem handleTimer_entry (tidy : Tidy state.world.roads state.clients) {timer : Timer}
    (step : handleTimer event timer state = some next) : EntryEffect F state next := by
  unfold handleTimer at step
  cases owner : state.clients.map timer.clientfd with
  | none =>
      rw [owner] at step
      cases step
      exact .same rfl rfl
  | some client =>
      have found : state.clients.map client.fd = some client := by
        rw [tidy.keyed _ client owner]
        exact owner
      have removes : ∀ errorMsg buf net, removeFd event.sys client.fd client errorMsg buf
          { state with world := { state.world with net := net }, fd := client.fd } = some next →
            EntryEffect F state next := fun errorMsg buf net =>
        .removed client.fd client _ (.kept client found net client.fd) event.sys errorMsg buf
      rw [owner] at step
      simp only at step
      split at step
      · exact removes _ _ state.world.net step
      · split at step
        · cases step
        · cases step
          exact .same rfl rfl
        · exact removes _ _ _ step

theorem handleClient_entry (found : state.clients.map event.socket = some client)
    (step : handleClient F event client state = some next) : EntryEffect F state next := by
  cases handleClient_cases step with
  | closed closing removed =>
      exact .removed event.socket client _ (.kept client found state.world.net event.socket) _ _ _
        removed
  | served _ session done =>
      exact .served event.socket client found _ _ session (.inl done) rfl rfl
  | failed _ error session raised _ _ _ removed =>
      have ready : Removing F state event.socket session.client _ :=
        .handled client found _ _ session (.inr ⟨error, raised⟩)
      exact .removed event.socket session.client _ ready _ _ _ removed

theorem eventStep_entry (tidy : Tidy state.world.roads state.clients)
    (coherent : Coherent serverfd state event)
    (step : eventStep F serverfd state event = some next) : EntryEffect F state next := by
  unfold eventStep at step
  split at step
  · next isServer => exact acceptClient_entry coherent isServer step
  split at step
  · exact handleTimer_entry tidy step
  split at step
  · cases step
    exact .same rfl rfl
  · next client found => exact handleClient_entry found step

theorem eventStep_tidy (tidy : Tidy state.world.roads state.clients)
    (coherent : Coherent serverfd state event)
    (step : eventStep F serverfd state event = some next) :
    Tidy next.world.roads next.clients := by
  cases eventStep_entry tidy coherent step with
  | same clients roads =>
      rw [clients, roads]
      exact tidy
  | accepted fd closed clients roads =>
      rw [clients, roads]
      exact tidy.accept closed
  | served fd client found arrival calls session reaches clients roads =>
      rw [clients, roads]
      exact handleMessages_tidy tidy found reaches
  | removed fd client removing ready sys errorMsg buf removed =>
      obtain ⟨ready, found⟩ := ready.tidy tidy
      exact removeFd_tidy ready found removed

/-! ### Runs -/

/-- In every run, whatever the calls on the epoll instance give: the removal of a client
returns and leaves nothing of it if and only if the client has not been removed in vain
before, and its timer and its descriptor can be taken out of the epoll instance. -/
theorem removed_iff {events : List Event}
    (coherent : EachStep (Coherent serverfd) (eventStep F serverfd) .init events)
    (ran : run (eventStep F serverfd) .init events = some state) {removing : ServerState}
    (ready : Removing F state fd client removing) (sys : Sys) (errorMsg : Option Bytes)
    (buf : U8BoundedArray) :
    (∃ after, removeFd sys fd client errorMsg buf removing = some after ∧
        Gone fd client after) ↔
      client.fifo ≠ none ∧ Deleted sys client := by
  have tidy := run_preserves_when (Coherent serverfd)
    (fun state => Tidy state.world.roads state.clients)
    (fun _ _ _ tidy coherent step => eventStep_tidy tidy coherent step) .empty coherent ran
  obtain ⟨ready, found⟩ := ready.tidy tidy
  constructor
  · rintro ⟨after, removed, gone⟩
    have held := (removeFd_returns_iff found).mp ⟨after, removed⟩
    exact ⟨held, (removeFd_gone_iff ready found removed).mp gone⟩
  · rintro ⟨held, deleted⟩
    obtain ⟨after, removed⟩ : ∃ after, removeFd sys fd client errorMsg buf removing =
      some after := (removeFd_returns_iff found).mpr held
    exact ⟨after, removed, (removeFd_gone_iff ready found removed).mpr deleted⟩

end Arithmetic

theorem coherent_start : EachStep (Coherent 3) (eventStep ℚ 3) .init
    [⟨3, false, smoothSys nothingArrived⟩] := by
  refine ⟨⟨?_, ?_⟩, fun _ _ => trivial⟩
  · rintro - fd client ⟨⟩ ⟨⟩
  · rintro ⟨-, -, errorName, ⟨⟩⟩

theorem removed_iff_connected :
    (∃ after, removeFd (smoothSys nothingArrived) 5 (.init 5) none BoundedArray.clear connected =
        some after ∧ Gone 5 (.init 5) after) ↔
      (Client.init 5).fifo ≠ none ∧ Deleted (smoothSys nothingArrived) (.init 5) :=
  removed_iff (F := ℚ) coherent_start rfl (.kept (.init 5) rfl connected.world.net 0) _ _ _

/-- The client asks for heartbeats, and the new timer cannot be added to the epoll
instance. -/
def timerRefused (_ : Nat) : Calls := ⟨fun _ => .least .all, .ok 9, some "SystemResources"⟩

/-- The session that this leaves: the client has a timer that is not registered. -/
def unregisteredTimer : Session :=
  { connected.session (.init 5) with
    client := { Client.init 5 with timer := some ⟨9, 5, 10⟩ } }

theorem unregisteredTimer_raised :
    handleMessages ℚ heartbeatWanted.sys.arrival timerRefused (connected.session (.init 5)) =
      .raised (.system "SystemResources") unregisteredTimer := by
  have received : receive [] heartbeatWanted.sys.arrival =
      .messages [.wantHeartbeat 10] 5 [0x40, 0, 0, 0, 10] := by decide +kernel
  have held : (connected.session (.init 5)).client.fifo = some [] := rfl
  simp only [handleMessages, held, received]
  rfl

/-- A timer that is not registered cannot be taken out of the epoll instance, and then the
client stays in the map. -/
theorem not_removed :
    ¬ ∀ (events : List Event) (state removing after : ServerState) (fd : SocketFd)
      (client : Client), EachStep (Coherent 3) (eventStep ℚ 3) .init events →
        run (eventStep ℚ 3) .init events = some state → Removing ℚ state fd client removing →
          ∀ (sys : Sys) (errorMsg : Option Bytes) (buf : U8BoundedArray),
            removeFd sys fd client errorMsg buf removing = some after →
              Gone fd client after := by
  intro always
  have left : (removeFd { smoothSys nothingArrived with timerDel := false } 5
      unregisteredTimer.client none BoundedArray.clear
      { connected.afterSession 5 unregisteredTimer with fd := 5 }).map
        (fun after => (after.clients.map 5).isSome) = some true := by decide +kernel
  obtain ⟨after, removed, present⟩ := Option.map_eq_some_iff.mp left
  have ready : Removing ℚ connected 5 unregisteredTimer.client
      { connected.afterSession 5 unregisteredTimer with fd := 5 } :=
    .handled (.init 5) rfl _ timerRefused unregisteredTimer (.inr ⟨_, unregisteredTimer_raised⟩)
  have gone := always _ connected _ after 5 _ coherent_start rfl ready _ none _ removed
  rw [gone.unmapped] at present
  cases present

end NetworkExercises.SpeedDaemon
