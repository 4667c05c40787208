/-
Module: NetworkExercises.SpeedDaemon.Proofs.DispatchRace
Purpose: A pass over the queue beside threads that remove and accept clients writes each
  ticket to a dispatcher of its road, unless the dispatcher that it has picked is removed
  before the write.
Main exports: DispatchRace.Agrees, WritesToDispatcher, KeepsPicked, dispatchStep_turn,
  writes_to_dispatchers
-/
import NetworkExercises.SpeedDaemon.Threads
import NetworkExercises.SpeedDaemon.Proofs.Ownership

namespace NetworkExercises.SpeedDaemon

open Lib

/-! ### Registered dispatchers -/

namespace DispatchRace

/-- The client of the descriptor is a dispatcher of the road. -/
def Serves (race : DispatchRace) (fd : SocketFd) (road : UInt16) : Prop :=
  ∃ client, race.clients.map fd = some client ∧ client.Lists road

/-- The dispatchers of the roads are clients, and none of them is leaving. -/
structure Agrees (race : DispatchRace) : Prop where
  keyed : ∀ fd client, race.clients.map fd = some client → client.fd = fd
  named : ∀ fd client disp, race.clients.map fd = some client →
    client.data = .dispatcher disp → disp.fd = fd
  serves : ∀ fd road, fd ∈ race.roads.dispatchers road → race.Serves fd road
  stays : ∀ fd road, fd ∈ race.roads.dispatchers road → fd ∉ race.leaving

end DispatchRace

/-- A ticket that is written reaches a client that is registered as a dispatcher of its
road. -/
def WritesToDispatcher (race : DispatchRace) (action : DispatchAction) : Prop :=
  ∀ written ticket fd, action = .write written → race.picked = some (ticket, fd) →
    fd ∈ race.opened → fd ∈ race.roads.dispatchers ticket.road ∧ race.Serves fd ticket.road

/-- The roads of the dispatcher that the pass has picked are not removed. -/
def KeepsPicked (race : DispatchRace) (action : DispatchAction) : Prop :=
  ∀ ticket fd, action = .removeDispatcher fd → race.picked ≠ some (ticket, fd)

/-- The state of the server between two events, when a pass begins. -/
def ServerState.dispatching (state : ServerState) (opened : Finset SocketFd) : DispatchRace :=
  ⟨state.world.roads, state.clients, state.world.tickets, state.world.net, opened, none, ∅⟩

variable {race next : DispatchRace}

/-- Between two events of any run the dispatchers of the roads are clients. -/
theorem run_agrees {F : Type} [F64 F] {serverfd : SocketFd} {events : List Event}
    {state : ServerState} (opened : Finset SocketFd)
    (orderly : EachStep (Orderly serverfd) (eventStep F serverfd) .init events)
    (ran : run (eventStep F serverfd) .init events = some state) :
    (state.dispatching opened).Agrees := by
  have consistent := run_consistent (.empty serverfd) orderly ran
  exact ⟨consistent.keyed, consistent.named, fun fd road => (consistent.listed fd road).mp,
    fun fd road _ => Finset.notMem_empty fd⟩

/-! ### Without other threads -/

theorem eraseP_eq_erase_of_find? {α : Type} [DecidableEq α] {p : α → Bool} {items : List α}
    {item : α} (found : items.find? p = some item) : items.eraseP p = items.erase item := by
  obtain ⟨isMatch, front, back, rfl, before⟩ := List.find?_eq_some_iff_append.mp found
  have notBefore : item ∉ front := fun member => by simpa [isMatch] using before item member
  rw [List.eraseP_append_right _ (by simpa using before), List.eraseP_cons_of_pos isMatch,
    List.erase_append_right _ notBefore, List.erase_cons_head]

/-- The two steps of the pass alone are one turn of its loop. -/
theorem dispatchStep_turn {sends : Nat → Sending} {left taken : Nat} {ticket : Ticket}
    {pass : Pass} (free : race.picked = none)
    (found : race.tickets.queue.find? race.roads.deliverable = some ticket)
    (isOpen : (sends taken).next (race.roads.dispatchers ticket.road) ∈ race.opened)
    (sent : sendTicket ((sends taken).next (race.roads.dispatchers ticket.road))
      (.ticket ticket) (sends taken).written ⟨race.tickets, BoundedArray.clear, race.net⟩ =
        .done pass) :
    ∃ tickets, run dispatchStep race [.pick (sends taken), .write (sends taken).written] =
        some { race with tickets := tickets, net := pass.net } ∧
      ∀ buf, dispatchLoop race.roads sends (left + 1) taken ⟨race.tickets, buf, race.net⟩ =
        dispatchLoop race.roads sends left (taken + 1) ⟨tickets, pass.buf, pass.net⟩ := by
  refine ⟨(pass.tickets.noteSent ((sends taken).next (race.roads.dispatchers ticket.road))
    ticket).removeFirst race.roads, ?_, fun buf => ?_⟩
  · have kept : pass.tickets = race.tickets := sendTicket_tickets (.inl sent)
    simp only [run, dispatchStep, free, found, Option.bind_eq_bind, Option.bind_some, isOpen,
      not_true_eq_false, if_false, sent, TicketsQueue.removeFirst, TicketsQueue.noteSent, kept,
      eraseP_eq_erase_of_find? found]
  · simp only [dispatchLoop, found, sent, Outcome.done_andThen]

/-! ### Every step -/

namespace DispatchRace.Agrees

/-- The roads of a client are removed before it leaves. -/
theorem removeDispatcher (agrees : race.Agrees) {fd : SocketFd}
    (step : dispatchStep race (.removeDispatcher fd) = some next) :
    next.Agrees ∧ next.clients = race.clients ∧ next.picked = race.picked ∧
      ∀ other road, other ∈ next.roads.dispatchers road ↔
        other ∈ race.roads.dispatchers road ∧ other ≠ fd := by
  simp only [dispatchStep] at step
  split at step
  · cases step
  · next client found =>
    have removed : ∀ other road,
        other ∈ (race.roads.release client.data).dispatchers road ↔
          other ∈ race.roads.dispatchers road ∧ other ≠ fd := by
      intro other road
      have lists : fd ∈ race.roads.dispatchers road → client.Lists road := by
        intro registered
        obtain ⟨same, foundAgain, listed⟩ := agrees.serves fd road registered
        rw [found, Option.some.injEq] at foundAgain
        exact foundAgain ▸ listed
      cases data : client.data with
      | dispatcher disp =>
          have named := agrees.named fd client disp found data
          rw [Roads.release, removeDispatcher_dispatchers, named]
          refine and_congr_right fun registered => not_congr (and_iff_left_of_imp ?_)
          rintro rfl
          obtain ⟨disp', data', listed⟩ := lists registered
          rw [data, ClientData.dispatcher.injEq] at data'
          exact data' ▸ listed
      | camera | unidentified =>
          rw [Roads.release]
          refine (and_iff_left_of_imp ?_).symm
          rintro registered rfl
          obtain ⟨disp, isDispatcher, -⟩ := lists registered
          rw [data] at isDispatcher
          cases isDispatcher
    have stepEq : next = { race with
        roads := race.roads.release client.data, leaving := insert fd race.leaving } := by
      rw [← Option.some.inj step]
      cases client.data with
      | dispatcher | camera | unidentified => rfl
    subst stepEq
    refine ⟨⟨agrees.keyed, agrees.named, ?_, ?_⟩, rfl, rfl, removed⟩
    · intro other road registered
      exact agrees.serves other road ((removed other road).mp registered).1
    · intro other road registered member
      obtain ⟨before, differs⟩ := (removed other road).mp registered
      rcases Finset.mem_insert.mp member with same | leaving
      · exact differs same
      · exact agrees.stays other road before leaving

/-- A client is taken out of the map once its roads have been removed. -/
theorem del (agrees : race.Agrees) {fd : SocketFd}
    (step : dispatchStep race (.del fd) = some next) : next.Agrees := by
  simp only [dispatchStep] at step
  split at step
  · next leaving =>
    cases step
    have kept : ∀ other client, Function.update race.clients.map fd none other = some client →
        race.clients.map other = some client := by
      intro other client found
      by_cases same : other = fd
      · simp [same] at found
      · rwa [Function.update_of_ne same] at found
    refine ⟨fun other client found => agrees.keyed other client (kept other client found),
      fun other client disp found => agrees.named other client disp (kept other client found),
      ?_, fun other road registered member => agrees.stays other road registered
        (Finset.mem_of_mem_erase member)⟩
    intro other road registered
    obtain ⟨client, found, listed⟩ := agrees.serves other road registered
    have differs : other ≠ fd := by
      rintro rfl
      exact agrees.stays other road registered leaving
    exact ⟨client, by simpa [differs] using found, listed⟩
  · cases step

/-- A new value for a client of which no dispatcher is registered. -/
theorem put (agrees : race.Agrees) {fd : SocketFd} {client : Client} (keyed : client.fd = fd)
    (named : ∀ disp, client.data = .dispatcher disp → disp.fd = fd)
    (unregistered : ∀ road, fd ∉ race.roads.dispatchers road) :
    ({ race with clients := race.clients.put fd client } : DispatchRace).Agrees := by
  have cases : ∀ other found, (race.clients.put fd client).map other = some found →
      other = fd ∧ found = client ∨ race.clients.map other = some found := by
    intro other found held
    by_cases same : other = fd
    · simp only [same, Clients.put, Function.update_self, Option.some.injEq] at held
      exact .inl ⟨same, held.symm⟩
    · exact .inr (by simpa [Clients.put, same] using held)
  refine ⟨fun other found held => ?_, fun other found disp held data => ?_,
    fun other road registered => ?_, agrees.stays⟩
  · rcases cases other found held with ⟨rfl, rfl⟩ | held
    · exact keyed
    · exact agrees.keyed other found held
  · rcases cases other found held with ⟨rfl, rfl⟩ | held
    · exact named disp data
    · exact agrees.named other found disp held data
  · obtain ⟨found, held, listed⟩ := agrees.serves other road registered
    have differs : other ≠ fd := by
      rintro rfl
      exact unregistered road registered
    exact ⟨found, by simpa [Clients.put, differs] using held, listed⟩

theorem accept (agrees : race.Agrees) {fd : SocketFd}
    (step : dispatchStep race (.accept fd) = some next) : next.Agrees := by
  simp only [dispatchStep] at step
  split at step
  · cases step
    exact ⟨agrees.keyed, agrees.named, agrees.serves, agrees.stays⟩
  · cases step

theorem add (agrees : race.Agrees) {fd : SocketFd}
    (step : dispatchStep race (.add fd) = some next) : next.Agrees := by
  simp only [dispatchStep] at step
  split at step
  · next noClient =>
    split at step
    · cases step
      refine agrees.put rfl (by simp [Client.init]) fun road registered => ?_
      obtain ⟨client, found, -⟩ := agrees.serves fd road registered
      rw [noClient] at found
      cases found
    · cases step
  · cases step

theorem setAsDispatcher (agrees : race.Agrees) {fd : SocketFd} {roads : List UInt16}
    (step : dispatchStep race (.setAsDispatcher fd roads) = some next) : next.Agrees := by
  simp only [dispatchStep] at step
  split at step
  · cases step
  next client found =>
  split at step
  · cases step
  split at step
  · cases step
    exact agrees
  · next client' disp made =>
    cases step
    have keyed := agrees.keyed fd client found
    obtain ⟨named, rfl⟩ := setAsDispatcher_ok made
    refine agrees.put keyed ?_ fun road registered => ?_
    · rintro disp ⟨⟩
      exact named.trans keyed
    · obtain ⟨same, foundAgain, disp', data, -⟩ := agrees.serves fd road registered
      rw [found, Option.some.injEq] at foundAgain
      subst foundAgain
      simp [Client.setAsDispatcher, Client.type, data] at made

theorem addDispatcher (agrees : race.Agrees) {fd : SocketFd}
    (step : dispatchStep race (.addDispatcher fd) = some next) :
    next.Agrees ∧ next.picked = race.picked ∧
      ∀ road, race.roads.dispatchers road ⊆ next.roads.dispatchers road := by
  simp only [dispatchStep] at step
  split at step
  · cases step
  next client found =>
  split at step
  · cases step
  next stays =>
  split at step
  · next disp data =>
    cases step
    have named := agrees.named fd client disp found data
    refine ⟨⟨agrees.keyed, agrees.named, fun other road registered => ?_,
      fun other road registered => ?_⟩, rfl, fun road other registered => ?_⟩
    · rcases (addDispatcher_dispatchers ..).mp registered with before | ⟨rfl, listed⟩
      · exact agrees.serves other road before
      · exact ⟨client, named ▸ found, disp, data, listed⟩
    · rcases (addDispatcher_dispatchers ..).mp registered with before | ⟨rfl, listed⟩
      · exact agrees.stays other road before
      · exact named ▸ stays
    · exact (addDispatcher_dispatchers ..).mpr (.inl registered)
  · cases step

end DispatchRace.Agrees

/-- The descriptor that the pass has picked is a dispatcher of the ticket's road. -/
def DispatchRace.PicksDispatcher (race : DispatchRace) : Prop :=
  ∀ ticket fd, race.picked = some (ticket, fd) → fd ∈ race.roads.dispatchers ticket.road

theorem dispatchStep_picks (agrees : race.Agrees) (picks : race.PicksDispatcher)
    {action : DispatchAction} (keeps : KeepsPicked race action)
    (step : dispatchStep race action = some next) : next.Agrees ∧ next.PicksDispatcher := by
  cases action with
  | pick sending =>
      simp only [dispatchStep] at step
      split at step
      · next ticket free found =>
        cases step
        refine ⟨⟨agrees.keyed, agrees.named, agrees.serves, agrees.stays⟩, ?_⟩
        rintro picked fd ⟨⟩
        exact sending.member _ (Roads.deliverable_iff.mp (List.find?_some found))
      · cases step
  | write written =>
      simp only [dispatchStep] at step
      split at step
      · cases step
      split at step
      · cases step
        exact ⟨⟨agrees.keyed, agrees.named, agrees.serves, agrees.stays⟩, by rintro _ _ ⟨⟩⟩
      split at step
      · cases step
      · cases step
        exact ⟨⟨agrees.keyed, agrees.named, agrees.serves, agrees.stays⟩, by rintro _ _ ⟨⟩⟩
      · cases step
        exact ⟨⟨agrees.keyed, agrees.named, agrees.serves, agrees.stays⟩, by rintro _ _ ⟨⟩⟩
  | removeDispatcher fd =>
      obtain ⟨after, -, picked, removed⟩ := agrees.removeDispatcher step
      refine ⟨after, fun ticket other held => (removed other ticket.road).mpr ?_⟩
      rw [picked] at held
      refine ⟨picks ticket other held, ?_⟩
      rintro rfl
      exact keeps ticket other rfl held
  | addDispatcher fd =>
      obtain ⟨after, picked, grows⟩ := agrees.addDispatcher step
      refine ⟨after, fun ticket other held => ?_⟩
      rw [picked] at held
      exact grows ticket.road (picks ticket other held)
  | del fd | accept fd | add fd | setAsDispatcher fd roads =>
      have after : next.Agrees := by
        first
        | exact agrees.del step
        | exact agrees.add step
        | exact agrees.setAsDispatcher step
        | exact agrees.accept step
      have same : next.roads = race.roads ∧ next.picked = race.picked := by
        simp only [dispatchStep] at step
        repeat' split at step
        all_goals cases step <;> exact ⟨rfl, rfl⟩
      refine ⟨after, fun ticket fd held => ?_⟩
      rw [same.1]
      exact picks ticket fd (same.2 ▸ held)

/-! ### Every interleaving -/

/-- In every interleaving in which no client is unregistered while the pass has it picked,
each ticket is written only to a client that is a registered dispatcher of its road. -/
theorem writes_to_dispatchers {actions : List DispatchAction} (agrees : race.Agrees)
    (free : race.picked = none) (keeps : EachStep KeepsPicked dispatchStep race actions) :
    EachStep WritesToDispatcher dispatchStep race actions := by
  refine EachStep.of_invariant (fun race => race.Agrees ∧ race.PicksDispatcher) ?_ ?_
    ⟨agrees, fun ticket fd held => by rw [free] at held; cases held⟩ keeps
  · rintro race action ⟨agrees, picks⟩ - written ticket fd - picked -
    have registered := picks ticket fd picked
    exact ⟨registered, agrees.serves fd ticket.road registered⟩
  · rintro race action next ⟨agrees, picks⟩ keeps step
    exact dispatchStep_picks agrees picks keeps step

/-- A dispatcher of road 1, and a ticket for it. -/
def oneDispatcher : DispatchRace where
  roads := Roads.empty.addDispatcher ⟨6, [1]⟩
  clients := Clients.empty.put 6 { Client.init 6 with data := .dispatcher ⟨6, [1]⟩ }
  tickets := TicketsQueue.empty.append ⟨[65], 1, 0, 0, 80, 3600, 8000⟩
  net := fun _ => []
  opened := {6}
  picked := none
  leaving := ∅

theorem oneDispatcher_agrees : oneDispatcher.Agrees where
  keyed fd client found := by
    by_cases same : fd = 6
    · subst same
      cases found
      rfl
    · simp [oneDispatcher, Clients.put, Clients.empty, same] at found
  named fd client disp found data := by
    by_cases same : fd = 6
    · subst same
      cases found
      cases data
      rfl
    · simp [oneDispatcher, Clients.put, Clients.empty, same] at found
  serves fd road registered := by
    rcases (addDispatcher_dispatchers ..).mp registered with before | ⟨rfl, listed⟩
    · simp [Roads.dispatchers, Roads.empty] at before
    · exact ⟨_, rfl, _, rfl, listed⟩
  stays fd road registered := Finset.notMem_empty fd

theorem writes_to_dispatchers_one :
    EachStep WritesToDispatcher dispatchStep oneDispatcher
      [.pick (.least .all), .write .all] := by
  have keeps : ∀ race action, (∀ fd, action ≠ .removeDispatcher fd) →
      KeepsPicked race action := fun _ _ other _ fd same => absurd same (other fd)
  exact writes_to_dispatchers oneDispatcher_agrees rfl
    ⟨keeps _ _ (by simp), fun _ _ => ⟨keeps _ _ (by simp), fun _ _ => trivial⟩⟩

/-- The picked dispatcher disconnects, and a new client gets its descriptor. -/
def reusedDescriptor : List DispatchAction :=
  [.pick (.least .all), .removeDispatcher 6, .del 6, .accept 6, .add 6]

/-- The ticket of the dispatcher that has gone is written to the new client. -/
theorem not_always_to_dispatchers :
    ¬ ∀ (race : DispatchRace) (actions : List DispatchAction), race.Agrees →
      race.picked = none → EachStep WritesToDispatcher dispatchStep race actions := by
  intro always
  have ran : (run dispatchStep oneDispatcher reusedDescriptor).map (fun race =>
      (race.picked, decide (6 ∈ race.opened), race.clients.map 6,
        decide (6 ∈ race.roads.dispatchers 1))) =
        some (some (⟨[65], 1, 0, 0, 80, 3600, 8000⟩, 6), true, some (.init 6), false) := by
    decide +kernel
  obtain ⟨race, ranEq, ends⟩ := Option.map_eq_some_iff.mp ran
  have each := always oneDispatcher (reusedDescriptor ++ [.write .all]) oneDispatcher_agrees rfl
  simp only [Prod.mk.injEq, decide_eq_true_eq, decide_eq_false_iff_not] at ends
  obtain ⟨picked, isOpen, -, unregistered⟩ := ends
  exact unregistered (each.at ranEq .all _ 6 rfl picked isOpen).1

end NetworkExercises.SpeedDaemon
