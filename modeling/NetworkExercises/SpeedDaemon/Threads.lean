/-
Module: NetworkExercises.SpeedDaemon.Threads
Purpose: Two handlers of `6-speed-daemon` cut into the steps between which other threads
  run: the setting up of a timer, and a pass over the ticket queue.
Main exports: TimerRace, TimerAction, timerStep, Clients.delAgainst, DispatchRace,
  DispatchAction, dispatchStep
-/
import NetworkExercises.SpeedDaemon.Epoll

namespace NetworkExercises.SpeedDaemon

open Lib

/-! ### A timer that is being set up -/

/-- How far the prong `.WantHeartbeat` has got. -/
inductive Setup where
  | asked
  | created
  | added
  | finished
deriving DecidableEq, Repr

/-- What another thread has made of an expiry of the timer: nothing, or it has been woken,
and has looked the descriptor up in `Timers.map`. -/
inductive Expiry where
  | idle
  | woken
  | found (timer : Timer)
  | unknown
deriving DecidableEq, Repr

/-- The handler of a heartbeat request beside a thread that handles the timer's events. -/
structure TimerRace where
  state : ServerState
  epoll : Epoll
  setup : Setup
  expiry : Expiry

def TimerRace.start (state : ServerState) (epoll : Epoll) : TimerRace :=
  ⟨state, epoll, .asked, .idle⟩

/-- The steps of the handler, and those of the thread that is woken. -/
inductive TimerAction where
  | createTimer
  | addEpoll
  | addMap
  | expire
  | lookup
  | handle (sys : Sys)

/-- One step, for the timer that the system call gives the client. -/
def timerStep (timer : Timer) (race : TimerRace) (action : TimerAction) : Option TimerRace :=
  match action with
  | .createTimer =>
      -- `self.timer = try Timer.init(...)`
      match race.setup, race.state.clients.map timer.clientfd with
      | .asked, some client =>
          let clients := race.state.clients.put timer.clientfd { client with timer := timer }
          some { race with state := { race.state with clients := clients }, setup := .created }
      | _, _ => none
  | .addEpoll =>
      -- `try self.epoll.add(self.timer.?.timerfd)`
      match race.setup with
      | .created => some { race with epoll := race.epoll.add timer.timerfd, setup := .added }
      | _ => none
  | .addMap =>
      -- `try ctx.timers.add(timer)`
      match race.setup with
      | .added =>
          let timers := race.state.timers.add timer
          some { race with state := { race.state with timers := timers }, setup := .finished }
      | _ => none
  | .expire =>
      -- ONESHOT: until it is armed again, the timer wakes no other thread.
      if race.expiry = .idle ∧ race.epoll.armed timer.timerfd = some true then
        some { race with epoll := race.epoll.deliver timer.timerfd, expiry := .woken }
      else none
  | .lookup =>
      match race.expiry with
      | .woken =>
          match race.state.timers.map timer.timerfd with
          | some entry => some { race with expiry := .found entry }
          | none => some { race with expiry := .unknown }
      | _ => none
  | .handle sys =>
      match race.expiry with
      | .found entry =>
          (handleTimer ⟨timer.timerfd, false, sys⟩ entry race.state).map fun state =>
            { race with
              state := state
              epoll := handleTimerEpoll ⟨timer.timerfd, false, sys⟩ entry race.state race.epoll
              expiry := .idle }
      | .unknown =>
          -- It is no client either.
          match race.state.clients.map timer.timerfd with
          | none => some { race with epoll := race.epoll.del timer.timerfd, expiry := .idle }
          | some _ => none
      | _ => none

/-- The descriptor is registered; `EpollManager.del` succeeds on these. -/
def Epoll.registered (self : Epoll) (fd : SocketFd) : Bool := (self.armed fd).isSome

/-- `Clients.del`, with the success that the epoll instance gives it. -/
def Clients.delAgainst (self : Clients) (fd : SocketFd) (timers : Timers) (epoll : Epoll) :
    Option (Clients × Timers) :=
  let timerDel :=
    match (self.map fd).bind Client.timer with
    | some timer => epoll.registered timer.timerfd
    | none => true
  self.del fd timers timerDel (epoll.registered fd)

/-! ### A pass over the ticket queue -/

/-- A pass beside the threads that remove and accept clients.  `opened` are the open
sockets, `picked` is the ticket and the descriptor that the pass has picked, and `leaving`
are the clients whose roads have been removed and that are still in the map. -/
structure DispatchRace where
  roads : Roads
  clients : Clients
  tickets : TicketsQueue
  net : Net
  opened : Finset SocketFd
  picked : Option (Ticket × SocketFd)
  leaving : Finset SocketFd

/-- The steps of the pass, those of a removal, and those of a new client. -/
inductive DispatchAction where
  | pick (sending : Sending)
  | write (written : WriteResult)
  | removeDispatcher (fd : SocketFd)
  | del (fd : SocketFd)
  | accept (fd : SocketFd)
  | add (fd : SocketFd)
  | setAsDispatcher (fd : SocketFd) (roads : List UInt16)
  | addDispatcher (fd : SocketFd)

/-- One step.  The events of one client are handled one after the other, so that a client
that is leaving does not become a dispatcher. -/
def dispatchStep (race : DispatchRace) (action : DispatchAction) : Option DispatchRace :=
  match action with
  | .pick sending =>
      match race.picked, race.tickets.queue.find? race.roads.deliverable with
      | none, some ticket =>
          some { race with
            picked := some (ticket, sending.next (race.roads.dispatchers ticket.road)) }
      | _, _ => none
  | .write written =>
      match race.picked with
      | none => none
      | some (ticket, fd) =>
          -- A closed descriptor takes no bytes, and ends the pass with an error.
          if fd ∉ race.opened then some { race with picked := none }
          else
            match sendTicket fd (.ticket ticket) written
                ⟨race.tickets, BoundedArray.clear, race.net⟩ with
            | .trap => none
            | .raised _ pass => some { race with net := pass.net, picked := none }
            | .done pass =>
                let tickets := pass.tickets.noteSent fd ticket
                some { race with
                  tickets := { tickets with queue := tickets.queue.erase ticket }
                  net := pass.net
                  picked := none }
  | .removeDispatcher fd =>
      match race.clients.map fd with
      | none => none
      | some client =>
          let roads :=
            match client.data with
            | .dispatcher disp => race.roads.removeDispatcher disp
            | _ => race.roads
          some { race with roads := roads, leaving := insert fd race.leaving }
  | .del fd =>
      if fd ∈ race.leaving then
        some { race with
          clients := ⟨Function.update race.clients.map fd none⟩
          opened := race.opened.erase fd
          leaving := race.leaving.erase fd }
      else none
  | .accept fd =>
      if fd ∉ race.opened then
        some { race with
          opened := insert fd race.opened
          net := Function.update race.net fd [] }
      else none
  | .add fd =>
      -- A socket is opened again only after its last client has been taken out of the map.
      match race.clients.map fd with
      | none =>
          if fd ∈ race.opened then
            some { race with clients := race.clients.put fd (.init fd) }
          else none
      | some _ => none
  | .setAsDispatcher fd roads =>
      match race.clients.map fd with
      | none => none
      | some client =>
          if fd ∈ race.leaving then none
          else
            match client.setAsDispatcher (.dispatcher roads) with
            | .error _ => some race
            | .ok (client, _) => some { race with clients := race.clients.put fd client }
  | .addDispatcher fd =>
      match race.clients.map fd with
      | none => none
      | some client =>
          if fd ∈ race.leaving then none
          else
            match client.data with
            | .dispatcher disp => some { race with roads := race.roads.addDispatcher disp }
            | _ => none

end NetworkExercises.SpeedDaemon
