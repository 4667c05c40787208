/-
Module: NetworkExercises.SpeedDaemon.Pool
Purpose: The threads that `main` of `6-speed-daemon` starts: each of them runs `handle_events`
  on the same world and the same epoll instance.
Main exports: Pool, PoolAction, poolStep
-/
import NetworkExercises.SpeedDaemon.Epoll

namespace NetworkExercises.SpeedDaemon

open Lib

variable {cpus : Nat}

/-- What the threads share, and for each of them the events that `epoll_wait` has returned
to it and that it has still to handle, and its `thr_ctx.fd`. -/
structure Pool (cpus : Nat) where
  state : ServerState
  epoll : Epoll
  ready : Fin cpus → List SocketFd
  fds : Fin cpus → SocketFd

/-- Before the threads are started the listening socket is added. -/
def Pool.init (serverfd : SocketFd) : Pool cpus :=
  ⟨.init, Epoll.empty.add serverfd, fun _ => [], fun _ => 0⟩

/-- The server as a thread sees it. -/
def Pool.stateOf (pool : Pool cpus) (worker : Fin cpus) : ServerState :=
  { pool.state with fd := pool.fds worker }

/-- What one of the threads does next: wait for events, or handle the next of its own. -/
inductive PoolAction (cpus : Nat) where
  | wait (worker : Fin cpus) (ready : List SocketFd)
  | handle (worker : Fin cpus) (event : Event)

section Arithmetic

variable (F : Type) [F64 F]

/-- One turn of either loop of `handle_events` in one of the threads.  An event is handled in one
step: what other threads do in between is left to the races of single handlers. -/
def poolStep (serverfd : SocketFd) (pool : Pool cpus) (action : PoolAction cpus) :
    Option (Pool cpus) :=
  match action with
  | .wait worker ready =>
      if pool.ready worker = [] ∧ ready.Nodup ∧ ∀ fd ∈ ready, pool.epoll.armed fd = some true then
        some { pool with
          epoll := ready.foldl Epoll.deliver pool.epoll
          ready := Function.update pool.ready worker ready }
      else none
  | .handle worker event =>
      match pool.ready worker with
      | [] => none
      | fd :: ready =>
          if event.socket = fd then
            (eventStep F serverfd (pool.stateOf worker) event).map fun state =>
              { state := state
                epoll := eventEpoll F serverfd (pool.stateOf worker) event pool.epoll
                ready := Function.update pool.ready worker ready
                fds := Function.update pool.fds worker state.fd }
          else none

end Arithmetic

end NetworkExercises.SpeedDaemon
