/-
Module: NetworkExercises.MobInTheMiddle.Proofs.Pairing
Purpose: The connections of the proxy are pairs: each end names the other, each has a fifo,
  and either end takes both away.
Main exports: Operation, connectionStep, Paired, remove_eq, pairing_kept
-/
import NetworkExercises.Lib.Run
import NetworkExercises.MobInTheMiddle.Proxy

namespace NetworkExercises.MobInTheMiddle

open Lib
open SpeedDaemon (SocketFd)

/-! ### The pairs -/

/-- What is done to the connections: `handle_connection` adds a pair, and `handle_messge`
removes the pair of a descriptor. -/
inductive Operation where
  | add (client upstream : SocketFd)
  | remove (client : SocketFd)

/-- Two distinct descriptors are added, and neither of them is in the map. -/
def connectionStep (self : ConnectionHashMap) : Operation → Option ConnectionHashMap
  | .add client upstream =>
      if client ≠ upstream ∧ self.map client = none ∧ self.map upstream = none then
        some (self.add client upstream)
      else none
  | .remove client => some (self.remove client)

/-- The map is a symmetric pairing without fixed points, and every end has a fifo. -/
structure Paired (connections : ConnectionHashMap) : Prop where
  symmetric : ∀ client upstream, connections.map client = some upstream ↔
    connections.map upstream = some client
  apart : ∀ fd, connections.map fd ≠ some fd
  fifos : ∀ fd, (connections.streamfifomap fd).isSome = (connections.map fd).isSome

variable {connections next : ConnectionHashMap} {client upstream : SocketFd} {operation : Operation}

theorem init_paired : Paired .init where
  symmetric client upstream := by simp [ConnectionHashMap.init]
  apart fd := by simp [ConnectionHashMap.init]
  fifos fd := rfl

/-- Two new ends make another pair. -/
theorem Paired.add (paired : Paired connections) (differ : client ≠ upstream)
    (noClient : connections.map client = none) (noUpstream : connections.map upstream = none) :
    Paired (connections.add client upstream) := by
  have unnamed : ∀ fd other, connections.map fd = none → connections.map other ≠ some fd := by
    intro fd other absent present
    rw [paired.symmetric, absent] at present
    cases present
  have lookup : ∀ fd, (connections.add client upstream).map fd =
      if fd = upstream then some client else if fd = client then some upstream
      else connections.map fd := by
    intro fd
    simp only [ConnectionHashMap.add, Function.update_apply]
  constructor
  · intro fd other
    rw [lookup, lookup]
    have fromClient := unnamed client
    have fromUpstream := unnamed upstream
    have old := paired.symmetric fd other
    grind
  · intro fd
    rw [lookup]
    have old := paired.apart fd
    grind
  · intro fd
    rw [lookup]
    have old := paired.fifos fd
    simp only [ConnectionHashMap.add, Function.update_apply]
    split
    · rfl
    split
    · rfl
    exact old

/-- Either end takes both and their fifos away, and nothing else: no early return leaves
half a pair. -/
theorem remove_eq (paired : Paired connections) (found : connections.map client = some upstream) :
    connections.remove client =
      { map := fun fd => if fd = client ∨ fd = upstream then none else connections.map fd
        streamfifomap := fun fd =>
          if fd = client ∨ fd = upstream then none else connections.streamfifomap fd } := by
  have differ : upstream ≠ client := fun same => paired.apart client (same ▸ found)
  have ownFifo : (connections.streamfifomap client).isSome := by rw [paired.fifos, found]; rfl
  have otherFifo : (connections.streamfifomap upstream).isSome := by
    rw [paired.fifos, (paired.symmetric client upstream).mp found]
    rfl
  obtain ⟨own, ownEq⟩ := Option.isSome_iff_exists.mp ownFifo
  obtain ⟨other, otherEq⟩ := Option.isSome_iff_exists.mp otherFifo
  simp only [ConnectionHashMap.remove, found, ownEq, Function.update_of_ne differ, otherEq,
    ConnectionHashMap.mk.injEq]
  constructor
  · funext fd
    simp only [Function.update_apply]
    grind
  · funext fd
    simp only [Function.update_apply]
    grind

theorem remove_absent (absent : connections.map client = none) :
    connections.remove client = connections := by
  rw [ConnectionHashMap.remove, absent]

theorem Paired.remove (paired : Paired connections) (client : SocketFd) :
    Paired (connections.remove client) := by
  cases found : connections.map client with
  | none =>
      rw [remove_absent found]
      exact paired
  | some upstream =>
      rw [remove_eq paired found]
      constructor
      · intro fd other
        have old := paired.symmetric fd other
        have own := paired.symmetric client upstream
        have ends := paired.symmetric
        dsimp only
        grind
      · intro fd
        have old := paired.apart fd
        dsimp only
        split
        · exact nofun
        · exact old
      · intro fd
        have old := paired.fifos fd
        dsimp only
        split
        · rfl
        · exact old

/-! ### Every sequence of operations -/

theorem Paired.step (paired : Paired connections)
    (step : connectionStep connections operation = some next) : Paired next := by
  cases operation with
  | add client upstream =>
      rw [connectionStep, Option.ite_none_right_eq_some] at step
      obtain ⟨⟨differ, noClient, noUpstream⟩, added⟩ := step
      cases added
      exact paired.add differ noClient noUpstream
  | remove client =>
      cases step
      exact paired.remove client

/-- After any operations the connections are pairs, and removing an end removes both ends,
both fifos and nothing else. -/
theorem pairing_kept {operations : List Operation}
    (ran : run connectionStep .init operations = some connections) :
    Paired connections ∧
      (∀ client upstream, connections.map client = some upstream → connections.remove client =
        { map := fun fd => if fd = client ∨ fd = upstream then none else connections.map fd
          streamfifomap := fun fd =>
            if fd = client ∨ fd = upstream then none else connections.streamfifomap fd }) ∧
      ∀ client, connections.map client = none → connections.remove client = connections := by
  have paired : Paired connections :=
    run_preserves Paired (fun _ _ _ before step => before.step step) init_paired ran
  exact ⟨paired, fun client upstream found => remove_eq paired found,
    fun client absent => remove_absent absent⟩

/-- Two pairs are added, the second descriptor of the first pair is removed, and both of its
numbers are used again, the other way around. -/
def pairedAgain : List Operation := [.add 5 6, .add 7 8, .remove 6, .add 6 5]

theorem pairing_kept_again :
    ∃ final, run connectionStep .init pairedAgain = some final ∧ Paired final ∧
      final.map 7 = some 8 :=
  have ran := Option.eq_some_of_isSome
    (show (run connectionStep .init pairedAgain).isSome by decide)
  ⟨_, ran, (pairing_kept ran).1, by decide⟩

end NetworkExercises.MobInTheMiddle
