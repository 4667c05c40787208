/-
Module: NetworkExercises.SmokeTest.Proofs.TwoServers
Purpose: The C server among its other connections and the Zig handler on its own send the same
  stream back, however each of them gets to read it.
Main exports: Zig.foldl_readTurn_echoes, servers_echo_alike
-/
import NetworkExercises.SmokeTest.Proofs.Echoes
import NetworkExercises.SmokeTest.Zig

namespace NetworkExercises.SmokeTest

open Lib
open SpeedDaemon (SocketFd)

namespace Zig

/-- What is sent is a beginning of what is read, and all of it as long as the connection
is open. -/
structure Echoes (stream : Bytes) (connection : Connection) : Prop where
  begins : connection.sent <+: stream
  all : connection.closed = false → connection.sent = stream

variable {stream : Bytes} {connection : Connection}

theorem Echoes.readTurn (echoes : Echoes stream connection) (turn : Turn) :
    Echoes (stream ++ turn.data) (readTurn connection turn) := by
  unfold Zig.readTurn
  split
  · next closed =>
    refine ⟨echoes.begins.trans (List.prefix_append _ _), fun isOpen => ?_⟩
    rw [closed] at isOpen
    cases isOpen
  next isOpen =>
  have sent := echoes.all (Bool.eq_false_iff.mpr isOpen)
  split
  · refine ⟨echoes.begins.trans (List.prefix_append _ _), ?_⟩
    rintro ⟨⟩
  · split
    · rw [sent]
      exact ⟨List.prefix_refl _, fun _ => rfl⟩
    · -- The connection is closed behind the part that was written.
      refine ⟨?_, ?_⟩
      · show connection.sent ++ _ <+: _
        rw [sent, List.prefix_append_right_inj]
        exact List.take_prefix _ _
      · rintro ⟨⟩

theorem foldl_readTurn_echoes (turns : List Turn) :
    Echoes (turns.flatMap Turn.data) (turns.foldl readTurn .init) := by
  induction turns using List.reverseRecOn with
  | nil => exact ⟨List.prefix_refl _, fun _ => rfl⟩
  | append_singleton turns turn ih =>
      rw [List.foldl_concat, List.flatMap_append, List.flatMap_singleton]
      exact ih.readTurn turn

end Zig

/-- When the C server receives, among other connections, the stream that the Zig handler reads,
`sendall` transmits everything and an `int` counts each event, it has sent back the whole stream;
the Zig handler has sent a beginning of that, however its turns come out, and the same while its
connection is open. -/
theorem servers_echo_alike (memory : Nat → UInt8) {events : List Event} {final : ServerState}
    (transmits : ∀ event ∈ events, event.Transmits) (counted : ∀ event ∈ events, event.Counted)
    (ran : run eventStep (.init memory) events = some final) (fd : SocketFd)
    {turns : List Zig.Turn} (same : turns.flatMap Zig.Turn.data = received fd events) :
    final.net fd = turns.flatMap Zig.Turn.data ∧
      (turns.foldl Zig.readTurn .init).sent <+: final.net fd ∧
      ((turns.foldl Zig.readTurn .init).closed = false →
        (turns.foldl Zig.readTurn .init).sent = final.net fd) := by
  have net : final.net fd = turns.flatMap Zig.Turn.data := by
    rw [(run_serves memory transmits ran).echoed, handled_given counted, same]
  have echoes := Zig.foldl_readTurn_echoes turns
  rw [← net] at echoes
  exact ⟨net, echoes.begins, echoes.all⟩

/-- A read that succeeds, and is written back. -/
def Zig.Turn.echoed (data : Bytes) (fits : data.length ≤ Zig.buffSize) : Zig.Turn :=
  ⟨.ok data, .all, fun _ same => Except.ok.inj same ▸ fits⟩

/-- What one of the connections that take turns sends, in other reads. -/
def otherReads : List Zig.Turn := [.echoed [1] (by decide), .echoed [2, 4] (by decide)]

theorem servers_echo_alike_otherReads :
    ∃ final, run eventStep (.init fun _ => 0) turns = some final ∧
      final.net 5 = [1, 2, 4] ∧ (otherReads.foldl Zig.readTurn .init).sent = final.net 5 := by
  obtain ⟨final, ran⟩ := Option.isSome_iff_exists.mp
    (show (run eventStep (.init fun _ => 0) turns).isSome by decide +kernel)
  have transmits : ∀ event ∈ turns, event.Transmits := by
    simp [turns, Event.Transmits, Event.read, CUtils.transmits_whole]
  have counted : ∀ event ∈ turns, event.Counted := by
    simp [turns, Event.Counted, Event.read, SpeedDaemon.Arrival.bytes]
  have same : otherReads.flatMap Zig.Turn.data = received 5 turns := by decide +kernel
  obtain ⟨net, -, echoed⟩ := servers_echo_alike _ transmits counted ran 5 same
  exact ⟨final, ran, net, echoed rfl⟩

end NetworkExercises.SmokeTest
