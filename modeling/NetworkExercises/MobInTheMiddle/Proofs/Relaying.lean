/-
Module: NetworkExercises.MobInTheMiddle.Proofs.Relaying
Purpose: What the handler forwards of a stream is its complete lines, each rewritten on its
  own, as long as no event brings a line in parts behind another.
Main exports: rewriteLine, relayStep, Relayed, LineByLine, Relayed.lost,
  relayed_line_by_line
-/
import NetworkExercises.Lib.Run
import NetworkExercises.MobInTheMiddle.Proxy
import NetworkExercises.MobInTheMiddle.Proofs.Rewriting
import NetworkExercises.SpeedDaemon.Proofs.Stream

namespace NetworkExercises.MobInTheMiddle

open Lib
open SpeedDaemon (SocketFd Net WriteResult Arrival readLoop)

/-! ### The line-by-line meaning -/

/-- Some bytes in a buffer of their own, rewritten. -/
def rewriteLine (line : Bytes) : Option Bytes :=
  ((BoundedArray.fromSlice line).bind findAndReplaceBoguscoinAddress).map BoundedArray.items

theorem rewriteLine_eq_some {line result : Bytes} :
    rewriteLine line = some result ↔ line.length ≤ 1024 ∧ Rewrites 0 line result := by
  unfold rewriteLine
  by_cases room : line.length ≤ 1024
  · have made : (BoundedArray.fromSlice line : Option U8BoundArray) = some ⟨line, room⟩ :=
      BoundedArray.fromSlice_eq_some.mpr rfl
    rw [made, Option.bind_some, findAndReplace_iff, and_iff_right room]
  · have full : (BoundedArray.fromSlice line : Option U8BoundArray) = none := by
      rw [BoundedArray.fromSlice, dif_neg room]
    simp [full, room]

/-- Of the bytes sent so far, the complete lines have been forwarded, each rewritten on its
own and one behind the other, and the bytes behind the last newline are in the fifo. -/
structure Relayed (base : Bytes) (client upstream : SocketFd) (sent : Bytes) (proxy : Proxy) :
    Prop where
  forwarded : ∃ outs, List.Forall₂ (fun line out => rewriteLine line = some out)
    (splitLines newline sent).1 outs ∧ proxy.net upstream = base ++ outs.flatten
  kept : proxy.connections.streamfifomap client = some (splitLines newline sent).2

/-- An event of one endpoint, whose write succeeds. -/
def relayStep (client : SocketFd) (proxy : Proxy) (arrival : Arrival) : Option Proxy :=
  some (handleMessge client arrival .all proxy)

/-- The event reads something, and afterwards the fifo holds no complete line, or nothing
but complete lines; the search does not miss the start of one of these, and with the new
addresses they still fit into the buffer. -/
structure LineByLine (client : SocketFd) (proxy : Proxy) (arrival : Arrival) : Prop where
  something : arrival.chunks ≠ []
  whole : ∀ fifo, proxy.connections.streamfifomap client = some fifo →
    newline ∉ fifo ++ arrival.bytes ∨
      (fifo ++ arrival.bytes).getLast? = some newline ∧
      ¬ MissesLine (fifo ++ arrival.bytes) ∧ (rewriteLine (fifo ++ arrival.bytes)).isSome

variable {client upstream : SocketFd} {proxy next : Proxy} {arrival : Arrival}
  {base sent : Bytes}

/-- The fifo after the read loop goes to `forward`. -/
theorem handleMessge_reads {fifo : Bytes} (written : WriteResult)
    (paired : proxy.connections.map client = some upstream)
    (held : proxy.connections.streamfifomap client = some fifo)
    (ending : arrival.ending = .wouldBlock) (something : arrival.chunks ≠ []) :
    handleMessge client arrival written proxy =
      forward client upstream (fifo ++ arrival.bytes) written proxy := by
  have bytes : (readLoop fifo 0 arrival.chunks).1 = fifo ++ arrival.bytes :=
    SpeedDaemon.readLoop_fst _ _ _
  have last : (readLoop fifo 0 arrival.chunks).2 ≠ 0 :=
    SpeedDaemon.readLoop_snd_ne_zero arrival.nonempty (.inr something)
  simp only [handleMessge, paired, held, ending, bytes, if_neg last]

/-- With a newline in it, the fifo is emptied on every way out. -/
theorem forward_discards {datapeek : Bytes} {written : WriteResult}
    (marked : newline ∈ datapeek) :
    (forward client upstream datapeek written proxy).connections.streamfifomap client =
      some [] := by
  have emptied : (proxy.connections.setFifo client []).streamfifomap client = some [] :=
    Function.update_self ..
  rw [forward, if_neg (not_not.mpr marked)]
  simp only
  split
  · exact emptied
  · split
    · exact emptied
    · exact emptied

/-- Whole lines are forwarded, each rewritten on its own. -/
theorem forward_lines (client upstream : SocketFd) (proxy : Proxy) {datapeek : Bytes}
    (ends : datapeek.getLast? = some newline) (met : ¬ MissesLine datapeek)
    (fits : (rewriteLine datapeek).isSome) :
    ∃ outs, List.Forall₂ (fun line out => rewriteLine line = some out)
        (splitLines newline datapeek).1 outs ∧
      forward client upstream datapeek .all proxy =
        ⟨proxy.connections.setFifo client [],
          Function.update proxy.net upstream (proxy.net upstream ++ outs.flatten)⟩ := by
  obtain ⟨result, rewritten⟩ := Option.isSome_iff_exists.mp fits
  obtain ⟨room, rewrites⟩ := rewriteLine_eq_some.mp rewritten
  obtain ⟨outs, each, rfl⟩ := rewrites.lines (.inr ends) met
  refine ⟨outs, ?_, ?_⟩
  · have short : ∀ line ∈ (splitLines newline datapeek).1, line.length ≤ 1024 :=
      fun line member => (splitLines_length_le member).trans room
    simp only [rewriteLine_eq_some]
    exact (List.forall₂_and_left _ _).mpr ⟨short, each⟩
  · obtain ⟨out, done, outItems⟩ := Option.map_eq_some_iff.mp rewritten
    obtain ⟨msgBuffer, made, replaced⟩ := Option.bind_eq_some_iff.mp done
    rw [forward, if_neg (not_not.mpr (List.mem_of_getLast? ends))]
    simp only [made, replaced, writeUpstream, outItems]

/-- An event that meets the condition keeps the stream relayed. -/
theorem Relayed.step (relayed : Relayed base client upstream sent proxy)
    (paired : proxy.connections.map client = some upstream)
    (ending : arrival.ending = .wouldBlock) (byLine : LineByLine client proxy arrival)
    (step : relayStep client proxy arrival = some next) :
    Relayed base client upstream (sent ++ arrival.bytes) next ∧
      next.connections.map client = some upstream := by
  obtain ⟨outs, each, netEq⟩ := relayed.forwarded
  have reads := handleMessge_reads .all paired relayed.kept ending byLine.something
  cases step
  rw [reads]
  rcases byLine.whole _ relayed.kept with unmarked | ⟨ends, met, fits⟩
  · rw [forward, if_pos unmarked]
    refine ⟨⟨⟨outs, ?_, netEq⟩, ?_⟩, paired⟩
    · rw [splitLines_append, splitLines_of_notMem unmarked, List.append_nil]
      exact each
    · rw [splitLines_append, splitLines_of_notMem unmarked]
      exact Function.update_self ..
  · obtain ⟨more, eachMore, forwardEq⟩ := forward_lines client upstream proxy ends met fits
    rw [forwardEq]
    refine ⟨⟨⟨outs ++ more, ?_, ?_⟩, ?_⟩, paired⟩
    · rw [splitLines_append]
      exact List.rel_append each eachMore
    · simp [netEq]
    · rw [splitLines_append, splitLines_of_ends ends]
      exact Function.update_self ..

/-- An event that leaves an unfinished line behind a newline never keeps it so. -/
theorem Relayed.lost (relayed : Relayed base client upstream sent proxy)
    (paired : proxy.connections.map client = some upstream)
    (ending : arrival.ending = .wouldBlock) (something : arrival.chunks ≠ [])
    (marked : newline ∈ (splitLines newline sent).2 ++ arrival.bytes)
    (unfinished : ((splitLines newline sent).2 ++ arrival.bytes).getLast? ≠ some newline) :
    ¬ Relayed base client upstream (sent ++ arrival.bytes)
      (handleMessge client arrival .all proxy) := by
  intro after
  have kept := after.kept
  rw [handleMessge_reads .all paired relayed.kept ending something, forward_discards marked,
    Option.some.injEq, splitLines_append] at kept
  have nonempty := List.ne_nil_of_mem marked
  exact unfinished ((splitLines_rest_eq_nil nonempty).mp kept.symm)

/-! ### Whole runs -/

/-- Whatever the cuts, the lines are relayed one by one. -/
theorem relayed_line_by_line {events : List Arrival} {final : Proxy}
    (paired : proxy.connections.map client = some upstream)
    (fresh : proxy.connections.streamfifomap client = some [])
    (segments : ∀ arrival ∈ events, arrival.ending = .wouldBlock)
    (each : EachStep (LineByLine client) (relayStep client) proxy events)
    (ran : run (relayStep client) proxy events = some final) :
    Relayed (proxy.net upstream) client upstream (events.flatMap Arrival.bytes) final := by
  have initial : Relayed (proxy.net upstream) client upstream [] proxy :=
    ⟨⟨[], .nil, by simp⟩, fresh⟩
  have relates := run_relates_when _
    (fun past state => Relayed (proxy.net upstream) client upstream
      (past.flatMap Arrival.bytes) state ∧ state.connections.map client = some upstream)
    (fun past state arrival next before now step => by
      rw [List.flatMap_append, List.flatMap_singleton]
      exact before.1.step before.2 now.2 now.1 step)
    [] ⟨initial, paired⟩ (each.and_forall segments) ran
  exact relates.1

section Events

def asciiBytes (text : String) : Bytes := text.toList.map fun char => UInt8.ofNat char.toNat

def onePair : Proxy := ⟨ConnectionHashMap.init.add 5 6, fun _ => []⟩

/-- An address is cut in two. -/
def cutInAddress : List Arrival :=
  [⟨[asciiBytes "hi 7F1u3wSD5RbOHQ"], .wouldBlock, by decide⟩,
    ⟨[asciiBytes "mupo9nx4TnhQ\n"], .wouldBlock, by decide⟩]

/-- The cut is between the lines of one read. -/
def cutBehindLine : List Arrival := [⟨[asciiBytes "a\nb"], .wouldBlock, by decide⟩]

theorem cutInAddress_lineByLine :
    EachStep (LineByLine 5) (relayStep 5) onePair cutInAddress := by
  refine ⟨⟨by decide, fun fifo held => .inl ?_⟩, fun next step =>
    ⟨⟨by decide, fun fifo held => .inr ?_⟩, fun _ _ => trivial⟩⟩
  · cases held
    decide
  · cases step
    obtain rfl : asciiBytes "hi 7F1u3wSD5RbOHQ" = fifo := Option.some.inj held
    exact ⟨by decide, fun missed => absurd missed.infix (by decide), by decide +kernel⟩

theorem relayed_line_by_line_cut :
    ∃ final, run (relayStep 5) onePair cutInAddress = some final ∧
      Relayed [] 5 6 (asciiBytes "hi 7F1u3wSD5RbOHQmupo9nx4TnhQ\n") final :=
  ⟨_, rfl, relayed_line_by_line rfl rfl (by decide) cutInAddress_lineByLine rfl⟩

/-- What stands behind a newline is not kept. -/
theorem not_relayed_line_by_line :
    ¬ ∀ (proxy final : Proxy) (client upstream : SocketFd) (events : List Arrival),
      proxy.connections.map client = some upstream →
        proxy.connections.streamfifomap client = some [] →
          (∀ arrival ∈ events, arrival.ending = .wouldBlock ∧ arrival.chunks ≠ []) →
            (events.flatMap Arrival.bytes).length ≤ 1024 →
              run (relayStep client) proxy events = some final →
                Relayed (proxy.net upstream) client upstream (events.flatMap Arrival.bytes)
                  final := by
  intro always
  have relayed := always onePair _ 5 6 cutBehindLine rfl rfl (by decide) (by decide) rfl
  have kept := relayed.kept
  revert kept
  decide +kernel

end Events

end NetworkExercises.MobInTheMiddle
