/-
Module: NetworkExercises.CUtils.Proofs.Sockets
Purpose: When `sendall` returns, and hands over everything that it says it did.
Main exports: sendallLen_eq, Possible, NeverStopsShort, Reported, reported_iff, stopped_short
-/
import NetworkExercises.CUtils.Sockets

namespace NetworkExercises.CUtils

open Lib

variable {nbytesSent totalSent : Nat} {buf handed : Bytes} {results : List SendResult}

/-- The counters change nothing else. -/
theorem sendLoopLen_eq :
    (sendLoopLen nbytesSent buf.length totalSent buf handed results).map
        (fun sent => (sent.1, sent.2.2)) = sendLoop nbytesSent buf handed results := by
  induction results generalizing nbytesSent totalSent buf handed with
  | nil =>
      rw [sendLoopLen, sendLoop]
      split <;> rfl
  | cons result results ih =>
      cases result with
      | failed errno =>
          rw [sendLoopLen, sendLoop]
          split <;> rfl
      | sent count =>
          rw [sendLoopLen, sendLoop]
          split
          · split
            · rw [← List.length_drop, ih]
            · rfl
          · rfl

theorem sendallLen_eq (buf : Bytes) (sending : Sending) :
    (sendallLen buf sending).map (fun sent => (sent.1, sent.2.2)) = sendall buf sending := by
  rw [sendallLen, sendall]
  split
  · exact sendLoopLen_eq
  · rfl

/-- What `send` can return when it is asked for so many bytes, one call after the other. -/
def Possible (remaining : Nat) : List SendResult → Prop
  | [] => True
  | .failed errno :: _ => errno ≠ 0
  | .sent count :: results =>
      1 ≤ count ∧ count ≤ remaining ∧
        (count < remaining → Possible (remaining - count) results)

/-- Up to the last byte or an error, what a call of `send` leaves is more than it took. -/
def NeverStopsShort (remaining : Nat) : List SendResult → Prop
  | [] => True
  | .failed _ :: _ => True
  | .sent count :: results =>
      count < remaining →
        count < remaining - count ∧ NeverStopsShort (remaining - count) results

/-- The result 0 stands for all of the bytes, each handed over once and in order; with an error,
`*len` is the number of those that were. -/
structure Reported (buf handed : Bytes) (len : Nat) (result : Int) : Prop where
  whole : result = 0 → handed = buf ∧ len = buf.length
  part : result ≠ 0 → handed <+: buf ∧ len = handed.length

/-- The loop is over as soon as the last call took as much as there is left. -/
theorem sendLoopLen_done {totalToSend : Nat} (done : totalToSend ≤ nbytesSent) :
    sendLoopLen nbytesSent totalToSend totalSent buf handed results =
      some (handed, totalSent, 0) := by
  have notLess := Nat.not_lt_of_le done
  cases results with
  | nil => rw [sendLoopLen, if_neg notLess]
  | cons result results => cases result <;> rw [sendLoopLen, if_neg notLess]

/-- The loop hands over a first part of the bytes and counts them, and it ends with a result other
than 0 or, if it never stops short, with all of them. -/
theorem sendLoopLen_spec (on : nbytesSent < buf.length) (possible : Possible buf.length results)
    (enough : buf.length ≤ results.length) :
    ∃ taken rest result, buf = taken ++ rest ∧
      sendLoopLen nbytesSent buf.length totalSent buf handed results =
        some (handed ++ taken, totalSent + taken.length, result) ∧
      (result = 0 → (rest = [] ↔ NeverStopsShort buf.length results)) ∧
      (result ≠ 0 → NeverStopsShort buf.length results) := by
  induction results generalizing nbytesSent totalSent buf handed with
  | nil =>
      rw [List.length_nil] at enough
      omega
  | cons response results ih =>
      cases response with
      | failed errno =>
          refine ⟨[], buf, errno, rfl, ?_, fun isZero => absurd isZero possible, fun _ => trivial⟩
          rw [sendLoopLen, if_pos on, List.append_nil, List.length_nil, Nat.add_zero]
      | sent count =>
          obtain ⟨positive, atMost, further⟩ := possible
          have split := (List.take_append_drop count buf).symm
          have taken : (buf.take count).length = count := by rw [List.length_take]; omega
          rw [List.length_cons] at enough
          rw [sendLoopLen, if_pos on, if_pos ⟨positive, atMost⟩, NeverStopsShort]
          rcases Nat.lt_or_ge count (buf.length - count) with more | done
          · -- The loop goes on with what is left.
            have less : count < buf.length := by omega
            rw [← List.length_drop] at more further ⊢
            obtain ⟨takenOn, rest, result, splitOn, runs, whole, part⟩ :=
              @ih count (totalSent + count) (buf.drop count) (handed ++ buf.take count) more
                (further less) (by rw [List.length_drop]; omega)
            refine ⟨buf.take count ++ takenOn, rest, result, ?_, ?_, ?_, ?_⟩
            · rw [List.append_assoc, ← splitOn]
              exact split
            · rw [runs, List.append_assoc, List.length_append, taken, Nat.add_assoc]
            · intro isZero
              rw [whole isZero]
              exact ⟨fun never _ => ⟨more, never⟩, fun never => (never less).2⟩
            · exact fun isError _ => ⟨more, part isError⟩
          · -- The loop stops, with less than everything when something was left.
            refine ⟨buf.take count, buf.drop count, 0, split, ?_, fun _ => ?_,
              fun isError => absurd rfl isError⟩
            · rw [sendLoopLen_done done, taken]
            · rw [List.drop_eq_nil_iff]
              refine ⟨fun all less => absurd all (Nat.not_le_of_lt less), fun never => ?_⟩
              by_contra less
              exact absurd (never (Nat.lt_of_not_le less)).1 (Nat.not_lt_of_le done)

/-- Behind the log, whatever the kernel answers, the loop ends, and what `sendall` returns is right
exactly when no call of `send` leaves as much as it took or less, other than nothing. -/
theorem sendallLen_spec {sending : Sending} (traced : sending.traces buf = true)
    (nonempty : buf ≠ []) (possible : Possible buf.length sending.results)
    (enough : buf.length ≤ sending.results.length) :
    ∃ handed len result, sendallLen buf sending = some (handed, len, result) ∧
      (Reported buf handed len result ↔ NeverStopsShort buf.length sending.results) := by
  obtain ⟨taken, rest, result, split, runs, whole, part⟩ :=
    @sendLoopLen_spec 0 0 buf [] sending.results (List.length_pos_iff.mpr nonempty) possible enough
  refine ⟨taken, taken.length, result, ?_, ?_⟩
  · rw [sendallLen, if_pos traced, runs, List.nil_append, Nat.zero_add]
  by_cases isZero : result = 0
  · rw [← whole isZero]
    constructor
    · rintro ⟨all, -⟩
      simpa [← (all isZero).1] using split
    · rintro rfl
      rw [List.append_nil] at split
      subst split
      exact ⟨fun _ => ⟨rfl, rfl⟩, fun isError => absurd isZero isError⟩
  · refine ⟨fun _ => part isZero, fun _ => ⟨fun zero => absurd zero isZero, fun _ => ⟨?_, rfl⟩⟩⟩
    exact ⟨rest, split.symm⟩

/-- Whatever the kernel answers, `sendall` returns exactly when its log does; and it returns what
is right exactly when, besides, no call of `send` leaves as much as it took or less, other than
nothing. -/
theorem reported_iff (buf : Bytes) (nonempty : buf ≠ []) (sending : Sending)
    (possible : Possible buf.length sending.results)
    (enough : buf.length ≤ sending.results.length) :
    ((∃ sent, sendallLen buf sending = some sent) ↔ sending.traces buf = true) ∧
    ((∃ handed len result, sendallLen buf sending = some (handed, len, result) ∧
        Reported buf handed len result) ↔
      sending.traces buf = true ∧ NeverStopsShort buf.length sending.results) := by
  by_cases traced : sending.traces buf = true
  · obtain ⟨handed, len, result, returns, right⟩ :=
      sendallLen_spec traced nonempty possible enough
    refine ⟨iff_of_true ⟨_, returns⟩ traced, ?_⟩
    rw [← right]
    constructor
    · rintro ⟨handed', len', result', returns', reported⟩
      cases returns.symm.trans returns'
      exact ⟨traced, reported⟩
    · exact fun both => ⟨handed, len, result, returns, both.2⟩
  · have ends : sendallLen buf sending = none := if_neg traced
    simp [ends, traced]

/-- Three bytes that go out in two calls. -/
theorem reported_iff_two :
    ∃ handed len result,
      sendallLen [10, 20, 30] ⟨4096, 0, false, [.sent 1, .sent 2, .failed 104]⟩ =
        some (handed, len, result) ∧ Reported [10, 20, 30] handed len result := by
  have possible : Possible 3 [.sent 1, .sent 2, .failed 104] :=
    ⟨by decide, by decide, fun _ => ⟨by decide, by decide, fun more => absurd more (by decide)⟩⟩
  have never : NeverStopsShort 3 [.sent 1, .sent 2, .failed 104] :=
    fun _ => ⟨by decide, fun more => absurd more (by decide)⟩
  exact (reported_iff [10, 20, 30] (by decide) ⟨4096, 0, false, [.sent 1, .sent 2, .failed 104]⟩
    possible (by decide)).2.mpr ⟨by decide, never⟩

/-- `%s`, or what fills the stack, does not get to the first `send`. -/
example : sendallLen [37, 115] ⟨4096, 0, false, [.sent 2]⟩ = none ∧
    sendallLen [10, 20] ⟨3, 0, true, [.sent 2]⟩ = none := by decide

/-- The first call takes five bytes of ten: no other is made, and the result is 0. -/
theorem stopped_short :
    Possible 10 [.sent 5, .sent 5] ∧
      sendallLen [0, 1, 2, 3, 4, 5, 6, 7, 8, 9] ⟨4096, 0, false, [.sent 5, .sent 5]⟩ =
        some ([0, 1, 2, 3, 4], 5, 0) ∧
      ¬ Reported [0, 1, 2, 3, 4, 5, 6, 7, 8, 9] [0, 1, 2, 3, 4] 5 0 := by
  refine ⟨⟨by decide, by decide, fun _ => ⟨by decide, by decide, ?_⟩⟩, by decide, ?_⟩
  · exact fun more => absurd more (by decide)
  · exact fun reported => absurd (reported.whole rfl).2 (by decide)

end NetworkExercises.CUtils
