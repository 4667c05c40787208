/-
Module: NetworkExercises.CUtils.Sockets
Purpose: `sendall` of `utils/sockets.c`.
Main exports: SendResult, Sending, sendall, sendallLen, Transmits
-/
import NetworkExercises.Lib.BigEndian

namespace NetworkExercises.CUtils

open Lib

/-- What one call of `send` returns: a number of bytes, or -1 with `errno`. -/
inductive SendResult where
  | sent (count : Nat)
  | failed (errno : Int)
deriving DecidableEq, Repr

/-- A format of `printf` without conversions: up to the NUL each percent sign has another one
behind it.  `percent` is set behind a percent sign that waits for it. -/
def isPlain (percent : Bool) : Bytes → Bool
  | [] => !percent
  | byte :: format =>
      if percent then byte = 37 && isPlain false format
      else byte = 0 || isPlain (byte = 37) format

/-- What a call of `sendall` meets: the bytes that are left on the stack, the byte that lies
behind the buffer, whether the program goes on after a format with conversions, and the results
of `send`. -/
structure Sending where
  stack : Nat
  behind : UInt8
  survives : Bool
  results : List SendResult
deriving DecidableEq, Repr

/-- The copy of the buffer fits the stack, and `log_trace(msg)` returns.  The copy, with the byte
behind the buffer and a NUL, is the format, and there are no arguments: what happens at a
conversion is undefined. -/
def Sending.traces (self : Sending) (buf : Bytes) : Bool :=
  decide (buf.length + 2 ≤ self.stack) &&
    (isPlain false (buf ++ [self.behind]) || self.survives)

/-- The loop of `sendall`, with the bytes that are left, the last result and the bytes
handed over; no outcome when the kernel has not answered, or not with a possible number. -/
def sendLoop (nbytesSent : Nat) (buf handed : Bytes) :
    List SendResult → Option (Bytes × Int)
  | [] => if nbytesSent < buf.length then none else some (handed, 0)
  | .failed errno :: _ =>
      if nbytesSent < buf.length then some (handed, errno) else some (handed, 0)
  | .sent count :: results =>
      if nbytesSent < buf.length then
        if 1 ≤ count ∧ count ≤ buf.length then
          sendLoop count (buf.drop count) (handed ++ buf.take count) results
        else none
      else some (handed, 0)

/-- `sendall`: the bytes handed over, and the result; no outcome when its log ends the program. -/
def sendall (buf : Bytes) (sending : Sending) : Option (Bytes × Int) :=
  if sending.traces buf then sendLoop 0 buf [] sending.results else none

/-- The loop of `sendall` with the counters of the source: `totalToSend` bytes lie at `buf`, and
`totalSent` is what `*len` becomes. -/
def sendLoopLen (nbytesSent totalToSend totalSent : Nat) (buf handed : Bytes) :
    List SendResult → Option (Bytes × Nat × Int)
  | [] => if nbytesSent < totalToSend then none else some (handed, totalSent, 0)
  | .failed errno :: _ =>
      if nbytesSent < totalToSend then some (handed, totalSent, errno)
      else some (handed, totalSent, 0)
  | .sent count :: results =>
      if nbytesSent < totalToSend then
        if 1 ≤ count ∧ count ≤ totalToSend then
          sendLoopLen count (totalToSend - count) (totalSent + count) (buf.drop count)
            (handed ++ buf.take count) results
        else none
      else some (handed, totalSent, 0)

/-- `sendall`: the bytes handed over, `*len`, and the result. -/
def sendallLen (buf : Bytes) (sending : Sending) : Option (Bytes × Nat × Int) :=
  if sending.traces buf then sendLoopLen 0 buf.length 0 buf [] sending.results else none

/-- `sendall` hands over everything, whatever it is given. -/
def Transmits (sends : Bytes → Sending) : Prop :=
  ∀ buf, buf ≠ [] → sendall buf (sends buf) = some (buf, 0)

/-- One call of `send` that takes everything, behind a log that does no harm. -/
def Sending.whole (buf : Bytes) : Sending := ⟨buf.length + 2, 0, true, [.sent buf.length]⟩

theorem transmits_whole : Transmits .whole := by
  intro buf nonempty
  have traced : (Sending.whole buf).traces buf = true := by simp [Sending.whole, Sending.traces]
  have length := List.length_pos_iff.mpr nonempty
  have taken : 1 ≤ buf.length ∧ buf.length ≤ buf.length := ⟨length, le_refl _⟩
  rw [sendall, if_pos traced]
  simp [Sending.whole, sendLoop, length, taken]

end NetworkExercises.CUtils
