/-
Module: NetworkExercises.PrimeTime.Proofs.Answering
Purpose: What both servers of exercise 1 are for: one response for each line of a stream,
  and none behind the first malformed line.
Main exports: answerLines, answerLines_append, dueLines
-/
import NetworkExercises.PrimeTime.Json

namespace NetworkExercises.PrimeTime

open Lib

variable (check : Bytes → Option Int64) (malformedResp : Bytes)

/-- The responses to the lines of a stream, and whether one of them was malformed, which
is then the last one that is answered.  A line is checked for the number that it asks
about; there is no answer where `is_prime` overflows. -/
def answerLines : List Bytes → Option (Bytes × Bool)
  | [] => some ([], false)
  | line :: lines =>
      match check line with
      | none => some (malformedResp, true)
      | some number =>
          isPrime number >>= fun prime =>
            (answerLines lines).map fun (sent, malformed) =>
              (formatResponse prime ++ sent, malformed)

/-- The lines that are answered: those up to the first malformed one. -/
def dueLines : List Bytes → List Bytes
  | [] => []
  | line :: lines => line :: if (check line).isNone then [] else dueLines lines

variable {check malformedResp}

@[simp] theorem answerLines_nil : answerLines check malformedResp [] = some ([], false) := rfl

theorem answerLines_cons_malformed {line : Bytes} (malformed : check line = none)
    (lines : List Bytes) :
    answerLines check malformedResp (line :: lines) = some (malformedResp, true) := by
  rw [answerLines, malformed]

theorem answerLines_cons_number {line : Bytes} {number : Int64} (asks : check line = some number)
    (lines : List Bytes) :
    answerLines check malformedResp (line :: lines) =
      isPrime number >>= fun prime =>
        (answerLines check malformedResp lines).map fun (sent, malformed) =>
          (formatResponse prime ++ sent, malformed) := by
  rw [answerLines, asks]

/-- More lines are answered behind the ones before them, unless one of those was
malformed. -/
theorem answerLines_append (front back : List Bytes) :
    answerLines check malformedResp (front ++ back) =
      answerLines check malformedResp front >>= fun (sent, malformed) =>
        if malformed then some (sent, true)
        else
          (answerLines check malformedResp back).map fun (more, malformed) =>
            (sent ++ more, malformed) := by
  induction front with
  | nil => simp
  | cons line front ih =>
      rw [List.cons_append]
      cases asks : check line with
      | none =>
          rw [answerLines_cons_malformed asks, answerLines_cons_malformed asks]
          rfl
      | some number =>
          rw [answerLines_cons_number asks, answerLines_cons_number asks, ih]
          cases isPrime number with
          | none => rfl
          | some prime =>
              cases answerLines check malformedResp front with
              | none => rfl
              | some answered =>
                  obtain ⟨sent, malformed⟩ := answered
                  cases malformed with
                  | true => rfl
                  | false =>
                      cases answerLines check malformedResp back with
                      | none => rfl
                      | some others => simp

/-! ### A request -/

/-- A request as a client writes it. -/
def askSeven : Bytes := ascii "\x7b\"method\":\"isPrime\",\"number\":7\x7d"

/-- What it is parsed to. -/
def sevenAsked : Json :=
  .object [(ascii "method", .string (ascii "isPrime")), (ascii "number", .integer 7)]

end NetworkExercises.PrimeTime
