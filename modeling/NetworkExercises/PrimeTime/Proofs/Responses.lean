/-
Module: NetworkExercises.PrimeTime.Proofs.Responses
Purpose: What a connection of the Zig prime time server is sent depends on the lines of
  its stream only: one response for each, and the end at the first malformed one.
Main exports: responses, processMessages_lines, sends_response_per_line
-/
import NetworkExercises.PrimeTime.Proofs.Answering
import NetworkExercises.PrimeTime.Zig

namespace NetworkExercises.PrimeTime.Zig

open Lib

variable {parse : Parser}

/-- The number that a line asks about, when it is not malformed. -/
def checkLine (parse : Parser) (line : Bytes) : Option Int64 := (parseRequest parse line).toOption

/-- The responses to the lines of a stream. -/
def responses (parse : Parser) (lines : List Bytes) : Option (Bytes × Bool) :=
  answerLines (checkLine parse) malformedResp lines

/-! ### The loop over the lines of a read -/

/-- The loop answers the lines from `start` on. -/
theorem processLoop_lines {lines : List Bytes} (unmarked : ∀ line ∈ lines, needle ∉ line)
    (before sendFifo : Bytes) {turns : Nat} (enough : lines.length < turns) :
    processLoop parse (before ++ lines.flatMap (· ++ [needle])) turns before.length sendFifo =
      (responses parse lines).map fun (sent, malformed) => (malformed, sendFifo ++ sent) := by
  induction lines generalizing before sendFifo turns with
  | nil =>
      cases turns with
      | zero => cases enough
      | succ turns => simp [processLoop, responses, answerLines]
  | cons line lines ih =>
      obtain ⟨lineUnmarked, unmarked⟩ := List.forall_mem_cons.mp unmarked
      cases turns with
      | zero => cases enough
      | succ turns =>
          have behind : (before ++ (line :: lines).flatMap (· ++ [needle])).drop before.length =
              line ++ needle :: lines.flatMap (· ++ [needle]) := by
            rw [List.drop_left, List.flatMap_cons, List.append_assoc, List.singleton_append]
          have request : ((before ++ (line :: lines).flatMap (· ++ [needle])).take
              (line.length + before.length)).drop before.length = line := by
            rw [List.drop_take, behind, Nat.add_sub_cancel, List.take_left]
          rw [processLoop, behind, findIdx?_mark lineUnmarked]
          simp only [request]
          cases parsed : parseRequest parse line with
          | error =>
              have malformed : checkLine parse line = none := by rw [checkLine, parsed]; rfl
              rw [responses, answerLines_cons_malformed malformed]
              rfl
          | ok number =>
              have asks : checkLine parse line = some number := by rw [checkLine, parsed]; rfl
              rw [responses, answerLines_cons_number asks]
              dsimp only
              cases isPrime number with
              | none => rfl
              | some prime =>
                  have next : before ++ (line :: lines).flatMap (· ++ [needle]) =
                      (before ++ line ++ [needle]) ++ lines.flatMap (· ++ [needle]) := by
                    simp
                  have nextStart : line.length + before.length + 1 =
                      (before ++ line ++ [needle]).length := by
                    simp only [List.length_append, List.length_singleton]
                    omega
                  have rest := ih unmarked (before ++ line ++ [needle])
                    (sendFifo ++ formatResponse prime) (Nat.lt_of_succ_lt_succ enough)
                  simp only [Option.bind_eq_bind, Option.bind_some, next, nextStart]
                  split
                  · -- The loop stops early, at the end of the messages.
                    next atEnd =>
                    have nothing : lines = [] := by
                      cases lines with
                      | nil => rfl
                      | cons other lines => simp at atEnd
                    rw [nothing]
                    simp
                  · rw [rest, responses, Option.map_map]
                    congr 1
                    funext answered
                    simp

/-- `processMessages` on whole lines. -/
theorem processMessages_lines {lines : List Bytes} (unmarked : ∀ line ∈ lines, needle ∉ line)
    (sendFifo : Bytes) :
    processMessages parse (lines.flatMap (· ++ [needle])) sendFifo =
      (responses parse lines).map fun (sent, malformed) => (malformed, sendFifo ++ sent) := by
  simpa [processMessages] using
    processLoop_lines unmarked [] sendFifo (Nat.lt_succ_of_le (length_le_flatMap_mark needle lines))

/-! ### One read -/

/-- A read that succeeds, and whose responses are all written. -/
def Turn.data (bytes : Bytes) : Turn := ⟨.ok bytes, .all⟩

/-- A connection between two reads that has sent what is `answered` and keeps `rest`;
nothing is kept once it is closed. -/
def Answered (rest : Bytes) (answered : Option (Bytes × Bool)) (connection : Option Connection) :
    Prop :=
  match answered with
  | none => connection = none
  | some (sent, true) => ∃ final, connection = some final ∧ final.sent = sent ∧ final.closed = true
  | some (sent, false) => connection = some ⟨rest, [], sent, false⟩

theorem answered_none {rest : Bytes} {connection : Option Connection} :
    Answered rest none connection ↔ connection = none := Iff.rfl

theorem answered_open {rest sent : Bytes} {connection : Option Connection} :
    Answered rest (some (sent, false)) connection ↔ connection = some ⟨rest, [], sent, false⟩ :=
  Iff.rfl

/-- A read of an open connection. -/
theorem readTurn_answered (parse : Parser) (rest sent : Bytes) {bytes : Bytes}
    (nonempty : bytes ≠ []) :
    Answered (splitLines needle (rest ++ bytes)).2
      ((responses parse (completeLines needle (rest ++ bytes))).map
        fun (more, malformed) => (sent ++ more, malformed))
      (readTurn parse ⟨rest, [], sent, false⟩ (.data bytes)) := by
  have some_data : bytes.length ≠ 0 := fun zero => nonempty (List.length_eq_zero_iff.mp zero)
  simp only [readTurn, Turn.data, Bool.false_eq_true, if_false, some_data]
  cases found : lastIndexOf needle (rest ++ bytes) with
  | none =>
      have unmarked := notMem_of_lastIndexOf found
      rw [completeLines_of_notMem unmarked, splitLines_of_notMem unmarked]
      simp [responses, Answered]
  | some idx =>
      obtain ⟨messages, left⟩ := take_lastIndexOf found
      simp only [messages]
      rw [processMessages_lines fun line => notMem_of_mem_completeLines]
      cases responses parse (completeLines needle (rest ++ bytes)) with
      | none => rfl
      | some answered =>
          obtain ⟨more, malformed⟩ := answered
          cases malformed with
          | true => simp [Answered, respond, Connection.close]
          | false => simp [Answered, respond, left]

/-! ### Whole streams -/

/-- What a connection has sent and what it keeps after any reads. -/
theorem run_answered (parse : Parser) {reads : List Bytes}
    (nonempty : ∀ bytes ∈ reads, bytes ≠ []) :
    Answered (splitLines needle reads.flatten).2
      (responses parse (completeLines needle reads.flatten))
      (run (readTurn parse) .init (reads.map .data)) := by
  induction reads using List.reverseRecOn with
  | nil => rfl
  | append_singleton reads bytes ih =>
      have before := ih fun read member => nonempty read (List.mem_append_left _ member)
      have someBytes : bytes ≠ [] := nonempty bytes (by simp)
      rw [List.map_append, run_append, List.flatten_concat, completeLines_append, responses,
        answerLines_append]
      rw [responses] at before
      cases answered : answerLines (checkLine parse) malformedResp
          (completeLines needle reads.flatten) with
      | none =>
          rw [answered, answered_none] at before
          rw [before]
          rfl
      | some pair =>
          obtain ⟨sent, malformed⟩ := pair
          rw [answered] at before
          cases malformed with
          | true =>
              obtain ⟨final, ran, finalSent, closed⟩ := before
              rw [ran]
              refine ⟨final, ?_, finalSent, closed⟩
              simp [run, readTurn, closed]
          | false =>
              rw [answered_open] at before
              rw [before, splitLines_append]
              have now := readTurn_answered parse
                (splitLines needle reads.flatten).2 sent someBytes
              simpa [run, responses] using now

/-- For every stream and every way to cut it into reads, a connection sends one response
for each complete line, in order, and ends with the one for the first malformed line, at
which it closes; until then it keeps exactly the bytes behind the last newline.  There is
no outcome where `is_prime` overflows. -/
theorem sends_response_per_line (parse : Parser) (reads : List Bytes)
    (nonempty : ∀ bytes ∈ reads, bytes ≠ []) :
    (run (readTurn parse) .init (reads.map .data)).map
        (fun connection => (connection.sent, connection.closed)) =
      responses parse (completeLines needle reads.flatten) ∧
    ∀ connection, run (readTurn parse) .init (reads.map .data) = some connection →
      connection.closed = false →
      connection.recvFifo = (splitLines needle reads.flatten).2 := by
  have answered := run_answered parse nonempty
  cases expected : responses parse (completeLines needle reads.flatten) with
  | none =>
      rw [expected, answered_none] at answered
      rw [answered]
      exact ⟨rfl, nofun⟩
  | some pair =>
      obtain ⟨sent, malformed⟩ := pair
      rw [expected] at answered
      cases malformed with
      | true =>
          obtain ⟨final, ran, rfl, closed⟩ := answered
          rw [ran]
          refine ⟨by rw [Option.map_some, closed], ?_⟩
          rintro connection ⟨rfl⟩ stillOpen
          rw [closed] at stillOpen
          cases stillOpen
      | false =>
          rw [answered_open] at answered
          rw [answered]
          refine ⟨rfl, ?_⟩
          rintro connection ⟨rfl⟩ -
          rfl

/-- A parser of one request. -/
def parseAskSeven : Parser := fun line =>
  if line = askSeven then .ok sevenAsked else .error "SyntaxError"

/-- A request cut in two, with the beginning of a malformed one behind it. -/
theorem sends_response_per_line_cut :
    (run (readTurn parseAskSeven) .init
        ([askSeven.take 9, askSeven.drop 9 ++ [needle, 120], [needle, 120]].map .data)).map
        (fun connection => (connection.sent, connection.closed)) =
      some (formatResponse true ++ malformedResp, true) :=
  (sends_response_per_line parseAskSeven
    [askSeven.take 9, askSeven.drop 9 ++ [needle, 120], [needle, 120]]
    (by decide +kernel)).1.trans (by decide +kernel)

end NetworkExercises.PrimeTime.Zig
