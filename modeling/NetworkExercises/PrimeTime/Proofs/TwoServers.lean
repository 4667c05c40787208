/-
Module: NetworkExercises.PrimeTime.Proofs.TwoServers
Purpose: The C server among its other connections and the Zig handler on its own answer the
  same stream alike, however each of them gets to read it, where they read the lines alike.
Main exports: ChecksAgree, answerLines_agree, ReadAlike, servers_answer_alike
-/
import NetworkExercises.PrimeTime.Proofs.OwnStreams
import NetworkExercises.PrimeTime.Proofs.Responses
import NetworkExercises.PrimeTime.Proofs.Validation

namespace NetworkExercises.PrimeTime

open Lib
open SpeedDaemon (SocketFd)

/-! ### Two checks of a line -/

section Checks

variable {first second : Bytes → Option Int64} {lines : List Bytes}

/-- Two checks find a line malformed alike, and what they find in it alike prime. -/
structure ChecksAgree (first second : Bytes → Option Int64) (line : Bytes) : Prop where
  malformed : first line = none ↔ second line = none
  primality : ∀ one other, first line = some one → second line = some other →
    isPrime one = isPrime other

/-- With two checks that agree on the lines that are answered, the answers differ in the response
to a malformed line only. -/
theorem answerLines_agree (resp resp' : Bytes)
    (agree : ∀ line ∈ dueLines first lines, ChecksAgree first second line) {sent : Bytes}
    {malformed : Bool} (answered : answerLines first resp lines = some (sent, malformed)) :
    ∃ answers, sent = answers ++ (if malformed then resp else []) ∧
      answerLines second resp' lines =
        some (answers ++ (if malformed then resp' else []), malformed) := by
  induction lines generalizing sent malformed with
  | nil =>
      cases answered
      exact ⟨[], rfl, rfl⟩
  | cons line lines ih =>
      rw [dueLines] at agree
      have now := agree line List.mem_cons_self
      cases asks : first line with
      | none =>
          rw [answerLines_cons_malformed asks] at answered
          cases answered
          exact ⟨[], rfl, answerLines_cons_malformed (now.malformed.mp asks) lines⟩
      | some one =>
          obtain ⟨other, asksToo⟩ : ∃ other, second line = some other := by
            rw [← Option.ne_none_iff_exists']
            exact fun none_ => Option.some_ne_none one (asks.symm.trans (now.malformed.mpr none_))
          have same := now.primality one other asks asksToo
          rw [answerLines_cons_number asks] at answered
          obtain ⟨prime, decided, behind⟩ := Option.bind_eq_some_iff.mp answered
          obtain ⟨⟨more, ended⟩, others, pair⟩ := Option.map_eq_some_iff.mp behind
          cases pair
          have later : ∀ line ∈ dueLines first lines, ChecksAgree first second line :=
            fun line member => agree line (List.mem_cons_of_mem _ (by rwa [asks]))
          obtain ⟨answers, rfl, answeredToo⟩ := ih later others
          refine ⟨formatResponse prime ++ answers, (List.append_assoc _ _ _).symm, ?_⟩
          rw [answerLines_cons_number asksToo, ← same, decided, answeredToo, List.append_assoc]
          rfl

end Checks

/-! ### Two parsers -/

variable {parseC : C.Parser} {parseZig : Zig.Parser} {line : Bytes}

/-- The parsers find the same JSON in a line, whose method is not a prolonged one, or both find
none. -/
inductive ReadAlike (parseC : C.Parser) (parseZig : Zig.Parser) (line : Bytes) : Prop where
  | json (text : line ≠ []) (json : Json) (fits : json.Fits) (plain : ¬ Prolonged json)
      (parsedC : parseC line = some json) (parsedZig : parseZig line = .ok json)
  | noJson (unparsedC : parseC line = none) (errorName : String)
      (unparsedZig : parseZig line = .error errorName)

/-- The check of the C server on a value, `null` included. -/
theorem checkLine_eq {json : Json} (parsed : parseC line = some json) :
    C.checkLine parseC line = C.requestNumber json := by
  rw [C.checkLine, parsed]
  cases json <;> rfl

theorem ReadAlike.checks (alike : ReadAlike parseC parseZig line) :
    ChecksAgree (C.checkLine parseC) (Zig.checkLine parseZig) line := by
  cases alike with
  | json text json fits plain parsedC parsedZig =>
      have outcome := (sameOutcome_iff fits).mpr plain
      have zig : Zig.checkLine parseZig line = (Zig.checkRequest json).toOption := by
        rw [Zig.checkLine, parseRequest_eq text parsedZig]
        cases Zig.checkRequest json <;> rfl
      constructor
      · rw [checkLine_eq parsedC, zig, outcome.malformed]
        cases Zig.checkRequest json <;> simp [Except.toOption]
      · intro one other asks asksToo
        rw [checkLine_eq parsedC] at asks
        apply outcome.primality one other asks
        rw [zig] at asksToo
        cases checked : Zig.checkRequest json with
        | error =>
            rw [checked] at asksToo
            cases asksToo
        | ok number =>
            rw [checked] at asksToo
            cases asksToo
            rfl
  | noJson unparsedC errorName unparsedZig =>
      have c : C.checkLine parseC line = none := by rw [C.checkLine, unparsedC]
      have zig : Zig.checkLine parseZig line = none := by
        rw [Zig.checkLine, Zig.parseRequest, unparsedZig]
        split <;> rfl
      exact ⟨iff_of_true c zig, fun one _ asks => absurd (c.symm.trans asks) (by simp)⟩

/-! ### Two servers -/

/-- What the C server keeps in an undisturbed run. -/
theorem run_serves (memory sdMemory : Nat → UInt8) {events : List C.Event}
    {final : C.ServerState}
    (each : EachStep (C.Undisturbed parseC) (C.eventStep parseC) (.init memory sdMemory) events)
    (ran : run (C.eventStep parseC) (.init memory sdMemory) events = some final) :
    C.Serves parseC events final := by
  refine run_relates_when (C.Undisturbed parseC) (C.Serves parseC) ?_ []
    (C.serves_init memory sdMemory) each ran
  intro past state event next serves undisturbed stepEq
  cases event with
  | accept fd => exact C.serves_accept serves stepEq
  | data fd turn => exact C.serves_data serves undisturbed stepEq

/-- A stream that the C server reads in an undisturbed run, among other connections, and the Zig
handler in any reads, gets the same answers from both, if they read the lines that are
answered alike; only the response to a malformed line has a text of its own. -/
theorem servers_answer_alike (memory sdMemory : Nat → UInt8) {events : List C.Event}
    {final : C.ServerState}
    (each : EachStep (C.Undisturbed parseC) (C.eventStep parseC) (.init memory sdMemory) events)
    (ran : run (C.eventStep parseC) (.init memory sdMemory) events = some final) (fd : SocketFd)
    (alike : ∀ line ∈ dueLines (C.checkLine parseC) (completeLines C.newline (C.stream fd events)),
      ReadAlike parseC parseZig line)
    {reads : List Bytes} (nonempty : ∀ bytes ∈ reads, bytes ≠ [])
    (same : reads.flatten = C.stream fd events) :
    ∃ answers malformed connection,
      run (Zig.readTurn parseZig) .init (reads.map .data) = some connection ∧
      final.net fd = answers ++ (if malformed then C.illResponse else []) ∧
      connection.sent = answers ++ (if malformed then Zig.malformedResp else []) ∧
      connection.closed = malformed ∧ (malformed = true → fd ∉ final.live) := by
  obtain ⟨malformed, answeredC, closedC⟩ := (run_serves memory sdMemory each ran).net fd
  obtain ⟨answers, sentC, answeredZig⟩ := answerLines_agree C.illResponse Zig.malformedResp
    (fun line due => (alike line due).checks) answeredC
  have answered := Zig.run_answered parseZig nonempty
  have zig : Zig.responses parseZig (completeLines Zig.needle reads.flatten) =
      some (answers ++ (if malformed then Zig.malformedResp else []), malformed) := by
    rw [same]
    exact answeredZig
  rw [zig] at answered
  cases malformed with
  | true =>
      obtain ⟨connection, went, sent, closed⟩ := answered
      exact ⟨answers, true, connection, went, sentC, sent, closed, closedC⟩
  | false => exact ⟨answers, false, _, answered, sentC, rfl, rfl, closedC⟩

/-- A request and a malformed line, behind the request of another connection. -/
def askedTwice : List C.Event := C.turns.take 4

theorem askedTwice_wholeLines :
    ∀ event ∈ askedTwice, C.WholeLines C.parseAskSeven event := by
  intro event member
  simp only [askedTwice, C.turns, List.take_succ_cons, List.take_zero, List.mem_cons,
    List.not_mem_nil, or_false] at member
  rcases member with rfl | rfl | rfl | rfl
  · trivial
  · trivial
  · apply C.wholeLines_data _ (by decide +kernel) (by decide +kernel) (by decide +kernel)
      (show _ = some (formatResponse true, false) by decide +kernel) (by decide +kernel)
  · apply C.wholeLines_data _ (by decide +kernel) (by decide +kernel) (by decide +kernel)
      (show _ = some (formatResponse true ++ C.illResponse, true) by decide +kernel)
      (by decide +kernel)

theorem sevenAsked_fits : sevenAsked.Fits := by
  apply Json.Fits.object
  intro field member
  simp only [List.mem_cons, List.not_mem_nil, or_false] at member
  rcases member with rfl | rfl
  · exact .string _
  · exact .integer _

theorem sevenAsked_plain : ¬ Prolonged sevenAsked := by
  rintro ⟨⟨method, found, -, other⟩, -⟩
  have same : some (Json.string (ascii "isPrime")) = some (Json.string method) := found
  cases same
  exact other rfl

/-- The two lines in three reads. -/
def askedInPieces : List Bytes := [askSeven.take 9, askSeven.drop 9 ++ [10, 120], [10]]

theorem servers_answer_alike_cut :
    ∃ final connection answers,
      run (C.eventStep C.parseAskSeven) (.init (fun _ => 0) fun _ => 0) askedTwice = some final ∧
      run (Zig.readTurn Zig.parseAskSeven) .init (askedInPieces.map .data) = some connection ∧
      final.net 6 = answers ++ C.illResponse ∧ connection.sent = answers ++ Zig.malformedResp := by
  obtain ⟨final, ran⟩ := Option.isSome_iff_exists.mp
    (show (run (C.eventStep C.parseAskSeven) (.init (fun _ => 0) fun _ => 0) askedTwice).isSome by
      decide +kernel)
  have each := C.undisturbed_of_wholeLines (fun _ => 0) (fun _ => 0) askedTwice_wholeLines
  have lines : dueLines (C.checkLine C.parseAskSeven)
      (completeLines C.newline (C.stream 6 askedTwice)) = [askSeven, [120]] := by decide +kernel
  have alike : ∀ line ∈ dueLines (C.checkLine C.parseAskSeven)
      (completeLines C.newline (C.stream 6 askedTwice)),
      ReadAlike C.parseAskSeven Zig.parseAskSeven line := by
    rw [lines]
    refine List.forall_mem_cons.mpr ⟨?_, List.forall_mem_singleton.mpr ?_⟩
    · exact .json (by decide +kernel) sevenAsked sevenAsked_fits sevenAsked_plain (if_pos rfl)
        (if_pos rfl)
    · have other : ([120] : Bytes) ≠ askSeven := by decide +kernel
      exact .noJson (if_neg other) "SyntaxError" (if_neg other)
  have nonempty : ∀ bytes ∈ askedInPieces, bytes ≠ [] := by decide +kernel
  obtain ⟨answers, malformed, connection, went, sentC, sentZig, closed, -⟩ :=
    servers_answer_alike (fun _ => 0) (fun _ => 0) each ran 6 alike nonempty (by decide +kernel)
  have ended : (run (Zig.readTurn Zig.parseAskSeven) .init (askedInPieces.map .data)).map
      Zig.Connection.closed = some true := by decide +kernel
  rw [went, Option.map_some, Option.some.injEq, closed] at ended
  subst ended
  exact ⟨final, connection, answers, ran, went, sentC, sentZig⟩

end NetworkExercises.PrimeTime
