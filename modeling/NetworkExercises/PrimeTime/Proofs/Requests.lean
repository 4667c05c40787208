/-
Module: NetworkExercises.PrimeTime.Proofs.Requests
Purpose: What the C server makes of a queue of whole lines: the builder answers one token
  after the other, and the answers are sent.
Main exports: responses, strtokR_line, builderLoop_lines, handleRequest_spec,
  processRequests_spec
-/
import NetworkExercises.CUtils.Proofs.Queue
import NetworkExercises.PrimeTime.C
import NetworkExercises.PrimeTime.Proofs.Answering

namespace NetworkExercises.PrimeTime.C

open Lib CUtils
open SpeedDaemon (SocketFd)

variable {parse : Parser} {line lineRest before behind out : Bytes} {sdq : Queue}

/-! ### One line -/

/-- The number that a line asks about, when it is not malformed. -/
def checkLine (parse : Parser) (line : Bytes) : Option Int64 :=
  match parse line with
  | none | some .null => none
  | some root => requestNumber root

/-- The responses to the lines of a stream. -/
def responses (parse : Parser) (lines : List Bytes) : Option (Bytes × Bool) :=
  answerLines (checkLine parse) illResponse lines

/-- What is found out about a line. -/
theorem isPrimeRequestMalformed_eq (request : IsPrimeRequest) :
    isPrimeRequestMalformed parse request line =
      match checkLine parse line with
      | none => (true, { request with isMalformed := true })
      | some number => (false, { request with isMalformed := false, number := number }) := by
  unfold isPrimeRequestMalformed checkLine
  cases parse line with
  | none => rfl
  | some root => cases asked : requestNumber root <;> cases root <;> simp [asked]

/-- The bytes of the response to a request. -/
def responseBytes (request : IsPrimeRequest) : Bytes :=
  if request.isMalformed then illResponse else formatResponse request.isPrime

/-- The NUL of `sprintf` is not pushed. -/
theorem holds_pushResponse (holds : Holds sdq out) (request : IsPrimeRequest) :
    Holds (pushResponse sdq request) (out ++ responseBytes request) := by
  unfold pushResponse isPrimeBegetResponse responseBytes
  cases request.isMalformed with
  | true =>
      have pushed := holds_pushEx holds (le_refl illResponse.length)
      rwa [List.take_length] at pushed
  | false =>
      have shorter : (formatResponse request.isPrime).length ≤
          (formatResponse request.isPrime ++ [0]).length := by simp
      have pushed := holds_pushEx holds shorter
      rwa [List.take_left] at pushed

/-! ### Tokens -/

/-- A token starts no earlier than the search for it. -/
theorem le_strtokR {memory text after : Bytes} {start token next : Nat}
    (found : strtokR memory start = some (text, token, next, after)) : start ≤ token := by
  unfold strtokR at found
  dsimp only at found
  split at found
  · cases found
  · split at found
    · cases found
    · split at found
      · cases found
        exact Nat.le_add_right _ _
      · cases found
        exact Nat.le_add_right _ _

/-- The token of a line: all of it, with a NUL behind it. -/
theorem strtokR_line (nonempty : line ≠ []) (unmarked : newline ∉ line) (noNul : 0 ∉ line)
    (before behind : Bytes) :
    strtokR (before ++ line ++ newline :: behind) before.length =
      some (line, before.length, (before ++ line ++ [0]).length,
        before ++ line ++ 0 :: behind) := by
  obtain ⟨first, others, rfl⟩ := List.exists_cons_of_ne_nil nonempty
  have first_ne : first ≠ newline := fun same => unmarked (same ▸ List.mem_cons_self)
  have first_ne_zero : first ≠ 0 := fun same => noNul (same ▸ List.mem_cons_self)
  have dropped : (before ++ (first :: others) ++ newline :: behind).drop before.length =
      first :: (others ++ newline :: behind) := by
    rw [List.append_assoc, List.drop_left, List.cons_append]
  have text : (first :: (others ++ newline :: behind)).takeWhile
      (fun byte => byte != newline && byte != 0) = first :: others := by
    rw [← List.cons_append, List.takeWhile_append_of_pos]
    · simp
    · intro byte member
      have ne : byte ≠ newline := fun same => unmarked (same ▸ member)
      have ne_zero : byte ≠ 0 := fun same => noNul (same ▸ member)
      simp [ne, ne_zero]
  have stop : (before ++ (first :: others) ++ newline :: behind)[before.length +
      (first :: others).length]? = some newline := by
    rw [← List.length_append, List.getElem?_append_right (le_refl _), Nat.sub_self]
    rfl
  have stored : (before ++ (first :: others) ++ newline :: behind).set
      (before.length + (first :: others).length) 0 =
        before ++ (first :: others) ++ 0 :: behind := by
    rw [← List.length_append, List.set_append_right _ _ (le_refl _), Nat.sub_self]
    rfl
  have skipped : (first :: (others ++ newline :: behind)).takeWhile (· == newline) = [] := by
    simp [first_ne]
  unfold strtokR
  rw [dropped, skipped, List.length_nil, Nat.add_zero]
  simp only [dropped, if_neg first_ne_zero, text, stop, if_pos, stored]
  rw [List.length_append, List.length_append, List.length_singleton]

/-! ### The builder -/

/-- What the builder ends with after some lines. -/
structure Built (start : Nat) (lines : List Bytes) (out : Bytes) (builder : Builder)
    (sent : Bytes) (malformed : Bool) : Prop where
  answered : responses parse lines = some (sent, malformed)
  malformed : builder.malformed = malformed
  sdq : Holds builder.sdq (out ++ sent)
  requests : start + (if lines = [] then 0 else 1) ≤ builder.requests

/-- The loop answers the lines from `start` on, when each that is due is a token, and the
request ends behind the last of them unless it is malformed. -/
theorem builderLoop_lines (before : Bytes) {lines : List Bytes}
    {reqSize turns requests : Nat} {builder : Builder} {curr : IsPrimeRequest}
    (unmarked : ∀ line ∈ lines, newline ∉ line)
    (tokens : ∀ line ∈ dueLines (checkLine parse) lines, line ≠ [] ∧ 0 ∉ line)
    (inside : before.length + (lines.flatMap (· ++ [newline])).length ≤ reqSize)
    (ends : (∃ line ∈ lines, checkLine parse line = none) ∨
      before.length + (lines.flatMap (· ++ [newline])).length = reqSize)
    (enough : lines.length < turns) (holds : Holds sdq out)
    (ran : builderLoop parse reqSize turns before.length curr
      ⟨requests, false, sdq, before ++ lines.flatMap (· ++ [newline]) ++ behind⟩ =
        some builder) :
    ∃ sent malformed, @Built parse requests lines out builder sent malformed := by
  induction lines generalizing before sdq out turns requests curr with
  | nil =>
      have stops : before.length = reqSize := by simpa using ends
      obtain ⟨turns, rfl⟩ := Nat.exists_eq_succ_of_ne_zero (Nat.ne_of_gt enough)
      have same : builder.malformed = false ∧ builder.sdq = sdq ∧
          builder.requests = requests := by
        rw [builderLoop] at ran
        split at ran
        · cases ran
          exact ⟨rfl, rfl, rfl⟩
        · next found =>
          rw [if_pos (stops ▸ le_strtokR found)] at ran
          cases ran
          exact ⟨rfl, rfl, rfl⟩
      obtain ⟨malformed, sdqEq, requestsEq⟩ := same
      exact ⟨[], false, rfl, malformed, by rwa [sdqEq, List.append_nil], by simp [requestsEq]⟩
  | cons line lines ih =>
      obtain ⟨lineUnmarked, unmarked⟩ := List.forall_mem_cons.mp unmarked
      rw [dueLines] at tokens
      obtain ⟨⟨nonempty, noNul⟩, tokens⟩ := List.forall_mem_cons.mp tokens
      obtain ⟨turns, rfl⟩ := Nat.exists_eq_succ_of_ne_zero (Nat.ne_of_gt (Nat.zero_lt_of_lt enough))
      have memory : before ++ (line :: lines).flatMap (· ++ [newline]) ++ behind =
          before ++ line ++ newline :: (lines.flatMap (· ++ [newline]) ++ behind) := by
        simp
      have length := List.length_pos_iff.mpr nonempty
      rw [List.flatMap_cons, List.length_append, List.length_append, List.length_singleton]
        at inside ends
      rw [memory, builderLoop] at ran
      simp only [strtokR_line nonempty lineUnmarked noNul] at ran
      rw [if_neg (by omega), isPrimeRequestMalformed_eq] at ran
      cases asks : checkLine parse line with
      | none =>
          rw [asks] at ran
          obtain ⟨prime, -, ran⟩ := Option.bind_eq_some_iff.mp ran
          cases ran
          have pushed := holds_pushResponse holds ⟨prime, true, curr.number⟩
          refine ⟨illResponse, true, ?_, rfl, pushed, ?_⟩
          · exact answerLines_cons_malformed asks lines
          · simp
      | some number =>
          rw [asks] at ran
          obtain ⟨prime, primeEq, ran⟩ := Option.bind_eq_some_iff.mp ran
          have pushed := holds_pushResponse holds ⟨prime, false, number⟩
          have later : before ++ line ++ 0 :: (lines.flatMap (· ++ [newline]) ++ behind) =
              (before ++ line ++ [0]) ++ lines.flatMap (· ++ [newline]) ++ behind := by
            simp
          have width : (before ++ line ++ [0]).length = before.length + (line.length + 1) := by
            simp only [List.length_append, List.length_singleton, Nat.add_assoc]
          rw [asks] at tokens
          simp only [later] at ran
          obtain ⟨sent, malformed, built⟩ := ih _ unmarked (by simpa using tokens)
            (by rw [width]; omega)
            (by
              rw [width]
              rcases ends with ⟨bad, member, isBad⟩ | ends
              · rcases List.mem_cons.mp member with rfl | member
                · rw [asks] at isBad
                  cases isBad
                · exact .inl ⟨bad, member, isBad⟩
              · exact .inr (by omega))
            (Nat.lt_of_succ_lt_succ enough) pushed ran
          refine ⟨formatResponse prime ++ sent, malformed, ?_, built.malformed, ?_, ?_⟩
          · rw [responses, answerLines_cons_number asks, primeEq]
            have answered := built.answered
            rw [responses] at answered
            simp [answered]
          · rw [← List.append_assoc]
            exact built.sdq
          · have := built.requests
            rw [if_neg (List.cons_ne_nil _ _)]
            exact le_trans (Nat.le_add_right _ _) this

/-! ### A queue with complete requests -/

/-- What is asked of the bytes that wait when there is a newline among them: an `int` counts
them and the answers, each line that is answered is a token, and nothing is left behind the
last newline, unless a line is malformed. -/
structure Answerable (parse : Parser) (waiting : Bytes) : Prop where
  counted : waiting.length < 2 ^ 31
  tokens : ∀ line ∈ dueLines (checkLine parse) (completeLines newline waiting),
    line ≠ [] ∧ 0 ∉ line
  ends : (∃ line ∈ completeLines newline waiting, checkLine parse line = none) ∨
    (splitLines newline waiting).2 = []
  answers : ∀ sent malformed,
    responses parse (completeLines newline waiting) = some (sent, malformed) →
      sent.length < 2 ^ 31

/-- A request with a newline in it is answered line by line. -/
theorem handleRequest_spec {waiting : Bytes} {curr : IsPrimeRequest} {result : Int}
    {builder : Builder} (marked : newline ∈ waiting) (answerable : Answerable parse waiting)
    (empty : Holds sdq [])
    (ran : handleRequest parse curr sdq (waiting ++ behind) waiting.length =
      some (result, builder)) :
    ∃ sent malformed, responses parse (completeLines newline waiting) = some (sent, malformed) ∧
      Holds builder.sdq sent ∧ decide (result > 0) = !malformed := by
  have some_bytes : waiting.length ≠ 0 := by
    intro zero
    rw [List.length_eq_zero_iff.mp zero] at marked
    cases marked
  have some_lines : completeLines newline waiting ≠ [] :=
    fun none => notMem_of_completeLines_eq_nil none marked
  have unmarked : ∀ line ∈ completeLines newline waiting, newline ∉ line :=
    fun line => notMem_of_mem_completeLines
  have whole := splitLines_flatten newline waiting
  obtain ⟨-, tokens, ends, -⟩ := answerable
  rw [flatten_splitLines] at whole
  generalize completeLines newline waiting = lines at whole unmarked some_lines tokens ends ⊢
  generalize (splitLines newline waiting).2 = rest at whole ends
  rw [handleRequest, if_neg some_bytes] at ran
  obtain ⟨built, loop, ran⟩ := Option.map_eq_some_iff.mp ran
  have memory : waiting ++ behind =
      [] ++ lines.flatMap (· ++ [newline]) ++ (rest ++ behind) := by
    rw [List.nil_append, ← List.append_assoc, whole]
  have length : (lines.flatMap (· ++ [newline])).length + rest.length = waiting.length := by
    rw [← List.length_append, whole]
  have lines_le := length_le_flatMap_mark newline lines
  rw [isPrimeRequestBuilder, List.length_append, memory] at loop
  obtain ⟨sent, malformed, spec⟩ := builderLoop_lines [] unmarked tokens
    (by
      rw [List.length_nil, Nat.zero_add]
      exact Nat.le_of_add_right_le (Nat.le_of_eq length))
    (by
      apply ends.imp_right
      rintro rfl
      rwa [List.length_nil, Nat.zero_add])
    (by omega) empty loop
  have handled := spec.requests
  rw [if_neg some_lines] at handled
  rw [if_neg (by omega)] at ran
  cases ran
  refine ⟨sent, malformed, spec.answered, spec.sdq, ?_⟩
  rw [spec.malformed]
  cases malformed <;> rfl

/-- The answers leave the send queue, and are handed over. -/
theorem sendResponses_spec {state next : ServerState} {fd : SocketFd} {sentAll : Bool}
    {sends : Bytes → Sending} {answers : Bytes} (holds : Holds state.sdqu answers)
    (small : answers.length < 2 ^ 31) (transmits : Transmits sends)
    (ran : sendResponses state fd sends = some (sentAll, next)) :
    sentAll = true ∧ ∃ sdqu, Holds sdqu [] ∧
      next = { state with
        sdqu := sdqu
        net := Function.update state.net fd (state.net fd ++ answers) } := by
  obtain ⟨sdqu, pop, popped, -⟩ := holds_pop holds
  unfold sendResponses at ran
  rw [pop] at ran
  dsimp only at ran
  simp only [load_given holds] at ran
  split at ran
  · next someAnswers =>
    rw [transmits _ (given_ne_nil someAnswers), given_of_lt small] at ran
    cases ran
    exact ⟨rfl, sdqu, popped, rfl⟩
  · next noAnswers =>
    cases ran
    have nothing := given_eq_nil noAnswers
    rw [given_of_lt small] at nothing
    refine ⟨rfl, sdqu, popped, ?_⟩
    rw [nothing, List.append_nil, Function.update_eq_self]

/-- What waits in the queue is answered, and the queue is empty afterwards. -/
theorem processRequests_spec {state next : ServerState} {fd : SocketFd} {turn : Turn}
    {waiting : Bytes} {open_ : Bool} (holds : Holds state.rcqu waiting)
    (empty : Holds state.sdqu []) (marked : newline ∈ waiting)
    (answerable : Answerable parse waiting) (transmits : Transmits turn.sends)
    (ran : processRequests parse state fd turn = some (open_, next)) :
    ∃ sent malformed, responses parse (completeLines newline waiting) = some (sent, malformed) ∧
      open_ = !malformed ∧
      ∃ rcqu sdqu, Holds rcqu [] ∧ Holds sdqu [] ∧
        next = { state with
          rcqu := rcqu
          sdqu := sdqu
          net := Function.update state.net fd (state.net fd ++ sent) } := by
  obtain ⟨rcqu, pop, popped, -⟩ := holds_pop holds
  obtain ⟨more, capacity⟩ := Nat.exists_eq_add_of_le (Nat.le_of_lt holds.valid.room)
  have memory : load state.rcqu.data state.rcqu.capacity =
      waiting ++ load (fun i => state.rcqu.data (state.rcqu.size + i)) more := by
    rw [capacity, load_add]
    exact congrArg (· ++ _) holds.contents
  unfold processRequests at ran
  rw [pop] at ran
  dsimp only at ran
  rw [memory, toInt_of_lt answerable.counted, Int.toNat_natCast] at ran
  obtain ⟨⟨result, builder⟩, handled, ran⟩ := Option.bind_eq_some_iff.mp ran
  obtain ⟨⟨sentAll, sentState⟩, sends, ran⟩ := Option.bind_eq_some_iff.mp ran
  cases ran
  obtain ⟨sent, malformed, answered, sdq, isOpen⟩ :=
    handleRequest_spec marked answerable empty handled
  obtain ⟨rfl, sdqu, sdquEmpty, rfl⟩ :=
    sendResponses_spec sdq (answerable.answers sent malformed answered) transmits sends
  refine ⟨sent, malformed, answered, ?_, _, sdqu, ?_, sdquEmpty, rfl⟩
  · rw [Bool.and_true]
    exact isOpen
  · have valid := popped.valid
    have size := popped.size_eq
    refine ⟨⟨valid.head, valid.free, valid.room⟩, ?_⟩
    show load _ rcqu.size = []
    rw [size]
    rfl

end NetworkExercises.PrimeTime.C
