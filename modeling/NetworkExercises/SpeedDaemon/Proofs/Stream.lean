/-
Module: NetworkExercises.SpeedDaemon.Proofs.Stream
Purpose: However a camera's stream is cut into read events, its messages are
  handed over once each and in order, and the fifo holds what is left.
Main exports: deliverStep, stream_delivered, delivered_of_run, handleMessages_fifo
-/
import NetworkExercises.Lib.Framing
import NetworkExercises.Lib.Run
import NetworkExercises.SpeedDaemon.Proofs.DecodeLoop
import NetworkExercises.SpeedDaemon.Proofs.Handling

namespace NetworkExercises.SpeedDaemon

open Lib Checked

/-! ### The decoder on whole messages and a rest -/

variable {buf rest : Bytes} {start : Nat} {new after : List Message}

theorem decodeTurn_unfinished (streamed : ∀ message ∈ after, message.Streamed)
    (unfinished : Unfinished Message.wire after rest) (viewEq : buf.drop start = rest)
    (inside : start < buf.length) (bound : start + 512 < 2 ^ 16) :
    decodeTurn buf start = .ok .stop := by
  have viewLength := length_of_view viewEq
  cases after with
  | nil =>
      rw [show rest = [] from unfinished, List.length_nil] at viewLength
      omega
  | cons next others =>
      obtain ⟨isPart, strict⟩ := unfinished
      exact decodeTurn_partial (streamed next (by simp)) viewEq isPart (by omega) strict bound

/-- From any place on, the turns read the whole messages and stop at the rest. -/
theorem reads_streamed (streamed : ∀ message ∈ new, message.Streamed)
    (afterStreamed : ∀ message ∈ after, message.Streamed)
    (unfinished : Unfinished Message.wire after rest)
    (viewEq : buf.drop start = wireAll new ++ rest)
    (bound : start + (wireAll new).length + 512 < 2 ^ 16) : Reads buf start new := by
  induction new generalizing start with
  | nil =>
      intro inside
      exact decodeTurn_unfinished afterStreamed unfinished (by simpa using viewEq) inside
        (by simpa using bound)
  | cons message new ih =>
      simp only [wireAll_cons, List.append_assoc] at viewEq
      simp only [wireAll_cons, List.length_append] at bound
      have first := streamed message (by simp)
      have long := first.two_le_wire_length
      have viewLength := length_of_view viewEq
      simp only [List.length_append] at viewLength
      refine ⟨by omega, decodeTurn_wire first viewEq (by omega), ?_⟩
      refine ih (fun other member => streamed other (by simp [member])) ?_ (by omega)
      rw [← List.drop_drop, viewEq, List.drop_left]

/-- `decode` returns the whole messages at the front of the buffer. -/
theorem decode_stream (streamed : ∀ message ∈ new, message.Streamed)
    (afterStreamed : ∀ message ∈ after, message.Streamed)
    (unfinished : Unfinished Message.wire after rest) (few : new.length ≤ 64) :
    decode (wireAll new ++ rest) [] = .ok ((wireAll new).length, new) := by
  have size := wireAll_length_le fun message member => (streamed message member).wellFormed
  by_cases short : (wireAll new ++ rest).length < 2
  · -- Not even one message fits.
    cases new with
    | nil => rw [decode, if_pos short]; rfl
    | cons message new =>
        have := (streamed message (by simp)).two_le_wire_length
        simp only [wireAll_cons, List.length_append] at short
        omega
  · have reads : Reads (wireAll new ++ rest) 0 new :=
      reads_streamed streamed afterStreamed unfinished rfl (by omega)
    have loop := decodeLoop_of_reads [] reads few (by omega)
    rw [Nat.zero_add, List.nil_append] at loop
    rw [decode, if_neg short, if_neg (by simp), loop]

/-- More whole messages than there is room for are too many. -/
theorem decodeLoop_overflow {start room : Nat} (array : List Message)
    (streamed : ∀ message ∈ new, message.Streamed)
    (viewEq : buf.drop start = wireAll new ++ rest) (many : room < new.length)
    (bound : start + 512 * room + 512 < 2 ^ 16) :
    decodeLoop buf room start start array = fail .overflow := by
  induction new generalizing start room array with
  | nil => simp at many
  | cons message new ih =>
      simp only [wireAll_cons, List.append_assoc] at viewEq
      have first := streamed message (by simp)
      have long := first.two_le_wire_length
      have short := Message.wire_length_le first.wellFormed
      have viewLength := length_of_view viewEq
      simp only [List.length_append] at viewLength
      have near : start + 512 < 2 ^ 16 := by omega
      have turn := decodeTurn_wire first viewEq near
      rw [decodeLoop, if_pos (by omega), turn, ok_bind]
      simp only
      rw [fitsIn_of_lt (by omega), ok_bind]
      cases room with
      | zero => rfl
      | succ room =>
          simp only [ok_bind]
          apply ih _ (fun other member => streamed other (by simp [member])) ?_
            (by simpa using many) (by omega)
          rw [← List.drop_drop, viewEq, List.drop_left]

theorem decode_overflow (streamed : ∀ message ∈ new, message.Streamed)
    (many : 64 < new.length) : decode (wireAll new ++ rest) [] = fail .overflow := by
  have long : 2 ≤ (wireAll new ++ rest).length := by
    cases new with
    | nil => simp at many
    | cons message new =>
        have := (streamed message (by simp)).two_le_wire_length
        simp only [wireAll_cons, List.length_append]
        omega
  rw [decode, if_neg (by omega), if_neg (by simp),
    decodeLoop_overflow [] streamed rfl many (by decide)]

/-! ### One read event -/

variable {fifo : Bytes} {arrival : Arrival}

theorem readLoop_fst (fifo : Bytes) (bytes : Nat) (chunks : List Bytes) :
    (readLoop fifo bytes chunks).1 = fifo ++ chunks.flatten := by
  induction chunks generalizing fifo bytes with
  | nil => simp [readLoop]
  | cons chunk chunks ih => rw [readLoop, ih, List.flatten_cons, List.append_assoc]

/-- The last read of an event that read something is not empty. -/
theorem readLoop_snd_ne_zero {bytes : Nat} {chunks : List Bytes}
    (nonempty : ∀ chunk ∈ chunks, chunk ≠ []) (some : bytes ≠ 0 ∨ chunks ≠ []) :
    (readLoop fifo bytes chunks).2 ≠ 0 := by
  induction chunks generalizing fifo bytes with
  | nil => simpa [readLoop] using some
  | cons chunk chunks ih =>
      have first := List.length_pos_iff.mpr (nonempty chunk (by simp))
      exact ih (fun other member => nonempty other (by simp [member])) (.inl (by omega))

/-- An event without bytes counts as a closed connection. -/
theorem receive_nothing (ending : arrival.ending = .wouldBlock)
    (nothing : arrival.chunks = []) :
    receive fifo arrival = .failed .clientClosedConnection fifo := by
  simp [receive, ending, nothing, readLoop]

/-- An event with bytes hands over the messages that are now whole. -/
theorem receive_stream (ending : arrival.ending = .wouldBlock)
    (something : arrival.chunks ≠ []) (streamed : ∀ message ∈ new, message.Streamed)
    (afterStreamed : ∀ message ∈ after, message.Streamed)
    (unfinished : Unfinished Message.wire after rest) (few : new.length ≤ 64)
    (bytesEq : fifo ++ arrival.bytes = wireAll new ++ rest) :
    ∃ len, receive fifo arrival = .messages new len (fifo ++ arrival.bytes) ∧
      (fifo ++ arrival.bytes).drop len = rest := by
  have decoded := decode_stream streamed afterStreamed unfinished few
  rw [← bytesEq] at decoded
  have held : (readLoop fifo 0 arrival.chunks).1 = fifo ++ arrival.bytes :=
    readLoop_fst _ _ _
  have last : (readLoop fifo 0 arrival.chunks).2 ≠ 0 :=
    readLoop_snd_ne_zero arrival.nonempty (.inr something)
  have received : receive fifo arrival =
      if (wireAll new).length = 0 ∨ new.length = 0 then
        .messages [] 0 (fifo ++ arrival.bytes)
      else .messages new (wireAll new).length (fifo ++ arrival.bytes) := by
    simp only [receive, ending, last, held, decoded, if_false]
  cases new with
  | nil => exact ⟨0, by simpa using received, by simpa using bytesEq⟩
  | cons message new =>
      have := (streamed message (by simp)).two_le_wire_length
      refine ⟨(wireAll (message :: new)).length, ?_, by rw [bytesEq, List.drop_left]⟩
      rw [received, if_neg]
      simp only [wireAll_cons, List.length_append, List.length_cons]
      omega

/-- What an event hands over, if anything, are the messages that are now whole. -/
theorem receive_messages {len : Nat} {msgs : List Message} {left : Bytes}
    (streamed : ∀ message ∈ new, message.Streamed)
    (afterStreamed : ∀ message ∈ after, message.Streamed)
    (unfinished : Unfinished Message.wire after rest)
    (bytesEq : fifo ++ arrival.bytes = wireAll new ++ rest)
    (received : receive fifo arrival = .messages msgs len left) :
    arrival.ending = .wouldBlock ∧ arrival.chunks ≠ [] ∧ new.length ≤ 64 ∧ msgs = new ∧
      left.drop len = rest := by
  have ending : arrival.ending = .wouldBlock := by
    cases ended : arrival.ending with
    | wouldBlock => rfl
    | closed | failed =>
        simp only [receive, ended] at received
        cases received
  have something : arrival.chunks ≠ [] := by
    intro nothing
    rw [receive_nothing ending nothing] at received
    cases received
  have few : new.length ≤ 64 := by
    by_contra many
    have held : (readLoop fifo 0 arrival.chunks).1 = wireAll new ++ rest :=
      (readLoop_fst _ _ _).trans bytesEq
    simp only [receive, ending, held, decode_overflow streamed (not_le.mp many), fail] at received
    split at received
    · cases received
    · cases received
  obtain ⟨len', receives, leftEq⟩ := receive_stream ending something streamed afterStreamed
    unfinished few bytesEq
  rw [received, Received.messages.injEq] at receives
  obtain ⟨rfl, rfl, rfl⟩ := receives
  exact ⟨ending, something, few, rfl, leftEq⟩

/-! ### All events of a connection -/

/-- The fifo of a client, the messages handed over so far, and the errors of the
events so far. -/
structure Delivery where
  fifo : Bytes
  delivered : List Message
  errors : List ServerError
deriving DecidableEq

def Delivery.empty : Delivery := ⟨[], [], []⟩

/-- One event: receive, hand over, discard. -/
def deliverStep (delivery : Delivery) (arrival : Arrival) : Option Delivery :=
  match receive delivery.fifo arrival with
  | .trap => none
  | .failed error fifo =>
      some { delivery with fifo := fifo, errors := delivery.errors ++ [error] }
  | .messages messages len fifo =>
      some { delivery with
        fifo := fifo.drop len
        delivered := delivery.delivered ++ messages }

/-- The bytes of all events. -/
def received (events : List Arrival) : Bytes := events.flatMap Arrival.bytes

theorem received_append (front back : List Arrival) :
    received (front ++ back) = received front ++ received back :=
  List.flatMap_append

theorem received_concat (events : List Arrival) (event : Arrival) :
    received (events ++ [event]) = received events ++ event.bytes := by
  simp [received]

/-- The state of a connection after some events: the messages that are whole were
handed over, the fifo holds the bytes behind them, and the only errors are those
of events without bytes. -/
structure Delivered (messages : List Message) (events : List Arrival)
    (delivery : Delivery) : Prop where
  whole : delivery.delivered = complete Message.wire messages (received events).length
  split : received events = wireAll delivery.delivered ++ delivery.fifo
  errors : delivery.errors =
    List.replicate (events.countP (·.chunks = [])) .clientClosedConnection

variable {messages : List Message} {events : List Arrival}

/-- When the whole messages of a part of the stream were handed over, more of the stream
makes some new ones whole, which lie in the fifo before an unfinished rest. -/
theorem whole_more {handed : List Message} {part more : Bytes}
    (whole : handed = complete Message.wire messages part.length)
    (split : part = wireAll handed ++ fifo) (isPart : part ++ more <+: wireAll messages) :
    ∃ new after left, messages = handed ++ (new ++ after) ∧
      complete Message.wire messages (part ++ more).length = handed ++ new ∧
      fifo ++ more = wireAll new ++ left ∧ Unfinished Message.wire after left := by
  obtain ⟨later, messagesEq⟩ : handed <+: messages := whole ▸ complete_prefix_items _ _
  rw [split, ← messagesEq] at isPart
  obtain ⟨new, after, left, laterEq, nowWhole, moreEq, unfinished⟩ := complete_more isPart
  refine ⟨new, after, left, by rw [← laterEq, messagesEq], ?_, moreEq, unfinished⟩
  rw [split, ← messagesEq]
  exact nowWhole

/-- The messages of a stream are well formed, whichever of its parts they are in. -/
theorem streamed_parts {handed : List Message} (streamed : ∀ message ∈ messages, message.Streamed)
    (messagesEq : messages = handed ++ (new ++ after)) :
    (∀ message ∈ new, message.Streamed) ∧ ∀ message ∈ after, message.Streamed := by
  rw [messagesEq] at streamed
  exact List.forall_mem_append.mp (List.forall_mem_append.mp streamed).2

/-- An event that hands over the messages that are now whole. -/
theorem Delivered.hands {delivery : Delivery} {left : Bytes}
    (delivered : Delivered messages events delivery) (something : arrival.chunks ≠ [])
    (nowWhole : complete Message.wire messages (received events ++ arrival.bytes).length =
      delivery.delivered ++ new)
    (moreEq : delivery.fifo ++ arrival.bytes = wireAll new ++ left) :
    Delivered messages (events ++ [arrival])
      { delivery with fifo := left, delivered := delivery.delivered ++ new } where
  whole := by
    rw [received_concat]
    exact nowWhole.symm
  split := by
    rw [received_concat, delivered.split, List.append_assoc, moreEq, wireAll_append,
      List.append_assoc]
  errors := by simp [delivered.errors, List.countP_append, something]

theorem Delivered.step {delivery : Delivery}
    (delivered : Delivered messages events delivery)
    (streamed : ∀ message ∈ messages, message.Streamed)
    (ending : arrival.ending = .wouldBlock)
    (isPart : received (events ++ [arrival]) <+: wireAll messages)
    (few : (complete Message.wire messages (received (events ++ [arrival])).length).length ≤
      (complete Message.wire messages (received events).length).length + 64) :
    ∃ next, deliverStep delivery arrival = some next ∧
      Delivered messages (events ++ [arrival]) next := by
  by_cases nothing : arrival.chunks = []
  · have noBytes : received (events ++ [arrival]) = received events := by
      simp [received_concat, Arrival.bytes, nothing]
    refine ⟨_, by rw [deliverStep, receive_nothing ending nothing], ?_, ?_, ?_⟩
    · rw [noBytes]
      exact delivered.whole
    · rw [noBytes]
      exact delivered.split
    · simp [delivered.errors, List.countP_append, nothing, List.replicate_succ']
  · rw [received_concat] at isPart few
    obtain ⟨new, after, left, messagesEq, nowWhole, moreEq, unfinished⟩ :=
      whole_more delivered.whole delivered.split isPart
    have fewNew : new.length ≤ 64 := by
      rw [nowWhole, ← delivered.whole, List.length_append] at few
      omega
    obtain ⟨newStreamed, afterStreamed⟩ := streamed_parts streamed messagesEq
    obtain ⟨len, receives, leftEq⟩ :=
      receive_stream ending nothing newStreamed afterStreamed unfinished fewNew moreEq
    refine ⟨_, by rw [deliverStep, receives], ?_⟩
    rw [leftEq]
    exact delivered.hands nothing nowWhole moreEq

/-- Every beginning of a list of events leads to the messages that are whole. -/
theorem run_delivered (streamed : ∀ message ∈ messages, message.Streamed)
    (ending : ∀ event ∈ events, event.ending = .wouldBlock)
    (segments : received events <+: wireAll messages)
    (few : ∀ front event, front ++ [event] <+: events →
      (complete Message.wire messages (received (front ++ [event])).length).length ≤
        (complete Message.wire messages (received front).length).length + 64) :
    ∃ delivery, run deliverStep .empty events = some delivery ∧
      Delivered messages events delivery := by
  induction events using List.reverseRecOn with
  | nil =>
      refine ⟨.empty, rfl, ?_, rfl, rfl⟩
      exact (complete_zero fun message _ => message.wire_ne_nil).symm
  | append_singleton front event ih =>
      have frontPart : front <+: front ++ [event] := List.prefix_append _ _
      obtain ⟨delivery, ran, delivered⟩ := ih
        (fun other member => ending other (List.mem_append_left _ member))
        (List.IsPrefix.trans (by rw [received_concat]; exact List.prefix_append _ _) segments)
        (fun part other isPart => few part other (isPart.trans frontPart))
      obtain ⟨next, step, nextDelivered⟩ := delivered.step streamed
        (ending event (by simp)) segments (few front event List.prefix_rfl)
      refine ⟨next, run_append_eq_some.mpr ⟨delivery, ran, ?_⟩, nextDelivered⟩
      simp [run, step]

/-- Events that have all been handled without an error have handed over the messages that are
whole, however many of them became whole at once. -/
theorem delivered_of_run (streamed : ∀ message ∈ messages, message.Streamed)
    (segments : received events <+: wireAll messages) {delivery : Delivery}
    (ran : run deliverStep .empty events = some delivery) (errors : delivery.errors = []) :
    Delivered messages events delivery := by
  induction events using List.reverseRecOn generalizing delivery with
  | nil =>
      rw [run_nil, Option.some.injEq] at ran
      subst ran
      exact ⟨(complete_zero fun message _ => message.wire_ne_nil).symm, rfl, rfl⟩
  | append_singleton front event ih =>
      obtain ⟨middle, frontRan, lastRan⟩ := run_append_eq_some.mp ran
      obtain ⟨last, step, ended⟩ := run_cons_eq_some.mp lastRan
      obtain rfl : last = delivery := Option.some.inj ended
      rw [received_concat] at segments
      rw [deliverStep] at step
      cases receivedEq : receive middle.fifo event with
      | trap =>
          rw [receivedEq] at step
          cases step
      | failed error fifo =>
          rw [receivedEq] at step
          cases step
          simp at errors
      | messages msgs len left =>
          rw [receivedEq] at step
          cases step
          have delivered := ih ((List.prefix_append _ _).trans segments) frontRan errors
          obtain ⟨new, after, rest, messagesEq, nowWhole, moreEq, unfinished⟩ :=
            whole_more delivered.whole delivered.split segments
          obtain ⟨newStreamed, afterStreamed⟩ := streamed_parts streamed messagesEq
          obtain ⟨-, something, -, rfl, leftEq⟩ :=
            receive_messages newStreamed afterStreamed unfinished moreEq receivedEq
          rw [leftEq]
          exact delivered.hands something nowWhole moreEq

/-- However the stream of a camera is cut into read events, with at most 64
messages becoming whole in any of them: after each event the messages that are
whole have been handed over, each once and in order, and the fifo holds the bytes
behind them; after all events the messages are those of the stream. -/
theorem stream_delivered (streamed : ∀ message ∈ messages, message.Streamed)
    (ending : ∀ event ∈ events, event.ending = .wouldBlock)
    (segments : received events = wireAll messages)
    (few : ∀ front event, front ++ [event] <+: events →
      (complete Message.wire messages (received (front ++ [event])).length).length ≤
        (complete Message.wire messages (received front).length).length + 64) :
    (∀ front, front <+: events → ∃ delivery,
      run deliverStep .empty front = some delivery ∧ Delivered messages front delivery) ∧
    ∃ errors, run deliverStep .empty events = some ⟨[], messages, errors⟩ := by
  have after : ∀ front, front <+: events → ∃ delivery,
      run deliverStep .empty front = some delivery ∧ Delivered messages front delivery := by
    rintro front ⟨back, rfl⟩
    refine run_delivered streamed
      (fun event member => ending event (List.mem_append_left _ member)) ?_
      (fun part event isPart => few part event (isPart.trans (List.prefix_append _ _)))
    rw [← segments, received_append]
    exact List.prefix_append _ _
  refine ⟨after, ?_⟩
  obtain ⟨⟨fifo, delivered, errors⟩, ran, whole, split, -⟩ := after events List.prefix_rfl
  simp only at whole split
  have all : delivered = messages := by
    rw [whole, segments]
    exact complete_all messages
  subst all
  rw [segments] at split
  have drained : fifo = [] := by simpa using split
  exact ⟨errors, by rw [ran, drained]⟩

/-- A camera and a plate, cut within both. -/
def cutEvents : List Arrival :=
  [⟨[[0x80, 0, 1, 0, 2, 0]], .wouldBlock, by decide⟩,
    ⟨[[60, 0x20], [1]], .wouldBlock, by decide⟩,
    ⟨[[65, 0, 0, 0, 9]], .wouldBlock, by decide⟩]

theorem stream_delivered_cut :
    (∀ front, front <+: cutEvents → ∃ delivery,
      run deliverStep .empty front = some delivery ∧
        Delivered [.camera ⟨1, 2, 60⟩, .plate ⟨[65], 9⟩] front delivery) ∧
    ∃ errors, run deliverStep .empty cutEvents =
      some ⟨[], [.camera ⟨1, 2, 60⟩, .plate ⟨[65], 9⟩], errors⟩ := by
  refine stream_delivered (by simp [Message.Streamed]) (by decide) (by decide) ?_
  intro front event isPart
  exact (complete_prefix_items _ _).length_le.trans (by simp)

/-! ### The fifo in the handler -/

section Handler

variable {F : Type} [F64 F] {session final : Session}

/-- The handler leaves the client with the fifo of the step above, whether it
returns an error or not. -/
theorem handleMessages_fifo {delivery next : Delivery} {calls : Nat → Calls}
    (fifoEq : session.client.fifo = some delivery.fifo)
    (step : deliverStep delivery arrival = some next)
    (reaches : (handleMessages F arrival calls session).Reaches final) :
    final.client.fifo = some next.fifo := by
  unfold deliverStep at step
  simp only [handleMessages, fifoEq] at reaches
  cases arrived : receive delivery.fifo arrival with
  | trap =>
      rw [arrived] at step
      cases step
  | failed error fifo =>
      rw [arrived] at step reaches
      cases step
      rw [Outcome.raised_reaches] at reaches
      rw [reaches]
      rfl
  | messages messages len fifo =>
      rw [arrived] at step reaches
      cases step
      obtain ⟨middle, looped, rfl⟩ := Outcome.map_reaches reaches
      have kept := handleLoop_fifo looped
      simp [Session.discard, kept, Session.withFifo]

end Handler

end NetworkExercises.SpeedDaemon
