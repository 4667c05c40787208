/-
Module: NetworkExercises.SpeedDaemon.Proofs.Orders
Purpose: The server records and registers what the messages in the bytes of its connections ask
  for, and nothing else.
Main exports: Identity.order, orders, serverOrders, Obeyed, run_obeyed, server_obeys_connections
-/
import NetworkExercises.SpeedDaemon.Proofs.Journal

namespace NetworkExercises.SpeedDaemon

open Lib Checked

/-! ### What messages ask for -/

/-- An operation that a message asks for: a plate is recorded, or a dispatcher is registered. -/
def Operation.isOrder : Operation → Bool
  | .addObservation _ _ | .addDispatcher _ => true
  | .removeDispatcher _ | .dispatchTicketsQueue _ => false

/-- What a message asks for when it comes from a client with this identity. -/
def Identity.order (fd : SocketFd) (identity : Identity) : Message → List Operation
  | .plate seen =>
      match identity.data with
      | .camera camera => [.addObservation seen camera]
      | _ => []
  | .dispatcher roads =>
      if identity.data = .unidentified then [.addDispatcher ⟨fd, roads⟩] else []
  | _ => []

/-- What messages ask for, up to the first that the protocol does not allow. -/
def orders (fd : SocketFd) (identity : Identity) (msgs : List Message) : List Operation :=
  emissions (Identity.step fd) (Identity.order fd) identity msgs

theorem orders_append {fd : SocketFd} {identity after : Identity} {front back : List Message}
    (ran : run (Identity.step fd) identity front = some after) :
    orders fd identity (front ++ back) = orders fd identity front ++ orders fd after back :=
  emissions_append ran

/-- The entry of a note. -/
def Note.entry {α : Type} : Note α → Option α
  | .opened _ => none
  | .wrote _ entry => some entry

section Arithmetic

variable (F : Type) [F64 F]

/-- The notes of one event: a connection that is opened, or what is asked for in the messages of
a client. -/
def eventOrders (serverfd : SocketFd) (state : ServerState) (event : Event) :
    List (Note Operation) :=
  if event.socket = serverfd then
    match event.sys.accepted with
    | .ok fd => [.opened fd]
    | .error _ => []
  else
    ((eventOperations F serverfd state event).filter Operation.isOrder).map (.wrote event.socket)

/-- The notes of a run of the server. -/
def serverOrders (serverfd : SocketFd) (events : List Event) : List (Note Operation) :=
  emissions (eventStep F serverfd) (eventOrders F serverfd) .init events

end Arithmetic

/-! ### The operations of an event -/

section Arithmetic

variable {F : Type} [F64 F] {session final : Session}

/-- The operations of a message, without the passes, are what it asks for. -/
theorem messageOperations_order (calls : Calls) (msg : Message) (session : Session) :
    (messageOperations F calls msg session).filter Operation.isOrder =
      session.client.identity.order session.client.fd msg := by
  cases msg with
  | heartbeat | errorM msg | ticket issued | camera position | wantHeartbeat interval => rfl
  | dispatcher roads =>
      rw [messageOperations, Identity.order, Client.identity]
      simp only [Client.type_eq_unidentified]
      split <;> rfl
  | plate seen =>
      rw [messageOperations, Identity.order, Client.identity]
      cases session.client.data with
      | unidentified | dispatcher disp => rfl
      | camera camera =>
          simp only
          rw [List.filter_cons_of_pos (by rfl)]
          congr 1
          split
          · split <;> rfl
          · rfl

/-- Up to the first message that is not handled, the operations are what the messages ask for. -/
theorem loopOperations_orders {calls : Nat → Calls} {msgs : List Message} (i : Nat)
    (session : Session) :
    (loopOperations F calls i msgs session).filter Operation.isOrder <+:
        orders session.client.fd session.client.identity msgs ∧
      ∀ final, handleLoop F calls i msgs session = .done final →
        (loopOperations F calls i msgs session).filter Operation.isOrder =
          orders session.client.fd session.client.identity msgs := by
  induction msgs generalizing i session with
  | nil => exact ⟨List.prefix_rfl, fun _ _ => rfl⟩
  | cons msg msgs ih =>
      rw [loopOperations, List.filter_append, messageOperations_order, handleLoop, orders,
        emissions]
      cases handled : handleMessage F (calls i) msg session with
      | trap =>
          exact ⟨(List.prefix_append_right_inj _).mpr List.nil_prefix, by rintro _ ⟨⟩⟩
      | raised error middle =>
          exact ⟨(List.prefix_append_right_inj _).mpr List.nil_prefix, by rintro _ ⟨⟩⟩
      | done middle =>
          obtain ⟨step, fdEq⟩ := handleMessage_identity handled
          rw [step]
          obtain ⟨front, whole⟩ := ih (i + 1) middle
          rw [fdEq] at front whole
          refine ⟨(List.prefix_append_right_inj _).mpr front, fun final rest => ?_⟩
          exact congrArg _ (whole final rest)

theorem arrivalOperations_held {arrival : Arrival} {calls : Nat → Calls} {fifo left : Bytes}
    {msgs : List Message} {len : Nat} (held : session.client.fifo = some fifo)
    (received : receive fifo arrival = .messages msgs len left) :
    arrivalOperations F arrival calls session =
      loopOperations F calls 0 msgs (session.withFifo left) := by
  rw [arrivalOperations, held]
  simp only [received]

/-- What arrives leads to operations that the messages in it ask for. -/
theorem arrivalOperations_orders {delivery : Delivery} {arrival : Arrival} {calls : Nat → Calls}
    (held : session.client.fifo = some delivery.fifo) :
    (arrivalOperations F arrival calls session).filter Operation.isOrder = [] ∨
      ∃ next msgs, deliverStep delivery arrival = some next ∧
        next.delivered = delivery.delivered ++ msgs ∧
        (arrivalOperations F arrival calls session).filter Operation.isOrder <+:
          orders session.client.fd session.client.identity msgs := by
  cases received : receive delivery.fifo arrival with
  | trap | failed =>
      rw [arrivalOperations, held]
      simp only [received]
      exact .inl rfl
  | messages msgs len fifo =>
      refine .inr ⟨_, msgs, by rw [deliverStep, received], rfl, ?_⟩
      rw [arrivalOperations_held held received]
      exact (loopOperations_orders 0 (session.withFifo fifo)).1

/-- When all messages are handled, it leads to all that they ask for. -/
theorem arrivalOperations_done {delivery : Delivery} {arrival : Arrival} {calls : Nat → Calls}
    (held : session.client.fifo = some delivery.fifo)
    (done : handleMessages F arrival calls session = .done final) :
    ∃ next msgs, deliverStep delivery arrival = some next ∧
      next.delivered = delivery.delivered ++ msgs ∧
      (arrivalOperations F arrival calls session).filter Operation.isOrder =
        orders session.client.fd session.client.identity msgs := by
  obtain ⟨fifo, msgs, len, left, looped, heldToo, received, loopedEq, -⟩ :=
    handleMessages_done done
  obtain rfl : delivery.fifo = fifo := Option.some.inj (held.symm.trans heldToo)
  refine ⟨_, msgs, by rw [deliverStep, received], rfl, ?_⟩
  rw [arrivalOperations_held held received]
  exact (loopOperations_orders 0 (session.withFifo left)).2 looped loopedEq

theorem removal_orders (client : Client) : client.removal.filter Operation.isOrder = [] := by
  unfold Client.removal
  split <;> rfl

variable {serverfd fd : SocketFd} {state next : ServerState} {event : Event} {client : Client}

/-- Accepting a connection records and registers nothing. -/
theorem eventOperations_accept (orderly : Orderly serverfd state event)
    (isServer : event.socket = serverfd) : eventOperations F serverfd state event = [] := by
  rw [eventOperations, if_pos isServer, acceptOperations, orderly.epollAdd]
  split
  · next failed => cases failed
  · rfl

/-- Nor do timers, strangers and hung-up connections; only what arrives from a client does. -/
theorem eventOperations_orders (notServer : event.socket ≠ serverfd) :
    (eventOperations F serverfd state event).filter Operation.isOrder = [] ∨
      ∃ client, state.clients.map event.socket = some client ∧
        (eventOperations F serverfd state event).filter Operation.isOrder =
          (arrivalOperations F event.sys.arrival event.sys.calls
            (state.session client)).filter Operation.isOrder := by
  rw [eventOperations, if_neg notServer]
  cases timed : state.timers.map event.socket with
  | some timer =>
      refine .inl ?_
      simp only
      unfold timerOperations
      split
      · rfl
      split
      · exact removal_orders _
      split
      · exact removal_orders _
      · rfl
  | none =>
      cases found : state.clients.map event.socket with
      | none => exact .inl rfl
      | some client =>
          simp only
          unfold clientOperations
          split
          · exact .inl (removal_orders client)
          refine .inr ⟨client, rfl, ?_⟩
          rw [List.filter_append]
          split
          · rw [removal_orders, List.append_nil]
          · exact List.append_nil _

/-- A client that is still there after its own event was not hung up. -/
theorem eventOperations_stays (orderly : Orderly serverfd state event)
    (notServer : event.socket ≠ serverfd) (untimed : state.timers.map event.socket = none)
    (found : state.clients.map event.socket = some client)
    (step : eventStep F serverfd state event = some next)
    (stays : (next.clients.map event.socket).isSome = true) :
    (eventOperations F serverfd state event).filter Operation.isOrder =
      (arrivalOperations F event.sys.arrival event.sys.calls
        (state.session client)).filter Operation.isOrder := by
  rw [eventOperations, if_neg notServer, untimed, found]
  simp only
  rw [clientOperations]
  by_cases closing : event.rdhup = true
  · rw [eventStep, if_neg notServer, untimed, found] at step
    cases handleClient_cases step with
    | closed _ removed =>
        have registries :=
          removeFd_registries orderly.timerDel orderly.clientDel (by exact found) removed
        rw [show next.clients = _ from congrArg Registries.clients registries] at stays
        simp [Registries.remove] at stays
    | served open_ | failed open_ => exact absurd closing open_
  · rw [if_neg closing, List.filter_append]
    split
    · rw [removal_orders, List.append_nil]
    · exact List.append_nil _

/-! ### The notes of a connection -/

theorem journal_entries {α : Type} (fd : SocketFd) (notes : List (Note α)) (entries : List α) :
    journal fd (notes ++ entries.map (.wrote fd)) = journal fd notes ++ entries := by
  induction entries generalizing notes with
  | nil => simp
  | cons entry entries ih =>
      rw [List.map_cons, List.append_cons, ih, journal_wrote, ← List.append_cons]

theorem journal_entries_other {α : Type} {other : SocketFd} (notes : List (Note α))
    (entries : List α) (differs : other ≠ fd) :
    journal fd (notes ++ entries.map (.wrote other)) = journal fd notes := by
  induction entries generalizing notes with
  | nil => simp
  | cons entry entries ih =>
      rw [List.map_cons, List.append_cons, ih, journal_wrote_other _ differs]

/-- For each descriptor, messages in its bytes have asked for what is noted since it was opened;
and for a connected client it is all that the messages in its bytes ask for. -/
structure Obeyed (serverfd : SocketFd) (past : List Event) (notes : List (Note Operation))
    (state : ServerState) : Prop where
  asked : ∀ fd, ∃ front delivery, front <+: arrivalsOf serverfd fd past ∧
    run deliverStep .empty front = some delivery ∧
      journal fd notes <+: orders fd .start delivery.delivered
  connected : ∀ fd client, state.clients.map fd = some client →
    ∃ delivery, Followed fd (arrivalsOf serverfd fd past) client delivery ∧
      journal fd notes = orders fd .start delivery.delivered

theorem obeyed_init (serverfd : SocketFd) : Obeyed serverfd [] [] .init where
  asked _ := ⟨[], .empty, List.nil_prefix, rfl, List.nil_prefix⟩
  connected _ _ found := nomatch found

variable {past : List Event} {notes : List (Note Operation)}

/-- A new connection has asked for nothing. -/
theorem Obeyed.accept (obeyed : Obeyed serverfd past notes state)
    (orderly : Orderly serverfd state event) (isServer : event.socket = serverfd)
    (step : eventStep F serverfd state event = some next) :
    Obeyed serverfd (past ++ [event]) (notes ++ eventOrders F serverfd state event) next := by
  rw [eventOrders, if_pos isServer]
  -- The notes for a descriptor are gone when it is opened, and otherwise stay.
  have opened : ∀ fd, event.sys.accepted = .ok fd →
      journal fd (notes ++ match event.sys.accepted with
        | .ok fd => [.opened fd]
        | .error _ => []) = [] := by
    intro fd accepted
    rw [accepted]
    exact journal_opened
  have stays : ∀ fd, event.sys.accepted ≠ .ok fd →
      journal fd (notes ++ match event.sys.accepted with
        | .ok fd => [.opened fd]
        | .error _ => []) = journal fd notes := by
    intro fd other
    cases accepted : event.sys.accepted with
    | error errorName => exact congrArg _ (List.append_nil notes)
    | ok newfd =>
        rw [accepted] at other
        exact journal_opened_other fun same => other (congrArg _ same)
  constructor
  · intro fd
    by_cases accepted : event.sys.accepted = .ok fd
    · rw [opened fd accepted]
      exact ⟨[], .empty, List.nil_prefix, rfl, List.nil_prefix⟩
    · rw [stays fd accepted, arrivalsOf_accepted_other isServer accepted]
      exact obeyed.asked fd
  · intro fd client found
    rcases eventStep_accepts orderly isServer step found with ⟨accepted, rfl⟩ | ⟨other, before⟩
    · rw [opened fd accepted, arrivalsOf_accepted isServer accepted]
      exact ⟨.empty, followed_init fd, rfl⟩
    · rw [stays fd other, arrivalsOf_accepted_other isServer other]
      exact obeyed.connected fd client before

/-- What the messages of an event ask for is what they ask for behind those before. -/
theorem Followed.orders_concat {arrivals : List Arrival} {delivery after : Delivery}
    {msgs : List Message} (followed : Followed fd arrivals client delivery)
    (delivered : after.delivered = delivery.delivered ++ msgs) :
    orders fd .start after.delivered =
      orders fd .start delivery.delivered ++ orders fd client.identity msgs := by
  rw [delivered, orders_append followed.identity]

/-- An event of a client or a timer. -/
theorem Obeyed.serve (consistent : state.registries.Consistent serverfd)
    (obeyed : Obeyed serverfd past notes state) (orderly : Orderly serverfd state event)
    (notServer : event.socket ≠ serverfd)
    (step : eventStep F serverfd state event = some next) :
    Obeyed serverfd (past ++ [event]) (notes ++ eventOrders F serverfd state event) next := by
  rw [eventOrders, if_neg notServer]
  constructor
  · intro fd
    by_cases own : event.socket = fd
    · subst own
      rw [journal_entries, arrivalsOf_arrived notServer rfl]
      rcases eventOperations_orders (F := F) notServer with
        nothing | ⟨client, found, same⟩
      · rw [nothing, List.append_nil]
        obtain ⟨front, delivery, begins, ran, noted⟩ := obeyed.asked event.socket
        exact ⟨front, delivery, begins.trans (List.prefix_append _ _), ran, noted⟩
      · obtain ⟨delivery, followed, noted⟩ := obeyed.connected _ client found
        have keyed : client.fd = event.socket := consistent.keyed _ client found
        have held : (state.session client).client.fifo = some delivery.fifo := followed.fifo
        rw [same]
        rcases arrivalOperations_orders (F := F) held with
          nothing | ⟨after, msgs, delivers, delivered, asked⟩
        · rw [nothing, List.append_nil]
          exact ⟨_, delivery, List.prefix_append _ _, followed.delivered, noted ▸ List.prefix_rfl⟩
        · refine ⟨_, after, List.prefix_rfl, run_append_eq_some.mpr ⟨delivery,
            followed.delivered, run_cons_eq_some.mpr ⟨after, delivers, rfl⟩⟩, ?_⟩
          rw [followed.orders_concat delivered, noted, List.prefix_append_right_inj, ← keyed]
          exact asked
    · rw [journal_entries_other _ _ own, arrivalsOf_other notServer own]
      exact obeyed.asked fd
  · intro fd after found
    rcases eventStep_stays consistent orderly notServer step found with
      ⟨other, before⟩ | ⟨client, session, rfl, before, done, rfl⟩
    · rw [journal_entries_other _ _ (Ne.symm other), arrivalsOf_other notServer (Ne.symm other)]
      exact obeyed.connected fd after before
    · obtain ⟨delivery, followed, noted⟩ := obeyed.connected _ client before
      have keyed : client.fd = event.socket := consistent.keyed _ client before
      obtain ⟨final, finalFollowed⟩ := followed.arrived keyed done
      have held : (state.session client).client.fifo = some delivery.fifo := followed.fifo
      obtain ⟨after, msgs, delivers, delivered, asked⟩ := arrivalOperations_done held done
      have ran : run deliverStep .empty
          (arrivalsOf serverfd event.socket past ++ [event.sys.arrival]) = some after :=
        run_append_eq_some.mpr ⟨delivery, followed.delivered,
          run_cons_eq_some.mpr ⟨after, delivers, rfl⟩⟩
      obtain rfl : final = after := Option.some.inj (finalFollowed.delivered.symm.trans ran)
      rw [journal_entries, arrivalsOf_arrived notServer rfl]
      refine ⟨final, finalFollowed, ?_⟩
      rw [followed.orders_concat delivered, noted, eventOperations_stays orderly notServer
        (consistent.apart _ client before) before step (by rw [found]; rfl), asked]
      exact congrArg (fun fd => _ ++ orders fd _ _) keyed

/-- The notes have the operations of the event that are asked for. -/
theorem eventOrders_entries (orderly : Orderly serverfd state event) :
    (eventOrders F serverfd state event).filterMap Note.entry =
      (eventOperations F serverfd state event).filter Operation.isOrder := by
  rw [eventOrders]
  by_cases isServer : event.socket = serverfd
  · rw [if_pos isServer, eventOperations_accept orderly isServer]
    split <;> rfl
  · rw [if_neg isServer, List.filterMap_map]
    exact List.filterMap_some

variable {events : List Event}

theorem serverOrders_concat (ran : run (eventStep F serverfd) .init past = some state) :
    serverOrders F serverfd (past ++ [event]) =
      serverOrders F serverfd past ++ eventOrders F serverfd state event :=
  emissions_concat ran

/-- Every orderly run obeys its connections, and its notes have all that is asked for. -/
theorem run_obeyed (orderly : EachStep (Orderly serverfd) (eventStep F serverfd) .init events)
    (ran : run (eventStep F serverfd) .init events = some state) :
    Obeyed serverfd events (serverOrders F serverfd events) state ∧
      (serverOperations F serverfd events).filter Operation.isOrder =
        (serverOrders F serverfd events).filterMap Note.entry := by
  have initial : run (eventStep F serverfd) .init [] = some .init ∧
      ServerState.init.registries.Consistent serverfd ∧
      Obeyed serverfd [] (serverOrders F serverfd []) .init ∧
      (serverOperations F serverfd []).filter Operation.isOrder =
        (serverOrders F serverfd []).filterMap Note.entry :=
    ⟨rfl, .empty serverfd, obeyed_init serverfd, rfl⟩
  have all := run_relates_when (Orderly serverfd)
    (fun past state => run (eventStep F serverfd) .init past = some state ∧
      state.registries.Consistent serverfd ∧
      Obeyed serverfd past (serverOrders F serverfd past) state ∧
      (serverOperations F serverfd past).filter Operation.isOrder =
        (serverOrders F serverfd past).filterMap Note.entry) ?_ [] initial orderly ran
  · exact all.2.2
  rintro past state event next ⟨ranPast, consistent, obeyed, entries⟩ orderly step
  have operations : serverOperations F serverfd (past ++ [event]) =
      serverOperations F serverfd past ++ eventOperations F serverfd state event :=
    emissions_concat ranPast
  refine ⟨run_append_eq_some.mpr ⟨state, ranPast, run_cons_eq_some.mpr ⟨next, step, rfl⟩⟩,
    eventStep_consistent consistent orderly step, ?_, ?_⟩
  · rw [serverOrders_concat ranPast]
    by_cases isServer : event.socket = serverfd
    · exact obeyed.accept orderly isServer step
    · exact obeyed.serve consistent orderly isServer step
  · rw [serverOrders_concat ranPast, operations, List.filter_append, List.filterMap_append, entries,
      eventOrders_entries orderly]

/-- In every orderly run the server records and registers only what its connections ask for: what
is noted for a descriptor since it was opened is asked for, in this order, by messages in the bytes
that have arrived on it since; for a connected client it is all that its messages ask for; and the
notes have every plate that is recorded and every dispatcher that is registered. -/
theorem server_obeys_connections
    (orderly : EachStep (Orderly serverfd) (eventStep F serverfd) .init events)
    (ran : run (eventStep F serverfd) .init events = some state) :
    (∀ fd, ∃ front delivery, front <+: arrivalsOf serverfd fd events ∧
      run deliverStep .empty front = some delivery ∧
        journal fd (serverOrders F serverfd events) <+: orders fd .start delivery.delivered) ∧
    (∀ fd client, state.clients.map fd = some client → ∃ delivery,
      run deliverStep .empty (arrivalsOf serverfd fd events) = some delivery ∧
        journal fd (serverOrders F serverfd events) = orders fd .start delivery.delivered) ∧
    (serverOperations F serverfd events).filter Operation.isOrder =
      (serverOrders F serverfd events).filterMap Note.entry := by
  obtain ⟨obeyed, entries⟩ := run_obeyed orderly ran
  refine ⟨obeyed.asked, fun fd client found => ?_, entries⟩
  obtain ⟨delivery, followed, noted⟩ := obeyed.connected fd client found
  exact ⟨delivery, followed.delivered, noted⟩

end Arithmetic

/-- The second camera has asked for one plate to be recorded. -/
theorem server_obeys_connections_speeding :
    ∃ delivery, run deliverStep .empty (arrivalsOf 3 6 speedingEvents) = some delivery ∧
      journal 6 (serverOrders ℚ 3 speedingEvents) = orders 6 .start delivery.delivered ∧
      (journal 6 (serverOrders ℚ 3 speedingEvents)).length = 1 := by
  have ran : (run (eventStep ℚ 3) .init speedingEvents).map
      (fun state => (state.clients.map 6).isSome) = some true := by decide +kernel
  obtain ⟨state, ranEq, connected⟩ := Option.map_eq_some_iff.mp ran
  obtain ⟨client, found⟩ := Option.isSome_iff_exists.mp connected
  obtain ⟨delivery, delivered, noted⟩ :=
    (server_obeys_connections orderly_speeding ranEq).2.1 6 client found
  exact ⟨delivery, delivered, noted, by decide +kernel⟩

end NetworkExercises.SpeedDaemon
