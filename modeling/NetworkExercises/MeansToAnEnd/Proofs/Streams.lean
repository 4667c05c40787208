/-
Module: NetworkExercises.MeansToAnEnd.Proofs.Streams
Purpose: Every connection of the C server is answered for its own stream, whatever happens
  on the others, as long as the bytes that wait can be counted by an `int`.
Main exports: arrivals, lastWhole, answers, dataStep_spec, Serves, client_found,
  sent_own_answers
-/
import NetworkExercises.MeansToAnEnd.Proofs.Requests
import NetworkExercises.MeansToAnEnd.Proofs.Sessions

namespace NetworkExercises.MeansToAnEnd.C

open Lib CUtils
open SpeedDaemon (SocketFd Net)

/-! ### The messages of a stream -/

/-- The messages of some data, all of them. -/
def allMessages (data : Bytes) : List Message := messages data (data.length / messageSize)

/-- Behind whole messages, the messages of more data follow. -/
theorem allMessages_append {front : Bytes} (whole : front.length % messageSize = 0)
    (back : Bytes) : allMessages (front ++ back) = allMessages front ++ allMessages back := by
  have count : (front ++ back).length / messageSize =
      front.length / messageSize + back.length / messageSize := by
    rw [List.length_append]
    simp only [messageSize] at whole ⊢
    omega
  rw [allMessages, messages, count, List.range_add, List.map_append, List.map_map]
  congr 1
  · apply List.map_congr_left
    intro k member
    apply messageAt_append
    have := List.mem_range.mp member
    simp only [messageSize] at this ⊢
    omega
  · apply List.map_congr_left
    intro k _
    have start : (front.length / messageSize + k) * messageSize =
        front.length + k * messageSize := by
      simp only [messageSize] at whole ⊢
      omega
    simp only [Function.comp_apply, messageAt, start, List.drop_append, List.drop_drop,
      List.drop_of_length_le (Nat.le_add_right _ _), List.nil_append, Nat.add_sub_cancel_left]

/-- The answers to all messages of some data, on a fresh table. -/
def answers (data : Bytes) : Bytes := (replies (assetPricesInit 16) (allMessages data)).2

/-- The table after all messages of some data. -/
def table (data : Bytes) : AssetPrices := (replies (assetPricesInit 16) (allMessages data)).1

theorem answers_append {front : Bytes} (whole : front.length % messageSize = 0) (back : Bytes) :
    answers (front ++ back) = answers front ++ (replies (table front) (allMessages back)).2 := by
  rw [answers, allMessages_append whole, replies_append]
  rfl

theorem table_append {front : Bytes} (whole : front.length % messageSize = 0) (back : Bytes) :
    table (front ++ back) = (replies (table front) (allMessages back)).1 := by
  rw [table, allMessages_append whole, replies_append]
  rfl

/-- No message is answered with more than four bytes. -/
theorem replies_length_le (ps : AssetPrices) (msgs : List Message) :
    (replies ps msgs).2.length ≤ 4 * msgs.length := by
  induction msgs generalizing ps with
  | nil => simp [replies]
  | cons msg msgs ih =>
      have first : (reply (ps, []) msg).2.length ≤ 4 := by
        simp only [reply]
        split
        · simp [wordBytes]
        · split
          · split <;> simp
          · simp
      have split := replies_append ps [msg] msgs
      rw [List.singleton_append] at split
      have rest := ih (replies ps [msg]).1
      rw [split, List.length_append, List.length_cons]
      have one : (replies ps [msg]).2.length ≤ 4 := first
      omega

/-- The answers to less than 2^31 bytes are all given to `sendall`. -/
theorem given_replies (ps : AssetPrices) {data : Bytes} (small : data.length < 2 ^ 31) :
    given (replies ps (messages data (data.length / messageSize))).2 =
      (replies ps (messages data (data.length / messageSize))).2 := by
  have length := replies_length_le ps (messages data (data.length / messageSize))
  rw [messages, List.length_map, List.length_range, ← messages] at length
  have fewer : (replies ps (messages data (data.length / messageSize))).2.length < 2 ^ 31 := by
    simp only [messageSize] at length ⊢
    omega
  exact given_of_lt fewer

/-! ### The stream of a connection -/

/-- What an event adds to the arrivals of a connection; a new connection begins anew. -/
def arrive (fd : SocketFd) (past : List Bytes) : Event → List Bytes
  | .accept other _ => if other = fd then [] else past
  | .data other turn => if other = fd then past ++ [turn.arrival.bytes] else past

/-- The bytes of each event of a connection since it was accepted. -/
def arrivals (fd : SocketFd) (events : List Event) : List Bytes := events.foldl (arrive fd) []

theorem arrivals_concat (fd : SocketFd) (events : List Event) (event : Event) :
    arrivals fd (events ++ [event]) = arrive fd (arrivals fd events) event := by
  rw [arrivals, List.foldl_append]
  rfl

/-- The longest beginning of a stream that ends where an event ends, after a number of
bytes that is a multiple of nine. -/
def lastWhole (past : List Bytes) : Bytes :=
  ((past.inits.map List.flatten).filter fun part => part.length % messageSize = 0).getLastD []

theorem lastWhole_concat (past : List Bytes) (bytes : Bytes) :
    lastWhole (past ++ [bytes]) =
      if (past ++ [bytes]).flatten.length % messageSize = 0 then (past ++ [bytes]).flatten
      else lastWhole past := by
  have inits : (past ++ [bytes]).inits = past.inits ++ [past ++ [bytes]] := by
    rw [List.inits_append]
    simp
  rw [lastWhole, inits, List.map_append, List.map_singleton, List.filter_append]
  split
  · next whole =>
    rw [List.filter_cons_of_pos (by simpa using whole)]
    simp
  · next part =>
    rw [List.filter_cons_of_neg (by simpa using part)]
    simp [lastWhole]

theorem answers_nil : answers (lastWhole []) = [] := by
  simp [lastWhole, answers, allMessages, messages, replies]

theorem lastWhole_length (past : List Bytes) : (lastWhole past).length % messageSize = 0 := by
  induction past using List.reverseRecOn with
  | nil => rfl
  | append_singleton past bytes ih =>
      rw [lastWhole_concat]
      split
      · assumption
      · exact ih

/-! ### One event -/

variable {front back cells : List (Ptr × Session)} {cell : Ptr × Session} {state next : ServerState}
  {turn : Turn} {client : Client}

/-- The client that an event is about. -/
def ServerState.clientOf (state : ServerState) (session : Session) : Client :=
  ⟨session, state.sdqu, state.net session.clientId, false⟩

/-- What an event does to the server once its client has been served. -/
structure Served (front back : List (Ptr × Session)) (cell : Ptr × Session)
    (state next : ServerState) (client : Client) : Prop where
  sdqu : next.sdqu = client.sdqu
  net : next.net = Function.update state.net cell.2.clientId client.sent
  live : next.live =
    if client.closed then state.live.erase cell.2.clientId else state.live
  linked : Linked next.clients
    (if client.closed then front ++ back else front ++ (cell.1, client.session) :: back)

/-- An event of an open connection finds its session. -/
theorem dataStep_spec (linked : Linked state.clients (front ++ cell :: back))
    (distinct : ((front ++ cell :: back).map fun cell => cell.2.clientId).Nodup)
    (positive : cell.2.clientId ≠ 0)
    (turned : clientTurn (state.clientOf cell.2) turn = some client)
    (sameId : client.session.clientId = cell.2.clientId) :
    ∃ next, dataStep state cell.2.clientId turn = some next ∧
      Served front back cell state next client := by
  have found := find_eq linked positive (find?_middle distinct)
  have node := linked.wellLinked.linked.node_mid
  have moved : Linked { state.clients with ca := some cell.1 } (front ++ cell :: back) :=
    linked.moved (by simp)
  have changed := setItem_linked moved client.session
  have sameIds : ((front ++ (cell.1, client.session) :: back).map
      fun cell => cell.2.clientId).Nodup := by
    rw [List.map_append, List.map_cons] at distinct ⊢
    rwa [sameId]
  have search := find?_middle sameIds
  rw [sameId] at search
  unfold dataStep
  rw [found]
  simp only [Option.bind_eq_bind, Option.bind_some, Bool.not_true, Bool.false_eq_true, if_false,
    node, Option.pure_def]
  rw [show clientTurn ⟨cell.2, state.sdqu, state.net cell.2.clientId, false⟩ turn =
    some client from turned]
  simp only [Option.bind_some]
  cases closed : client.closed with
  | false =>
      refine ⟨_, rfl, rfl, rfl, ?_, ?_⟩
      · simp [closed]
      · simpa [closed] using changed
  | true =>
      obtain ⟨removed, removes, -, left⟩ := remove_linked changed positive search
      simp only [if_true, removes, Option.bind_some]
      refine ⟨_, rfl, rfl, rfl, ?_, ?_⟩
      · simp [closed]
      · simpa [closed] using left

/-- The client of an event is served. -/
theorem clientTurn_of_dataStep (linked : Linked state.clients (front ++ cell :: back))
    (distinct : ((front ++ cell :: back).map fun cell => cell.2.clientId).Nodup)
    (positive : cell.2.clientId ≠ 0)
    (ran : dataStep state cell.2.clientId turn = some next) :
    ∃ client, clientTurn (state.clientOf cell.2) turn = some client := by
  unfold dataStep at ran
  rw [find_eq linked positive (find?_middle distinct)] at ran
  simp only [Option.bind_eq_bind, Option.bind_some, Bool.not_true, Bool.false_eq_true, if_false,
    linked.wellLinked.linked.node_mid] at ran
  obtain ⟨client, turned, -⟩ := Option.bind_eq_some_iff.mp ran
  exact ⟨client, turned⟩

theorem session_eq (linked : Linked state.clients (front ++ cell :: back))
    (distinct : ((front ++ cell :: back).map fun cell => cell.2.clientId).Nodup)
    (positive : cell.2.clientId ≠ 0) : state.session cell.2.clientId = some cell.2 := by
  rw [ServerState.session, find_eq linked positive (find?_middle distinct)]
  simp [linked.wellLinked.linked.node_mid]

/-- The event is received without an error, and `sendall` transmits everything. -/
def Event.Clean : Event → Prop
  | .accept _ _ => True
  | .data _ turn => ¬ recvResult turn.arrival.ending < -1 ∧ Transmits turn.sends

/-- Fewer than 2^31 bytes wait when the queue of the client is looked at. -/
def Small (state : ServerState) : Event → Prop
  | .accept _ _ => True
  | .data fd turn => fd ∈ state.live → ∀ session, state.session fd = some session →
      session.recvQu.size + turn.arrival.bytes.length < 2 ^ 31

/-- A session has processed its stream as far as it was whole, and keeps the rest. -/
structure Follows (past : List Bytes) (session : Session) : Prop where
  recvQu : ∃ pending, past.flatten = lastWhole past ++ pending ∧ Holds session.recvQu pending
  asset : session.asset = table (lastWhole past)

theorem follows_init (fd : SocketFd) (memory : Nat → UInt8) :
    Follows [] (clientsSessionInit fd memory) :=
  ⟨⟨[], rfl, holds_init memory (by decide : 0 < 512)⟩, rfl⟩

/-- An event is answered for as much of the stream as it makes whole. -/
theorem clientTurn_follows {past : List Bytes} {session : Session} {sdqu : Queue}
    (follows : Follows past session) (empty : Holds sdqu [])
    (ended : ¬ recvResult turn.arrival.ending < -1) (transmits : Transmits turn.sends)
    (small : session.recvQu.size + turn.arrival.bytes.length < 2 ^ 31)
    (ran : clientTurn ⟨session, sdqu, answers (lastWhole past), false⟩ turn = some client) :
    Follows (past ++ [turn.arrival.bytes]) client.session ∧ Holds client.sdqu [] ∧
      client.sent = answers (lastWhole (past ++ [turn.arrival.bytes])) ∧
      client.session.clientId = session.clientId := by
  obtain ⟨pending, pastEq, recvQu⟩ := follows.recvQu
  have multiple := lastWhole_length past
  have flattened : (past ++ [turn.arrival.bytes]).flatten =
      lastWhole past ++ (pending ++ turn.arrival.bytes) := by
    rw [List.flatten_concat, pastEq, List.append_assoc]
  have few : (pending ++ turn.arrival.bytes).length < 2 ^ 31 := by
    rwa [List.length_append, ← recvQu.size_eq]
  have remainder : (past ++ [turn.arrival.bytes]).flatten.length % messageSize =
      (pending ++ turn.arrival.bytes).length % messageSize := by
    rw [flattened, List.length_append]
    simp only [messageSize] at multiple ⊢
    omega
  rcases clientTurn_cases recvQu empty ran with fails | waits | ⟨data, processes⟩
  · exact absurd fails.failed ended
  · -- Nothing is whole, unless nothing waits at all.
    have same : lastWhole (past ++ [turn.arrival.bytes]) = lastWhole past := by
      have unready := waits.unready
      rw [toInt_of_lt few] at unready
      rw [lastWhole_concat, remainder]
      split
      · next whole =>
        have nothing : pending ++ turn.arrival.bytes = [] := by
          rw [← List.length_eq_zero_iff]
          simp only [messageSize] at whole unready
          omega
        rw [flattened, nothing, List.append_nil]
      · rfl
    refine ⟨⟨⟨_, ?_, waits.recvQu⟩, ?_⟩, waits.sdqu, ?_, waits.clientId⟩
    · rw [same, flattened]
    · rw [same]
      exact waits.asset.trans follows.asset
    · rw [same]
      exact waits.sent
  · have dataEq := processes.dataEq
    rw [toInt_of_lt few, Int.toNat_natCast, List.take_length] at dataEq
    have whole : (pending ++ turn.arrival.bytes).length % messageSize = 0 := by
      have ready := processes.ready.2
      rw [toInt_of_lt few] at ready
      simp only [messageSize] at ready ⊢
      omega
    have all : lastWhole (past ++ [turn.arrival.bytes]) =
        lastWhole past ++ (pending ++ turn.arrival.bytes) := by
      rw [lastWhole_concat, remainder, if_pos whole, flattened]
    obtain ⟨-, sent⟩ := processes.sends transmits
    have asset := processes.asset
    rw [dataEq] at sent asset
    refine ⟨⟨⟨[], ?_, processes.recvQu⟩, ?_⟩, processes.sdqu, ?_, processes.clientId⟩
    · rw [all, flattened, List.append_nil]
    · rw [all, table_append multiple, ← follows.asset]
      exact asset
    · rw [all, answers_append multiple, ← follows.asset]
      rw [given_replies _ few] at sent
      exact sent

/-! ### Every run -/

/-- The sessions of the connections that are open. -/
structure Sessions (past : List Event) (state : ServerState) (cells : List (Ptr × Session)) :
    Prop where
  linked : Linked state.clients cells
  distinct : (cells.map fun cell => cell.2.clientId).Nodup
  live : ∀ fd, fd ∈ state.live ↔ fd ∈ cells.map fun cell => cell.2.clientId
  positive : ∀ cell ∈ cells, cell.2.clientId ≠ 0
  follows : ∀ cell ∈ cells, Follows (arrivals cell.2.clientId past) cell.2

/-- The server after some events. -/
structure Serves (past : List Event) (state : ServerState) : Prop where
  sessions : ∃ cells, Sessions past state cells
  sdqu : Holds state.sdqu []
  net : ∀ fd, state.net fd = answers (lastWhole (arrivals fd past))

theorem serves_init (memory : Nat → UInt8) : Serves [] (.init memory) :=
  ⟨⟨[], linked_empty, List.nodup_nil, by simp [ServerState.init], nofun, nofun⟩,
    holds_init memory (by decide : 0 < 65536), fun _ => answers_nil.symm⟩

theorem serves_accept {past : List Event} (serves : Serves past state) {fd : SocketFd}
    {memory : Nat → UInt8} (ran : eventStep state (.accept fd memory) = some next) :
    Serves (past ++ [.accept fd memory]) next := by
  obtain ⟨⟨cells, sessions⟩, sdqu, net⟩ := serves
  simp only [eventStep] at ran
  split at ran
  · cases ran
  · next new =>
    obtain ⟨clients, adds, rfl⟩ := Option.map_eq_some_iff.mp ran
    have positive : fd ≠ 0 := by
      rintro rfl
      simp [clientsSessionAdd] at adds
    obtain ⟨added, p, adds', linked⟩ := add_linked sessions.linked positive memory
    rw [adds, Option.some.injEq] at adds'
    subst adds'
    have absent : fd ∉ cells.map fun cell => cell.2.clientId :=
      fun member => new ((sessions.live fd).mpr member)
    have ids : ((cells ++ [(p, clientsSessionInit fd memory)]).map fun cell => cell.2.clientId) =
        (cells.map fun cell => cell.2.clientId) ++ [fd] := by
      rw [List.map_append]
      rfl
    have others : ∀ other, other ≠ fd →
        arrivals other (past ++ [.accept fd memory]) = arrivals other past := by
      intro other ne
      rw [arrivals_concat, arrive, if_neg ne.symm]
    have own : arrivals fd (past ++ [.accept fd memory]) = [] := by
      rw [arrivals_concat, arrive, if_pos rfl]
    refine ⟨⟨_, linked, ?_, ?_, ?_, ?_⟩, sdqu, ?_⟩
    · rw [ids, List.nodup_append]
      refine ⟨sessions.distinct, List.nodup_singleton _, ?_⟩
      rintro id member other isNew rfl
      rw [List.mem_singleton.mp isNew] at member
      exact absent member
    · intro other
      rw [ids, List.mem_append, List.mem_singleton, ← sessions.live, Finset.mem_insert, or_comm]
    · intro cell member
      rcases List.mem_append.mp member with old | isNew
      · exact sessions.positive cell old
      · rw [List.mem_singleton.mp isNew]
        exact positive
    · intro cell member
      rcases List.mem_append.mp member with old | isNew
      · rw [others _ (fun same => absent (same ▸ List.mem_map_of_mem old))]
        exact sessions.follows cell old
      · rw [List.mem_singleton.mp isNew]
        show Follows (arrivals fd _) _
        rw [own]
        exact follows_init fd memory
    · intro other
      by_cases same : other = fd
      · rw [same, own]
        exact Function.update_self _ _ _
      · rw [others other same, ← net other]
        exact Function.update_of_ne same _ _

section OneSession

variable {past events : List Event}

/-- The session with a descriptor is the only one. -/
theorem Sessions.others (sessions : Sessions past state (front ++ cell :: back)) :
    cell.2.clientId ∉ (front ++ back).map (fun cell => cell.2.clientId) ∧
      ((front ++ back).map fun cell => cell.2.clientId).Nodup := by
  have distinct := sessions.distinct
  rw [List.map_append, List.map_cons, List.nodup_middle, List.nodup_cons, ← List.map_append]
    at distinct
  exact distinct

theorem mem_middle {other : Ptr × Session} :
    other ∈ front ++ cell :: back ↔ other = cell ∨ other ∈ front ++ back := by
  simp only [List.mem_append, List.mem_cons]
  exact or_left_comm

/-- The sessions of the other connections follow their streams as before. -/
theorem Sessions.follows_others (sessions : Sessions past state (front ++ cell :: back))
    (unmoved : ∀ fd, fd ≠ cell.2.clientId → arrivals fd events = arrivals fd past)
    {other : Ptr × Session} (member : other ∈ front ++ back) :
    Follows (arrivals other.2.clientId events) other.2 := by
  have ne : other.2.clientId ≠ cell.2.clientId :=
    fun same => sessions.others.1 (same ▸ List.mem_map_of_mem member)
  rw [unmoved _ ne]
  exact sessions.follows other (mem_middle.mpr (.inr member))

/-- A connection was closed. -/
theorem Sessions.removed (sessions : Sessions past state (front ++ cell :: back))
    (linked : Linked next.clients (front ++ back))
    (live : next.live = state.live.erase cell.2.clientId)
    (unmoved : ∀ fd, fd ≠ cell.2.clientId → arrivals fd events = arrivals fd past) :
    Sessions events next (front ++ back) := by
  obtain ⟨absent, distinct⟩ := sessions.others
  refine ⟨linked, distinct, ?_, ?_, fun other => sessions.follows_others unmoved⟩
  · intro fd
    rw [live, Finset.mem_erase, sessions.live, List.map_append, List.map_cons, List.mem_append,
      List.mem_cons, or_left_comm, ← List.mem_append, ← List.map_append]
    constructor
    · rintro ⟨ne, same | member⟩
      · exact absurd same ne
      · exact member
    · intro member
      exact ⟨fun same => absent (same ▸ member), .inr member⟩
  · intro other member
    exact sessions.positive other (mem_middle.mpr (.inr member))

/-- A connection was served. -/
theorem Sessions.changed {session : Session}
    (sessions : Sessions past state (front ++ cell :: back))
    (linked : Linked next.clients (front ++ (cell.1, session) :: back))
    (live : next.live = state.live) (sameId : session.clientId = cell.2.clientId)
    (follows : Follows (arrivals cell.2.clientId events) session)
    (unmoved : ∀ fd, fd ≠ cell.2.clientId → arrivals fd events = arrivals fd past) :
    Sessions events next (front ++ (cell.1, session) :: back) := by
  have ids : ((front ++ (cell.1, session) :: back).map fun cell => cell.2.clientId) =
      (front ++ cell :: back).map fun cell => cell.2.clientId := by
    rw [List.map_append, List.map_cons, sameId, List.map_append, List.map_cons]
  refine ⟨linked, by rw [ids]; exact sessions.distinct, ?_, ?_, ?_⟩
  · intro fd
    rw [live, ids]
    exact sessions.live fd
  · intro other member
    rcases mem_middle.mp member with rfl | member
    · show session.clientId ≠ 0
      rw [sameId]
      exact sessions.positive cell (mem_middle.mpr (.inl rfl))
    · exact sessions.positive other (mem_middle.mpr (.inr member))
  · intro other member
    rcases mem_middle.mp member with rfl | member
    · show Follows (arrivals session.clientId events) session
      rwa [sameId]
    · exact sessions.follows_others unmoved member

end OneSession

theorem serves_data {past : List Event} (serves : Serves past state) {fd : SocketFd}
    (clean : (Event.data fd turn).Clean) (small : Small state (.data fd turn))
    (ran : eventStep state (.data fd turn) = some next) :
    Serves (past ++ [.data fd turn]) next := by
  obtain ⟨⟨cells, sessions⟩, sdqu, net⟩ := serves
  simp only [eventStep] at ran
  split at ran
  · next isOpen =>
    obtain ⟨cell, member, rfl⟩ := List.mem_map.mp ((sessions.live fd).mp isOpen)
    obtain ⟨front, back, rfl⟩ := List.append_of_mem member
    have positive := sessions.positive cell member
    obtain ⟨client, turned⟩ := clientTurn_of_dataStep sessions.linked sessions.distinct
      positive ran
    have few := small isOpen cell.2 (session_eq sessions.linked sessions.distinct positive)
    have served := turned
    rw [ServerState.clientOf, net] at served
    obtain ⟨follows, empty, sent, sameId⟩ := clientTurn_follows (sessions.follows cell member)
      sdqu clean.1 clean.2 few served
    obtain ⟨after, steps, spec⟩ := dataStep_spec sessions.linked sessions.distinct positive turned
      sameId
    rw [ran, Option.some.injEq] at steps
    subst steps
    have own : arrivals cell.2.clientId (past ++ [.data cell.2.clientId turn]) =
        arrivals cell.2.clientId past ++ [turn.arrival.bytes] := by
      rw [arrivals_concat, arrive, if_pos rfl]
    have others : ∀ other, other ≠ cell.2.clientId →
        arrivals other (past ++ [.data cell.2.clientId turn]) = arrivals other past := by
      intro other ne
      rw [arrivals_concat, arrive, if_neg ne.symm]
    rw [← own] at follows sent
    refine ⟨?_, spec.sdqu ▸ empty, ?_⟩
    · have live := spec.live
      have linked := spec.linked
      cases closed : client.closed with
      | true =>
          rw [closed, if_pos rfl] at live linked
          exact ⟨_, sessions.removed linked live others⟩
      | false =>
          rw [closed] at live linked
          exact ⟨_, sessions.changed linked live sameId follows others⟩
    · intro other
      rw [spec.net]
      by_cases same : other = cell.2.clientId
      · rw [same, Function.update_self, sent]
      · rw [others other same, Function.update_of_ne same]
        exact net other
  · cases ran

/-- The server after a run of events without errors, when an `int` counts what waits. -/
theorem run_serves (memory : Nat → UInt8) {events : List Event}
    (clean : ∀ event ∈ events, event.Clean)
    (each : EachStep Small eventStep (.init memory) events)
    (ran : run eventStep (.init memory) events = some next) : Serves events next := by
  apply run_relates_when (fun state event => Small state event ∧ event.Clean) Serves ?_ []
    (serves_init memory) (each.and_forall clean) ran
  intro past state event next serves ⟨small, isClean⟩ stepEq
  cases event with
  | accept fd memory => exact serves_accept serves stepEq
  | data fd turn => exact serves_data serves isClean small stepEq

/-- The assertion of the loop never fails: an event of an open connection finds a client. -/
theorem client_found {past : List Event} (serves : Serves past state) {fd : SocketFd}
    (isOpen : fd ∈ state.live) :
    ∃ clients, clientsSessionFind state.clients fd = some (true, clients) := by
  obtain ⟨⟨cells, sessions⟩, -, -⟩ := serves
  obtain ⟨cell, member, rfl⟩ := List.mem_map.mp ((sessions.live fd).mp isOpen)
  obtain ⟨front, back, rfl⟩ := List.append_of_mem member
  exact ⟨_, find_eq sessions.linked (sessions.positive cell member)
    (find?_middle sessions.distinct)⟩

/-- One run of `message_parse` over some data gives all its answers, unless there are more
messages than an `int` counts. -/
theorem messageParse_eq_answers {data : Bytes} (few : data.length / messageSize < 2 ^ 31)
    {qu : Queue} (empty : Holds qu []) :
    (messageParse (assetPricesInit 16) qu data).2.contents = answers data := by
  have numMsgs : (toInt (data.length / messageSize)).toNat = data.length / messageSize := by
    rw [toInt_of_lt few, Int.toNat_natCast]
  obtain ⟨pushed, parsed, holds⟩ := foldl_handleMessage_reply (assetPricesInit 16) empty
    (messages data (data.length / messageSize))
  rw [messageParse, numMsgs, parsed]
  exact holds.contents

/-- In every run without errors, in which fewer than 2^31 bytes wait whenever a queue is
looked at, every connection has been sent the answers of one `message_parse` run, on a fresh
table, over the longest beginning of its own stream that ended an event at a multiple of
nine bytes.  (One run cannot count more than 2^31 messages; the answers go on beyond.) -/
theorem sent_own_answers (memory : Nat → UInt8) {events : List Event} {final : ServerState}
    (clean : ∀ event ∈ events, event.Clean)
    (each : EachStep Small eventStep (.init memory) events)
    (ran : run eventStep (.init memory) events = some final) (fd : SocketFd) :
    final.net fd = answers (lastWhole (arrivals fd events)) ∧
      ((lastWhole (arrivals fd events)).length / messageSize < 2 ^ 31 →
        ∀ qu, Holds qu [] →
          final.net fd =
            (messageParse (assetPricesInit 16) qu
              (lastWhole (arrivals fd events))).2.contents) := by
  have net := (run_serves memory clean each ran).net fd
  refine ⟨net, fun few qu empty => ?_⟩
  rw [net, messageParse_eq_answers few empty]

/-! ### Short runs -/

/-- The bytes of an event. -/
def Event.size : Event → Nat
  | .accept _ _ => 0
  | .data _ turn => turn.arrival.bytes.length

/-- No stream is longer than all bytes of the events. -/
theorem arrivals_length_le (fd : SocketFd) (events : List Event) :
    (arrivals fd events).flatten.length ≤ (events.map Event.size).sum := by
  induction events using List.reverseRecOn with
  | nil => simp [arrivals]
  | append_singleton events event ih =>
      rw [arrivals_concat, List.map_append, List.sum_append]
      cases event with
      | accept other memory =>
          simp only [arrive]
          split
          · simp
          · exact ih.trans (Nat.le_add_right _ _)
      | data other turn =>
          simp only [arrive]
          split
          · simpa [Event.size] using ih
          · exact ih.trans (Nat.le_add_right _ _)

/-- In a run of fewer than 2^31 bytes altogether, an `int` always counts what waits. -/
theorem eachStep_small {past events : List Event} (serves : Serves past state)
    (clean : ∀ event ∈ events, event.Clean)
    (short : ((past ++ events).map Event.size).sum < 2 ^ 31) :
    EachStep Small eventStep state events := by
  induction events generalizing past state with
  | nil => trivial
  | cons event events ih =>
      obtain ⟨isClean, others⟩ := List.forall_mem_cons.mp clean
      rw [← List.singleton_append, ← List.append_assoc] at short
      cases event with
      | accept fd memory =>
          exact ⟨trivial, fun next stepEq => ih (serves_accept serves stepEq) others short⟩
      | data fd turn =>
          have small : Small state (.data fd turn) := by
            intro isOpen session found
            obtain ⟨⟨cells, sessions⟩, -, -⟩ := serves
            obtain ⟨cell, member, rfl⟩ := List.mem_map.mp ((sessions.live fd).mp isOpen)
            obtain ⟨front, back, rfl⟩ := List.append_of_mem member
            rw [session_eq sessions.linked sessions.distinct (sessions.positive cell member)]
              at found
            cases found
            obtain ⟨pending, pastEq, recvQu⟩ := (sessions.follows cell member).recvQu
            have le := arrivals_length_le cell.2.clientId past
            rw [pastEq, List.length_append] at le
            rw [List.map_append, List.map_append, List.sum_append, List.sum_append,
              List.map_singleton, List.sum_singleton, Event.size] at short
            rw [recvQu.size_eq]
            omega
          exact ⟨small, fun next stepEq =>
            ih (serves_data serves isClean small stepEq) others short⟩

/-- Two connections that each insert a price and ask for it, their bytes mixed up. -/
def mixed : List Event :=
  [.accept 5 fun _ => 0, .accept 6 fun _ => 0,
    .data 5 (.data [73, 0, 0, 0] (by decide)),
    .data 6 (.data [73, 0, 0, 0, 1, 0, 0, 0, 102, 81, 0, 0, 0, 0, 0, 0, 0, 9] (by decide)),
    .data 5 (.data [1, 0, 0, 0, 101, 81, 0, 0, 0, 0, 0, 0, 0, 9] (by decide))]

theorem sent_own_answers_mixed :
    ∃ final, run eventStep (.init fun _ => 0) mixed = some final ∧
      final.net 5 = [0, 0, 0, 101] ∧ final.net 6 = [0, 0, 0, 102] := by
  obtain ⟨final, ran⟩ := Option.isSome_iff_exists.mp
    (show (run eventStep (.init fun _ => 0) mixed).isSome by decide +kernel)
  have clean : ∀ event ∈ mixed, event.Clean := by
    simp [mixed, Event.Clean, Turn.data, recvResult, transmits_whole]
  have each := eachStep_small (serves_init fun _ => 0) clean (by decide)
  refine ⟨final, ran, ?_, ?_⟩
  · exact (sent_own_answers _ clean each ran 5).1.trans (by decide +kernel)
  · exact (sent_own_answers _ clean each ran 6).1.trans (by decide +kernel)

/-! ### Too many bytes for an `int` -/

/-- A query is answered. -/
theorem answers_ne_nil {data : Bytes} (long : messageSize ≤ data.length)
    (isQuery : data.headD 0 = messageQuery) : answers data ≠ [] := by
  obtain ⟨others, count⟩ := Nat.exists_eq_succ_of_ne_zero
    (Nat.ne_of_gt (Nat.div_pos long (by decide)))
  have first : (messageAt data 0).type = messageQuery := by
    simpa [messageAt] using isQuery
  have split : allMessages data =
      [messageAt data 0] ++ (List.range others).map (messageAt data ∘ Nat.succ) := by
    rw [allMessages, messages, count, List.range_succ_eq_map, List.map_cons, List.map_map]
    rfl
  rw [answers, split, replies_append]
  simp [replies, reply, first, wordBytes, bigEndian]

/-- Some bytes that are read one by one. -/
def singles (bytes : Bytes) : SpeedDaemon.Arrival :=
  ⟨bytes.map fun byte => [byte], .wouldBlock, SpeedDaemon.oneByOne_nonempty bytes⟩

@[simp] theorem singles_bytes (bytes : Bytes) : (singles bytes).bytes = bytes := by
  rw [SpeedDaemon.Arrival.bytes, singles, ← List.flatMap_def, List.flatMap_singleton']

/-- Bytes that are not taken for whole messages are not answered. -/
theorem clientTurn_unready (client : Client) (sends : Bytes → Sending)
    {held bytes : Bytes}
    (recv : Holds client.session.recvQu held) (isOpen : client.closed = false)
    (unready : ¬ toInt (held ++ bytes).length > 0) :
    ∃ waits, clientTurn client ⟨singles bytes, sends⟩ = some waits ∧
      waits.sent = client.sent ∧ waits.session.clientId = client.session.clientId := by
  obtain ⟨received, loop, holds⟩ := recvLoop_singletons recv bytes
  have request : recvRequest client.session.recvQu (singles bytes) = some (-1, received) := by
    show (recvLoop client.session.recvQu (bytes.map fun byte => [byte])).map _ = _
    rw [loop]
    rfl
  simp only [clientTurn, isOpen, Bool.false_eq_true, if_false, request, Option.bind_eq_bind,
    Option.bind_some, queuePeek_eq holds, unready, false_and, lt_self_iff_false]
  exact ⟨_, rfl, rfl, rfl⟩

/-- In one event, 2^31 + 7 bytes that are nothing but queries. -/
def flood : List Event :=
  [.accept 5 fun _ => 0,
    .data 5 ⟨singles (List.replicate 2147483655 messageQuery), .whole⟩]

/-- The flood is whole, received without an error and would be transmitted, but is never
answered. -/
theorem flood_unanswered :
    (∀ event ∈ flood, event.Clean) ∧
      ∃ final, run eventStep (.init fun _ => 0) flood = some final ∧ final.net 5 = [] ∧
        (messageParse (assetPricesInit 16) (queueInit (fun _ => 0) 65536)
          (lastWhole (arrivals 5 flood))).2.contents ≠ [] := by
  have length : (List.replicate 2147483655 messageQuery).length = 2147483655 :=
    List.length_replicate
  have isQuery : (List.replicate 2147483655 messageQuery).headD 0 = messageQuery := rfl
  unfold flood
  generalize List.replicate 2147483655 messageQuery = bytes at length isQuery
  have negative : ¬ toInt ([] ++ bytes).length > 0 := by
    have missing : toInt bytes.length + 2 ^ 32 ≤ bytes.length := toInt_of_ge (by omega)
    rw [List.nil_append]
    omega
  have past : arrivals 5 [.accept 5 fun _ => 0,
      .data 5 ⟨singles bytes, .whole⟩] = [bytes] := by
    simp [arrivals, arrive]
  have whole : lastWhole [bytes] = bytes := by
    have := lastWhole_concat [] bytes
    rw [List.nil_append, List.flatten_singleton, length] at this
    exact this
  refine ⟨?_, ?_⟩
  · simp [Event.Clean, singles, recvResult, transmits_whole]
  · -- The connection is accepted, and its queue is empty.
    obtain ⟨clients, p, adds, linked⟩ := add_linked linked_empty
      (by decide : (5 : SocketFd) ≠ 0) (fun _ => 0)
    rw [List.nil_append] at linked
    have accepted : eventStep (.init fun _ => 0) (.accept 5 fun _ => 0) =
        some ⟨clients, queueInit (fun _ => 0) 65536, {5},
          Function.update (fun _ => []) 5 []⟩ := by
      simp [eventStep, acceptStep, ServerState.init, adds]
    obtain ⟨waits, turned, sent, sameId⟩ := clientTurn_unready
      ⟨clientsSessionInit 5 fun _ => 0, queueInit (fun _ => 0) 65536, [], false⟩
      .whole
      (holds_init (fun _ => 0) (by decide : 0 < 512)) rfl negative
    obtain ⟨final, steps, spec⟩ := @dataStep_spec [] [] _
      ⟨clients, queueInit (fun _ => 0) 65536, {5}, Function.update (fun _ => []) 5 []⟩ _ _ linked
      (List.nodup_singleton _) (show (5 : SocketFd) ≠ 0 by decide) turned sameId
    have handled : eventStep ⟨clients, queueInit (fun _ => 0) 65536, {5},
        Function.update (fun _ => []) 5 []⟩
        (.data 5 ⟨singles bytes, .whole⟩) = some final := by
      rw [eventStep, if_pos (Finset.mem_singleton_self 5)]
      exact steps
    refine ⟨final, ?_, ?_, ?_⟩
    · rw [run, accepted, Option.bind_eq_bind, Option.bind_some, run, handled]
      rfl
    · rw [spec.net, sent]
      exact Function.update_self _ _ _
    · rw [past, whole, messageParse_eq_answers (by rw [length]; decide)
        (holds_init (fun _ => 0) (by decide))]
      exact answers_ne_nil (by rw [length]; decide) isQuery

end NetworkExercises.MeansToAnEnd.C
