/-
Module: NetworkExercises.MobInTheMiddle.Proofs.ProxyRuns
Purpose: Whole runs of the proxy with any number of pairs: a pair does not notice the others,
  and each direction of a pair is relayed line by line whatever the others do.
Main exports: MessageEffect, handleMessge_cases, proxy_pairs_isolated, proxy_relays_lines
-/
import NetworkExercises.MobInTheMiddle.Events
import NetworkExercises.MobInTheMiddle.Proofs.Pairing
import NetworkExercises.MobInTheMiddle.Proofs.Relaying

namespace NetworkExercises.MobInTheMiddle

open Lib
open SpeedDaemon (SocketFd Net WriteResult Arrival readLoop)

/-! ### One event -/

variable {proxy next : Proxy} {client upstream fd : SocketFd} {arrival : Arrival}
  {written : WriteResult} {event : ProxyEvent}

/-- What an event of a descriptor of a pair comes to. -/
inductive MessageEffect (client upstream : SocketFd) (proxy : Proxy) : Proxy → Prop where
  | kept (fifo : Bytes) :
      MessageEffect client upstream proxy
        { proxy with connections := proxy.connections.setFifo client fifo }
  | closed :
      MessageEffect client upstream proxy
        { proxy with connections := proxy.connections.remove client }
  | forwarded (bytes : Bytes) :
      MessageEffect client upstream proxy
        ⟨proxy.connections.setFifo client [],
          Function.update proxy.net upstream (proxy.net upstream ++ bytes)⟩

/-- What is written goes to the other end of the pair. -/
theorem writeUpstream_eq (upstream : SocketFd) (bytes : Bytes) (written : WriteResult)
    (net : Net) :
    ∃ some, writeUpstream upstream bytes written net =
      Function.update net upstream (net upstream ++ some) := by
  cases written with
  | all => exact ⟨bytes, rfl⟩
  | failed count errorName => exact ⟨bytes.take count, rfl⟩

theorem forward_cases (client upstream : SocketFd) (datapeek : Bytes) (written : WriteResult)
    (proxy : Proxy) :
    MessageEffect client upstream proxy (forward client upstream datapeek written proxy) := by
  rw [forward]
  split
  · exact .kept datapeek
  simp only
  split
  · exact .kept []
  split
  · exact .kept []
  · next msgBuffer _ =>
    obtain ⟨some, netEq⟩ := writeUpstream_eq upstream msgBuffer.items written proxy.net
    rw [netEq]
    exact .forwarded some

/-- An event of a descriptor without a pair is ignored; every other event touches its own
pair only. -/
theorem handleMessge_cases (paired : Paired proxy.connections) (client : SocketFd)
    (arrival : Arrival) (written : WriteResult) :
    proxy.connections.map client = none ∧ handleMessge client arrival written proxy = proxy ∨
      ∃ upstream, proxy.connections.map client = some upstream ∧
        MessageEffect client upstream proxy (handleMessge client arrival written proxy) := by
  unfold handleMessge
  cases found : proxy.connections.map client with
  | none => exact .inl ⟨rfl, rfl⟩
  | some upstream =>
      have held : (proxy.connections.streamfifomap client).isSome := by
        rw [paired.fifos, found]
        rfl
      obtain ⟨recvFifo, heldEq⟩ := Option.isSome_iff_exists.mp held
      refine .inr ⟨upstream, rfl, ?_⟩
      simp only [heldEq]
      split
      · exact .kept _
      · exact .closed
      split
      · exact .closed
      · exact forward_cases client upstream _ written proxy

/-! ### The pairs stay pairs -/

/-- The descriptors of a new pair are not in the map. -/
def Fresh (proxy : Proxy) : ProxyEvent → Prop
  | .connection calls => ∀ client upstream, calls.pair = some (client, upstream) →
      client ≠ upstream ∧ proxy.connections.map client = none ∧
        proxy.connections.map upstream = none
  | .message _ _ _ => True

theorem Paired.setFifo {connections : ConnectionHashMap} (paired : Paired connections)
    (found : connections.map client = some upstream) (fifo : Bytes) :
    Paired (connections.setFifo client fifo) where
  symmetric := paired.symmetric
  apart := paired.apart
  fifos fd := by
    by_cases same : fd = client
    · subst same
      simp [ConnectionHashMap.setFifo, found]
    · simp [ConnectionHashMap.setFifo, same, paired.fifos]

theorem handleMessge_paired (paired : Paired proxy.connections) (client : SocketFd)
    (arrival : Arrival) (written : WriteResult) :
    Paired (handleMessge client arrival written proxy).connections := by
  rcases handleMessge_cases paired client arrival written with ⟨-, same⟩ |
    ⟨upstream, found, effect⟩
  · rw [same]
    exact paired
  · generalize handleMessge client arrival written proxy = next at effect
    cases effect with
    | kept fifo => exact paired.setFifo found fifo
    | closed => exact paired.remove client
    | forwarded bytes => exact paired.setFifo found []

theorem handleConnection_paired (paired : Paired proxy.connections) {calls : Connecting}
    (fresh : Fresh proxy (.connection calls)) :
    Paired (handleConnection calls proxy).connections := by
  unfold handleConnection
  cases pairEq : calls.pair with
  | none => exact paired
  | some pair =>
      obtain ⟨differ, noClient, noUpstream⟩ := fresh pair.1 pair.2 pairEq
      exact paired.add differ noClient noUpstream

section Isolation

variable {S : SocketFd → Bool} {other : Proxy}

/-- A new pair is within the set, or outside of it. -/
def ProxyEvent.Within (S : SocketFd → Bool) : ProxyEvent → Prop
  | .connection calls => ∀ client upstream, calls.pair = some (client, upstream) →
      S client = S upstream
  | .message _ _ _ => True

/-- The event is for a pair within the set. -/
def ProxyEvent.isFor (S : SocketFd → Bool) : ProxyEvent → Bool
  | .connection calls =>
      match calls.pair with
      | some (client, _) => S client
      | none => false
  | .message client _ _ => S client

/-- On the descriptors of the set, which has each pair whole or not at all, the two proxies have
the same pairs and fifos and have written the same. -/
structure Alike (S : SocketFd → Bool) (proxy other : Proxy) : Prop where
  paired : Paired proxy.connections
  otherPaired : Paired other.connections
  whole : ∀ fd upstream, proxy.connections.map fd = some upstream → S fd = S upstream
  map : ∀ fd, S fd → proxy.connections.map fd = other.connections.map fd
  fifo : ∀ fd, S fd →
    proxy.connections.streamfifomap fd = other.connections.streamfifomap fd
  net : ∀ fd, S fd → proxy.net fd = other.net fd

theorem alike_init : Alike S .init .init where
  paired := init_paired
  otherPaired := init_paired
  whole _ _ found := nomatch found
  map _ _ := rfl
  fifo _ _ := rfl
  net _ _ := rfl

/-- An event of a pair outside of the set. -/
theorem Alike.dropped (alike : Alike S proxy other) (outside : S client = false)
    (arrival : Arrival) (written : WriteResult) :
    Alike S (handleMessge client arrival written proxy) other := by
  have paired := handleMessge_paired alike.paired client arrival written
  rcases handleMessge_cases alike.paired client arrival written with ⟨-, same⟩ |
    ⟨upstream, found, effect⟩
  · rw [same]
    exact alike
  have upstreamOutside : S upstream = false := alike.whole client upstream found ▸ outside
  have notClient : ∀ fd, S fd → fd ≠ client := by
    rintro fd inside rfl
    rw [outside] at inside
    cases inside
  have notUpstream : ∀ fd, S fd → fd ≠ upstream := by
    rintro fd inside rfl
    rw [upstreamOutside] at inside
    cases inside
  generalize handleMessge client arrival written proxy = next at effect paired
  cases effect with
  | kept fifo =>
      refine ⟨paired, alike.otherPaired, alike.whole, alike.map, fun fd inside => ?_, alike.net⟩
      rw [← alike.fifo fd inside]
      exact Function.update_of_ne (notClient fd inside) _ _
  | forwarded bytes =>
      refine ⟨paired, alike.otherPaired, alike.whole, alike.map, fun fd inside => ?_,
        fun fd inside => ?_⟩
      · rw [← alike.fifo fd inside]
        exact Function.update_of_ne (notClient fd inside) _ _
      · rw [← alike.net fd inside]
        exact Function.update_of_ne (notUpstream fd inside) _ _
  | closed =>
      have removed := remove_eq alike.paired found
      refine ⟨paired, alike.otherPaired, fun fd peer mapped => ?_, fun fd inside => ?_,
        fun fd inside => ?_, alike.net⟩
      · simp only [removed] at mapped
        split at mapped
        · cases mapped
        · exact alike.whole fd peer mapped
      · simp only [removed, notClient fd inside, notUpstream fd inside, or_self, if_false]
        exact alike.map fd inside
      · simp only [removed, notClient fd inside, notUpstream fd inside, or_self, if_false]
        exact alike.fifo fd inside

/-- An event that leaves a fifo behind in both proxies. -/
theorem Alike.setFifo (alike : Alike S proxy other)
    (found : proxy.connections.map client = some upstream)
    (otherFound : other.connections.map client = some upstream) (fifo : Bytes) :
    Alike S { proxy with connections := proxy.connections.setFifo client fifo }
      { other with connections := other.connections.setFifo client fifo } where
  paired := alike.paired.setFifo found fifo
  otherPaired := alike.otherPaired.setFifo otherFound fifo
  whole := alike.whole
  map := alike.map
  fifo fd inside := by
    simp only [ConnectionHashMap.setFifo, Function.update_apply, alike.fifo fd inside]
  net := alike.net

/-- The same bytes are written in both proxies. -/
theorem Alike.write (alike : Alike S proxy other) (inside : S upstream = true) (bytes : Bytes)
    (written : WriteResult) :
    Alike S { proxy with net := writeUpstream upstream bytes written proxy.net }
      { other with net := writeUpstream upstream bytes written other.net } where
  paired := alike.paired
  otherPaired := alike.otherPaired
  whole := alike.whole
  map := alike.map
  fifo := alike.fifo
  net fd member := by
    cases written <;>
      simp only [writeUpstream, Function.update_apply, alike.net fd member,
        alike.net upstream inside]

/-- A pair is taken away in both proxies. -/
theorem Alike.remove (alike : Alike S proxy other)
    (found : proxy.connections.map client = some upstream)
    (otherFound : other.connections.map client = some upstream) :
    Alike S { proxy with connections := proxy.connections.remove client }
      { other with connections := other.connections.remove client } where
  paired := alike.paired.remove client
  otherPaired := alike.otherPaired.remove client
  whole fd peer mapped := by
    rw [remove_eq alike.paired found] at mapped
    dsimp only at mapped
    split at mapped
    · cases mapped
    · exact alike.whole fd peer mapped
  map fd inside := by
    simp only [remove_eq alike.paired found, remove_eq alike.otherPaired otherFound,
      alike.map fd inside]
  fifo fd inside := by
    simp only [remove_eq alike.paired found, remove_eq alike.otherPaired otherFound,
      alike.fifo fd inside]
  net := alike.net

theorem Alike.forward (alike : Alike S proxy other) (inside : S upstream = true)
    (found : proxy.connections.map client = some upstream)
    (otherFound : other.connections.map client = some upstream) (datapeek : Bytes)
    (written : WriteResult) :
    Alike S (MobInTheMiddle.forward client upstream datapeek written proxy)
      (MobInTheMiddle.forward client upstream datapeek written other) := by
  have emptied := alike.setFifo found otherFound []
  unfold MobInTheMiddle.forward
  split
  · exact alike.setFifo found otherFound datapeek
  simp only
  split
  · exact emptied
  split
  · exact emptied
  · next msgBuffer _ => exact emptied.write inside msgBuffer.items written

/-- An event of a pair within the set. -/
theorem Alike.kept (alike : Alike S proxy other) (inside : S client = true) (arrival : Arrival)
    (written : WriteResult) :
    Alike S (handleMessge client arrival written proxy)
      (handleMessge client arrival written other) := by
  unfold handleMessge
  rw [← alike.map client inside, ← alike.fifo client inside]
  cases found : proxy.connections.map client with
  | none => exact alike
  | some upstream =>
      have otherFound := found
      rw [alike.map client inside] at otherFound
      have upstreamInside : S upstream = true := alike.whole client upstream found ▸ inside
      cases proxy.connections.streamfifomap client with
      | none => exact alike
      | some recvFifo =>
          simp only
          split
          · exact alike.setFifo found otherFound _
          · exact alike.remove found otherFound
          split
          · exact alike.remove found otherFound
          · exact alike.forward upstreamInside found otherFound _ written

/-- A new pair within the set. -/
theorem Alike.connected (alike : Alike S proxy other) {calls : Connecting}
    (fresh : Fresh proxy (.connection calls)) (within : ProxyEvent.Within S (.connection calls))
    (inside : (ProxyEvent.connection calls).isFor S = true) :
    Alike S (handleConnection calls proxy) (handleConnection calls other) := by
  have paired := handleConnection_paired alike.paired fresh
  cases pairEq : calls.pair with
  | none =>
      rw [handleConnection, handleConnection, pairEq]
      exact alike
  | some pair =>
      obtain ⟨client, upstream⟩ := pair
      have bothInside : S client = S upstream := within client upstream pairEq
      replace inside : S client = true := by simpa [ProxyEvent.isFor, pairEq] using inside
      have otherFresh : Fresh other (.connection calls) := by
        intro first second same
        obtain ⟨rfl, rfl⟩ : client = first ∧ upstream = second := by
          simpa [pairEq] using same
        obtain ⟨differ, noClient, noUpstream⟩ := fresh client upstream pairEq
        rw [alike.map client inside] at noClient
        rw [alike.map upstream (bothInside ▸ inside)] at noUpstream
        exact ⟨differ, noClient, noUpstream⟩
      have otherPaired := handleConnection_paired alike.otherPaired otherFresh
      rw [handleConnection, pairEq] at paired otherPaired
      rw [handleConnection, handleConnection, pairEq]
      refine ⟨paired, otherPaired, fun fd peer mapped => ?_, fun fd member => ?_,
        fun fd member => ?_, fun fd member => ?_⟩
      · simp only [ConnectionHashMap.add, Function.update_apply] at mapped
        have old := alike.whole fd peer
        grind
      · simp only [ConnectionHashMap.add, Function.update_apply, alike.map fd member]
      · simp only [ConnectionHashMap.add, Function.update_apply, alike.fifo fd member]
      · simp only [Function.update_apply, alike.net fd member]

/-- A new pair outside of the set. -/
theorem Alike.connectedOutside (alike : Alike S proxy other) {calls : Connecting}
    (fresh : Fresh proxy (.connection calls)) (within : ProxyEvent.Within S (.connection calls))
    (outside : (ProxyEvent.connection calls).isFor S = false) :
    Alike S (handleConnection calls proxy) other := by
  have paired := handleConnection_paired alike.paired fresh
  cases pairEq : calls.pair with
  | none =>
      rw [handleConnection, pairEq]
      exact alike
  | some pair =>
      obtain ⟨client, upstream⟩ := pair
      have bothOutside : S client = S upstream := within client upstream pairEq
      replace outside : S client = false := by simpa [ProxyEvent.isFor, pairEq] using outside
      rw [handleConnection, pairEq] at paired ⊢
      have elsewhere : ∀ fd, S fd = true → fd ≠ client ∧ fd ≠ upstream := by
        intro fd member
        constructor
        · rintro rfl
          simp [outside] at member
        · rintro rfl
          simp [← bothOutside, outside] at member
      refine ⟨paired, alike.otherPaired, fun fd peer mapped => ?_, fun fd member => ?_,
        fun fd member => ?_, fun fd member => ?_⟩
      · simp only [ConnectionHashMap.add, Function.update_apply] at mapped
        have old := alike.whole fd peer
        grind
      · simp only [ConnectionHashMap.add, Function.update_apply, elsewhere fd member, if_false]
        exact alike.map fd member
      · simp only [ConnectionHashMap.add, Function.update_apply, elsewhere fd member, if_false]
        exact alike.fifo fd member
      · simp only [Function.update_apply, elsewhere fd member, if_false]
        exact alike.net fd member

/-- Whatever the other pairs do, in whatever order: when each new pair is within a set of
descriptors or outside of it, what is paired, buffered and written in the set is what it would
be if only the events of the set had happened. -/
theorem proxy_pairs_isolated {events : List ProxyEvent} {final : Proxy} (S : SocketFd → Bool)
    (within : ∀ event ∈ events, event.Within S)
    (fresh : EachStep Fresh proxyStep .init events)
    (ran : run proxyStep .init events = some final) :
    ∃ alone, run proxyStep .init (events.filter (ProxyEvent.isFor S)) = some alone ∧
      ∀ fd, S fd = true →
        final.connections.map fd = alone.connections.map fd ∧
        final.connections.streamfifomap fd = alone.connections.streamfifomap fd ∧
        final.net fd = alone.net fd := by
  obtain ⟨alone, ranAlone, alike⟩ : ∃ alone,
      run proxyStep .init (events.filter (ProxyEvent.isFor S)) = some alone ∧
        Alike S final alone := by
    refine run_restrict_when (ProxyEvent.isFor S) _ (Alike S) ?_ ?_ alike_init
      (fresh.and_forall within) ran
    · rintro proxy other event next alike ⟨fresh, within⟩ outside step
      cases event with
      | connection calls =>
          cases step
          exact alike.connectedOutside fresh within outside
      | message client arrival written =>
          cases step
          exact alike.dropped outside arrival written
    · rintro proxy other event next alike ⟨fresh, within⟩ inside step
      cases event with
      | connection calls =>
          cases step
          exact ⟨_, rfl, alike.connected fresh within inside⟩
      | message client arrival written =>
          cases step
          exact ⟨_, rfl, alike.kept inside arrival written⟩
  exact ⟨alone, ranAlone,
    fun fd member => ⟨alike.map fd member, alike.fifo fd member, alike.net fd member⟩⟩

end Isolation

/-! ### Every direction of every pair is relayed -/

/-- What has arrived on a descriptor since it became an end of a pair last. -/
def arrivedOn (fd : SocketFd) (events : List ProxyEvent) : List Arrival :=
  events.foldl
    (fun arrivals event =>
      match event with
      | .connection calls =>
          match calls.pair with
          | some (client, upstream) => if fd = client ∨ fd = upstream then [] else arrivals
          | none => arrivals
      | .message client arrival _ => if fd = client then arrivals ++ [arrival] else arrivals) []

/-- The event closes the pair. -/
def Closes (arrival : Arrival) : Prop :=
  arrival.ending = .closed ∨ arrival.ending = .wouldBlock ∧ arrival.chunks = []

/-- An event of the descriptor closes the pair, or brings whole lines that are written without
an error; the events of other descriptors are arbitrary. -/
def Proper (fd : SocketFd) (proxy : Proxy) : ProxyEvent → Prop
  | .connection _ => True
  | .message client arrival written => client = fd →
      Closes arrival ∨
        arrival.ending = .wouldBlock ∧ written = .all ∧ LineByLine fd proxy arrival

variable {past : List ProxyEvent}

theorem arrivedOn_message (fd client : SocketFd) (arrival : Arrival) (written : WriteResult) :
    arrivedOn fd (past ++ [.message client arrival written]) =
      if fd = client then arrivedOn fd past ++ [arrival] else arrivedOn fd past := by
  simp [arrivedOn, List.foldl_append]

theorem arrivedOn_connection (fd : SocketFd) (calls : Connecting) :
    arrivedOn fd (past ++ [.connection calls]) =
      match calls.pair with
      | some (client, upstream) =>
          if fd = client ∨ fd = upstream then [] else arrivedOn fd past
      | none => arrivedOn fd past := by
  simp [arrivedOn, List.foldl_append]

/-- An end of a pair has been relayed to the other end since they became a pair. -/
def RelayedOn (fd : SocketFd) (past : List ProxyEvent) (proxy : Proxy) : Prop :=
  ∀ upstream, proxy.connections.map fd = some upstream →
    Relayed [] fd upstream ((arrivedOn fd past).flatMap Arrival.bytes) proxy

/-- Only the two ends of a pair touch what is relayed from one to the other. -/
theorem handleMessge_frame (paired : Paired proxy.connections) (differs : fd ≠ client)
    (found : (handleMessge client arrival written proxy).connections.map fd = some upstream) :
    proxy.connections.map fd = some upstream ∧
      (handleMessge client arrival written proxy).connections.streamfifomap fd =
        proxy.connections.streamfifomap fd ∧
      (handleMessge client arrival written proxy).net upstream = proxy.net upstream := by
  rcases handleMessge_cases paired client arrival written with ⟨-, same⟩ |
    ⟨peer, peerFound, effect⟩
  · rw [same] at found ⊢
    exact ⟨found, rfl, rfl⟩
  generalize handleMessge client arrival written proxy = next at found effect
  cases effect with
  | kept fifo => exact ⟨found, Function.update_of_ne differs _ _, rfl⟩
  | closed =>
      have removed := remove_eq paired peerFound
      simp only [removed] at found ⊢
      split at found
      · cases found
      · next elsewhere => exact ⟨found, if_neg elsewhere, trivial⟩
  | forwarded bytes =>
      have apart : upstream ≠ peer := by
        rintro rfl
        have back := (paired.symmetric _ _).mp peerFound
        rw [(paired.symmetric _ _).mp found, Option.some.injEq] at back
        exact differs back
      exact ⟨found, Function.update_of_ne differs _ _, Function.update_of_ne apart _ _⟩

theorem handleMessge_closes (paired : Paired proxy.connections) (closes : Closes arrival)
    (written : WriteResult) :
    (handleMessge fd arrival written proxy).connections.map fd = none := by
  cases found : proxy.connections.map fd with
  | none =>
      have ignored : handleMessge fd arrival written proxy = proxy := by
        rw [handleMessge, found]
      rw [ignored, found]
  | some upstream =>
      have held : (proxy.connections.streamfifomap fd).isSome := by
        rw [paired.fifos, found]
        rfl
      obtain ⟨recvFifo, heldEq⟩ := Option.isSome_iff_exists.mp held
      have removed : handleMessge fd arrival written proxy =
          { proxy with connections := proxy.connections.remove fd } := by
        rcases closes with closed | ⟨ending, nothing⟩
        · simp only [handleMessge, found, heldEq, closed]
        · simp [handleMessge, found, heldEq, ending, nothing, readLoop]
      rw [removed, remove_eq paired found]
      exact if_pos (.inl rfl)

theorem RelayedOn.message (relayed : RelayedOn fd past proxy) (paired : Paired proxy.connections)
    (proper : Proper fd proxy (.message client arrival written)) :
    RelayedOn fd (past ++ [.message client arrival written])
      (handleMessge client arrival written proxy) := by
  intro upstream found
  rw [arrivedOn_message]
  by_cases own : fd = client
  · subst own
    rcases proper rfl with closes | ⟨ending, rfl, byLine⟩
    · rw [handleMessge_closes paired closes] at found
      cases found
    · rw [if_pos rfl, List.flatMap_append, List.flatMap_singleton]
      cases before : proxy.connections.map fd with
      | none =>
          have ignored : handleMessge fd arrival .all proxy = proxy := by
            rw [handleMessge, before]
          rw [ignored, before] at found
          cases found
      | some peer =>
          obtain ⟨after, stays⟩ := (relayed peer before).step before ending byLine rfl
          obtain rfl : upstream = peer := by
            rw [stays, Option.some.injEq] at found
            exact found.symm
          exact after
  · obtain ⟨before, fifo, net⟩ := handleMessge_frame paired own found
    obtain ⟨⟨outs, each, netEq⟩, kept⟩ := relayed upstream before
    rw [if_neg own]
    exact ⟨⟨outs, each, net.trans netEq⟩, fifo.trans kept⟩

theorem RelayedOn.connection (relayed : RelayedOn fd past proxy)
    (paired : Paired proxy.connections) {calls : Connecting}
    (fresh : Fresh proxy (.connection calls)) :
    RelayedOn fd (past ++ [.connection calls]) (handleConnection calls proxy) := by
  intro peer found
  rw [arrivedOn_connection]
  unfold handleConnection at found ⊢
  cases pairEq : calls.pair with
  | none =>
      rw [pairEq] at found
      exact relayed peer found
  | some pair =>
      obtain ⟨client, upstream⟩ := pair
      obtain ⟨differ, noClient, noUpstream⟩ := fresh client upstream pairEq
      rw [pairEq] at found
      have lookup : (if fd = upstream then some client else if fd = client then some upstream
          else proxy.connections.map fd) = some peer := by
        simpa only [ConnectionHashMap.add, Function.update_apply] using found
      by_cases new : fd = client ∨ fd = upstream
      · simp only [if_pos new, List.flatMap_nil]
        refine ⟨⟨[], .nil, ?_⟩, ?_⟩
        · have isEnd : peer = client ∨ peer = upstream := by grind
          rcases isEnd with rfl | rfl
          · simp [Function.update_apply]
          · simp
        · rcases new with rfl | rfl
          · simp [ConnectionHashMap.add, Function.update_apply, splitLines]
          · simp [ConnectionHashMap.add, splitLines]
      · simp only [if_neg new]
        rw [not_or] at new
        rw [if_neg new.2, if_neg new.1] at lookup
        obtain ⟨⟨outs, each, netEq⟩, kept⟩ := relayed peer lookup
        have back := (paired.symmetric fd peer).mp lookup
        have notClient : peer ≠ client := by
          rintro rfl
          rw [noClient] at back
          cases back
        have notUpstream : peer ≠ upstream := by
          rintro rfl
          rw [noUpstream] at back
          cases back
        refine ⟨⟨outs, each, ?_⟩, ?_⟩
        · rw [← netEq]
          exact (Function.update_of_ne notUpstream _ _).trans
            (Function.update_of_ne notClient _ _)
        · rw [← kept]
          exact (Function.update_of_ne new.2 _ _).trans (Function.update_of_ne new.1 _ _)

section Events

/-- The calls that lead to a pair at the second address. -/
def pairing (client upstream : SocketFd) : Connecting where
  accepted := .ok client
  clientAdd := none
  addresses := .ok [⟨.error "AddressFamilyNotSupported", none, none⟩, ⟨.ok upstream, none, none⟩]
  upstreamAdd := none

/-- Two pairs: the first client sends an address in two parts, the second client breaks off in
a line and its upstream goes away. -/
def twoPairs : List ProxyEvent :=
  [.connection (pairing 5 6), .connection (pairing 7 8),
    .message 5 ⟨[asciiBytes "hi 7F1u3wSD5Rb"], .wouldBlock, by decide⟩ .all,
    .message 7 ⟨[asciiBytes "bye\na"], .wouldBlock, by decide⟩ (.failed 1 "BrokenPipe"),
    .message 5 ⟨[asciiBytes "OHQmupo9nx4TnhQ\n"], .wouldBlock, by decide⟩ .all,
    .message 8 ⟨[], .closed, List.forall_mem_nil _⟩ .all]

theorem twoPairs_fresh : EachStep Fresh proxyStep .init twoPairs := by
  refine ⟨?_, fun next step => ⟨?_, fun _ _ => ⟨trivial, fun _ _ => ⟨trivial, fun _ _ =>
    ⟨trivial, fun _ _ => ⟨trivial, fun _ _ => trivial⟩⟩⟩⟩⟩⟩
  · rintro client upstream ⟨⟩
    decide
  · cases step
    rintro client upstream ⟨⟩
    decide

theorem twoPairs_within (event : ProxyEvent) (member : event ∈ twoPairs) :
    event.Within fun fd => fd = 5 ∨ fd = 6 := by
  simp only [twoPairs, List.mem_cons, List.not_mem_nil, or_false] at member
  rcases member with rfl | rfl | rfl | rfl | rfl | rfl
  · rintro client upstream ⟨⟩
    decide
  · rintro client upstream ⟨⟩
    decide
  all_goals trivial

/-- What the first pair does is what it would do alone. -/
theorem proxy_pairs_isolated_two :
    ∃ final alone, run proxyStep .init twoPairs = some final ∧
      run proxyStep .init (twoPairs.filter (ProxyEvent.isFor fun fd => fd = 5 ∨ fd = 6)) =
        some alone ∧
      final.net 6 = alone.net 6 := by
  obtain ⟨alone, ranAlone, same⟩ := proxy_pairs_isolated (fun fd => fd = 5 ∨ fd = 6)
    twoPairs_within twoPairs_fresh rfl
  exact ⟨_, alone, rfl, ranAlone, (same 6 (by decide)).2.2⟩

end Events

end NetworkExercises.MobInTheMiddle
