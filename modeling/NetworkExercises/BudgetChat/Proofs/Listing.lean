/-
Module: NetworkExercises.BudgetChat.Proofs.Listing
Purpose: The message buffer of a handler against the list of the members' names.
Main exports: listingText, roomListing_eq, joinRoom_isSome, listing_unreachable_iff,
  listing_fits, arrivals_join, crowd_unreachable
-/
import NetworkExercises.BudgetChat.Proofs.Members

namespace NetworkExercises.BudgetChat.Zig

open Lib
open SpeedDaemon (SocketFd WriteResult)

variable {room : Room} {fd : SocketFd} {handler : Handler} {msg : Bytes} {writes : Writes}

/-! ### The listing -/

/-- `"* The room contains: "`, the names with `", "` between them, and `"\n"`. -/
def listingText (usernames : List Bytes) : Bytes :=
  ascii "* The room contains: " ++ (ascii ", ").intercalate usernames ++ ascii "\n"

/-- Behind the first name, each name follows a comma. -/
theorem listingLoop_true (buffer : MsgBuffer) (usernames : List Bytes) :
    listingLoop true buffer usernames =
      buffer.appendSlice (usernames.flatMap fun username => ascii ", " ++ username) := by
  induction usernames generalizing buffer with
  | nil => rw [listingLoop, List.flatMap_nil, BoundedArray.appendSlice_nil]
  | cons username usernames ih =>
      rw [listingLoop, List.flatMap_cons, BoundedArray.appendSlice_append,
        BoundedArray.appendSlice_append]
      simp only [if_true, ih, Option.bind_eq_bind, Option.bind_assoc]

theorem intercalate_cons {α : Type} (separator first : List α) (others : List (List α)) :
    separator.intercalate (first :: others) =
      first ++ others.flatMap fun other => separator ++ other := by
  induction others generalizing first with
  | nil => simp
  | cons second others ih =>
      rw [List.intercalate_cons_cons, ih, List.flatMap_cons, List.append_assoc, List.append_assoc]

/-- The loop adds the names, with commas between them. -/
theorem listingLoop_false (buffer : MsgBuffer) (usernames : List Bytes) :
    listingLoop false buffer usernames =
      buffer.appendSlice ((ascii ", ").intercalate usernames) := by
  cases usernames with
  | nil => rw [listingLoop, List.intercalate_nil, BoundedArray.appendSlice_nil]
  | cons username usernames =>
      rw [listingLoop, intercalate_cons, BoundedArray.appendSlice_append]
      simp [listingLoop_true]

/-- The listing is the text, when it fits. -/
theorem roomListing_eq (usernames : List Bytes) :
    roomListing usernames = BoundedArray.clear.appendSlice (listingText usernames) := by
  rw [roomListing, listingText, BoundedArray.appendSlice_append, BoundedArray.appendSlice_append]
  simp only [listingLoop_false, Option.bind_eq_bind, Option.bind_assoc]

theorem roomListing_eq_none {usernames : List Bytes} :
    roomListing usernames = none ↔ 1024 < (listingText usernames).length := by
  rw [roomListing_eq, BoundedArray.appendSlice_eq_none, BoundedArray.clear_items, List.nil_append]

theorem intercalate_length {α : Type} (separator : List α) (items : List (List α)) :
    (separator.intercalate items).length =
      (items.map List.length).sum + separator.length * (items.length - 1) := by
  cases items with
  | nil => rfl
  | cons first others =>
      have behind : (others.flatMap fun other => separator ++ other).length =
          (others.map List.length).sum + separator.length * others.length := by
        induction others with
        | nil => rfl
        | cons other others ih =>
            rw [List.flatMap_cons, List.length_append, ih, List.length_append, List.map_cons,
              List.sum_cons, List.length_cons]
            ring
      rw [intercalate_cons, List.length_append, behind, List.map_cons, List.sum_cons,
        List.length_cons, Nat.add_sub_cancel, Nat.add_assoc]

theorem listingText_length (usernames : List Bytes) :
    (listingText usernames).length =
      22 + (usernames.map List.length).sum + 2 * (usernames.length - 1) := by
  have before : (ascii "* The room contains: ").length = 21 := by decide +kernel
  have between : (ascii ", ").length = 2 := by decide +kernel
  have behind : (ascii "\n").length = 1 := by decide +kernel
  rw [listingText, List.length_append, List.length_append, intercalate_length, before, between,
    behind]
  omega

/-! ### A newcomer -/

/-- The turn of a newcomer with a message comes to an end unless it reaches the listing, and the
listing is too long. -/
theorem joinRoom_isSome (new : handler.client = Client.init fd) :
    (joinRoom room fd handler msg writes).isSome = true ↔
      (Client.isValidUsername msg = true → msg ∉ room.clients.keys →
        (listingText room.clients.keys).length ≤ 1024) := by
  rw [joinRoom, new]
  cases valid : Client.isValidUsername msg with
  | false => simp [validateUsername_invalid fd valid]
  | true =>
      rw [validateUsername_init fd valid]
      dsimp only
      have name : (named fd msg (isValidUsername_length valid)).name = msg := rfl
      rw [Clients.exists_, name]
      by_cases present : msg ∈ room.clients.keys
      · rw [if_pos (ArrayMap.contains_iff.mpr present)]
        simp [present]
      · rw [if_neg (mt ArrayMap.contains_iff.mp present), Clients.getUsernames]
        cases listed : roomListing room.clients.keys with
        | none =>
            have long := roomListing_eq_none.mp listed
            simp [present, long]
        | some listing =>
            have short : (listingText room.clients.keys).length ≤ 1024 := by
              rw [← Nat.not_lt, ← roomListing_eq_none, listed]
              exact Option.some_ne_none _
            refine iff_of_true ?_ fun _ _ => short
            dsimp only
            split
            · rfl
            · split
              · rfl
              · split
                · rfl
                · split <;> rfl

/-- A newcomer brings the handler of its connection to `unreachable` exactly with a valid name that
is free in a room whose listing is longer than the message buffer; the notices always fit. -/
theorem listing_unreachable_iff (room : Room) (fd : SocketFd) (handler : Handler)
    (new : handler.client = Client.init fd) (msg : Bytes) (writes : Writes) :
    ((joinRoom room fd handler msg writes).isSome = true ∧
      ∀ username, Client.isValidUsername username = true →
        (format .clear (enteredPieces username)).2 = true ∧
        (format .clear (leftPieces username)).2 = true) ↔
      (Client.isValidUsername msg = true → msg ∉ room.clients.keys →
        22 + (room.clients.keys.map List.length).sum + 2 * (room.clients.keys.length - 1) ≤
          1024) := by
  rw [joinRoom_isSome new, listingText_length]
  refine and_iff_left fun username valid => ?_
  obtain ⟨entered, formats, -⟩ := format_entered valid
  obtain ⟨left, formatsToo, -⟩ := format_left (isValidUsername_length valid)
  rw [formats, formatsToo]
  exact ⟨rfl, rfl⟩

theorem listing_unreachable_iff_first :
    (joinRoom .init 5 ⟨.init 5, [], []⟩ [97] allWritten).isSome = true ∧
      ∀ username, Client.isValidUsername username = true →
        (format .clear (enteredPieces username)).2 = true ∧
        (format .clear (leftPieces username)).2 = true :=
  (listing_unreachable_iff .init 5 ⟨.init 5, [], []⟩ rfl [97] allWritten).mpr fun _ _ => by decide

/-! ### A crowd -/

/-- The listing of at most 29 names of at most 32 bytes fits. -/
theorem listing_fits {usernames : List Bytes} (few : usernames.length ≤ 29)
    (short : ∀ username ∈ usernames, username.length ≤ 32) :
    (listingText usernames).length ≤ 1024 := by
  have total : (usernames.map List.length).sum ≤ usernames.length * 32 := by
    have each : ∀ length ∈ usernames.map List.length, length ≤ 32 := by simpa using short
    simpa using List.sum_le_card_nsmul _ 32 each
  rw [listingText_length]
  omega

/-- A newcomer joins a room of at most 29 members under a valid name that is free. -/
theorem joinRoom_joins (new : handler.client = Client.init fd)
    (valid : Client.isValidUsername msg = true) (absent : msg ∉ room.clients.keys)
    (fits : (listingText room.clients.keys).length ≤ 1024) (succeeds : Succeeds writes) :
    ∃ next, joinRoom room fd handler msg writes = some next ∧
      next.clients.keys = room.clients.keys ++ [msg] ∧
      ∃ after, next.handlers = Function.update room.handlers fd after := by
  obtain ⟨next, ran⟩ := Option.isSome_iff_exists.mp
    ((@joinRoom_isSome room fd handler msg writes new).mpr fun _ _ => fits)
  refine ⟨next, ran, ?_⟩
  cases joinRoom_cases new ran with
  | invalid bad => exact absurd (valid.symm.trans bad) Bool.false_ne_true.symm
  | taken _ present => exact absurd present absent
  | failed _ _ fails => exact absurd succeeds fails
  | joined _ _ listing made sent nextEq =>
      rw [nextEq]
      exact ⟨ArrayMap.keys_put_new absent, _, rfl⟩

/-- A client connects and sends its name. -/
def arrival (fd : SocketFd) (name : Bytes) : List Event :=
  [.connect fd allWritten, .read fd (.ok (name ++ [needle])) allWritten]

theorem arrival_joins (free : room.handlers fd = none)
    (valid : Client.isValidUsername msg = true) (absent : msg ∉ room.clients.keys)
    (fits : (listingText room.clients.keys).length ≤ 1024) :
    ∃ next, run chatStep room (arrival fd msg) = some next ∧
      next.clients.keys = room.clients.keys ++ [msg] ∧
      ∀ other, other ≠ fd → next.handlers other = room.handlers other := by
  have succeeds : Succeeds allWritten := fun _ _ => rfl
  let connected := (room.log fd [⟨fd, welcome, .all⟩]).setHandler fd (some ⟨.init fd, [], []⟩)
  have connects : chatStep room (.connect fd allWritten) = some connected := by
    simp only [chatStep, free, tell, writeAll_succeeds succeeds]
    rfl
  let handler : Handler := ⟨.init fd, msg ++ [needle], msg ++ [needle]⟩
  have marked : lastIndexOf needle (msg ++ [needle]) = some msg.length :=
    lastIndexOf_mark msg List.not_mem_nil
  have reads : chatStep connected (.read fd (.ok (msg ++ [needle])) allWritten) =
      joinRoom connected fd handler msg allWritten := by
    have runs : connected.handlers fd = some ⟨.init fd, [], []⟩ := Function.update_self _ _ _
    have something : (msg ++ [needle]).length ≠ 0 := by simp
    simp only [chatStep, runs, if_neg something, readTurn, List.nil_append, marked,
      List.take_left' rfl]
    rfl
  obtain ⟨next, joins, keys, after, handlers⟩ :=
    @joinRoom_joins connected fd handler msg allWritten rfl valid absent fits succeeds
  refine ⟨next, ?_, keys, fun other ne => ?_⟩
  · rw [arrival, run, connects, Option.bind_eq_bind, Option.bind_some, run, reads, joins]
    rfl
  · rw [handlers, Function.update_of_ne ne]
    exact Function.update_of_ne ne _ _

/-- Clients arrive, with descriptors from `fd` on. -/
def arrivals (fd : SocketFd) : List Bytes → List Event
  | [] => []
  | name :: names => arrival fd name ++ arrivals (fd + 1) names

/-- Any 30 different valid names are those of a room. -/
theorem arrivals_join {names : List Bytes}
    (free : ∀ other, fd ≤ other → room.handlers other = none)
    (few : room.clients.keys.length + names.length ≤ 30)
    (short : ∀ name ∈ room.clients.keys, name.length ≤ 32)
    (valid : ∀ name ∈ names, Client.isValidUsername name = true)
    (distinct : (room.clients.keys ++ names).Nodup) :
    ∃ next, run chatStep room (arrivals fd names) = some next ∧
      next.clients.keys = room.clients.keys ++ names := by
  induction names generalizing room fd with
  | nil => exact ⟨room, rfl, (List.append_nil _).symm⟩
  | cons name names ih =>
      obtain ⟨nameValid, othersValid⟩ := List.forall_mem_cons.mp valid
      rw [List.length_cons] at few
      have absent : name ∉ room.clients.keys := fun member =>
        (List.nodup_append.mp distinct).2.2 name member name List.mem_cons_self rfl
      obtain ⟨next, joins, keys, handlers⟩ := arrival_joins (free fd (le_refl fd)) nameValid absent
        (listing_fits (by omega) short)
      have names_eq : next.clients.keys ++ names = room.clients.keys ++ name :: names := by
        rw [keys, List.append_assoc, List.singleton_append]
      obtain ⟨final, others, finalKeys⟩ := @ih next (fd + 1)
        (fun other above => by
          rw [handlers other (Nat.ne_of_gt (Nat.lt_of_succ_le above))]
          exact free other (Nat.le_of_succ_le above))
        (by rw [keys, List.length_append, List.length_singleton]; omega)
        (by
          rw [keys]
          intro other member
          rcases List.mem_append.mp member with member | member
          · exact short other member
          · rw [List.mem_singleton.mp member]
            exact isValidUsername_length nameValid)
        othersValid (names_eq ▸ distinct)
      exact ⟨final, by rw [arrivals, run_append, joins]; exact others, finalKeys.trans names_eq⟩

/-- Names of 32 bytes that differ in the last one. -/
def longNames : List Bytes :=
  (ascii "ABCDEFGHIJKLMNOPQRSTUVWXYZabcd").map fun letter => List.replicate 31 97 ++ [letter]

/-- With 30 members under such names, the next client brings its handler to `unreachable`. -/
theorem crowd_unreachable :
    ∃ room, run chatStep .init (arrivals 5 longNames) = some room ∧
      (∀ name ∈ room.clients.keys, Client.isValidUsername name = true) ∧
      joinRoom room 35 ⟨.init 35, [], []⟩ (ascii "z") allWritten = none := by
  have valid : ∀ name ∈ longNames, Client.isValidUsername name = true := by decide +kernel
  have distinct : longNames.Nodup := by
    apply List.Nodup.map ?_ (by decide +kernel)
    intro letter other same
    exact (List.cons.inj (List.append_cancel_left same)).1
  obtain ⟨room, ran, keys⟩ := @arrivals_join .init 5 longNames (fun _ _ => rfl)
    (by decide +kernel) (List.forall_mem_nil _) valid distinct
  have keys : room.clients.keys = longNames := keys
  refine ⟨room, ran, keys ▸ valid, ?_⟩
  rw [← Option.not_isSome_iff_eq_none, joinRoom_isSome rfl, keys, listingText_length]
  intro ends
  have fits := ends (by decide +kernel) (by decide +kernel)
  exact absurd fits (by decide +kernel)

end NetworkExercises.BudgetChat.Zig
