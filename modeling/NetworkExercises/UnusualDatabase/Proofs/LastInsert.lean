/-
Module: NetworkExercises.UnusualDatabase.Proofs.LastInsert
Purpose: After any datagrams a key is answered with the value of its last insert, although
  empty keys and values are stored under a stand-in.
Main exports: IsInsert, LastInsert, Reflects, answers_last_insert
-/
import NetworkExercises.Lib.Lines
import NetworkExercises.Lib.Run
import NetworkExercises.UnusualDatabase.Database

namespace NetworkExercises.UnusualDatabase

open Lib

/-! ### What the datagrams so far mean -/

/-- The datagram inserts the value under the key, which ends at the first `=`. -/
def IsInsert (datagram key value : Bytes) : Prop :=
  datagram = key ++ equals :: value ∧ equals ∉ key

/-- The value of the last insert under the key. -/
def LastInsert (past : List Bytes) (key value : Bytes) : Prop :=
  ∃ front datagram back, past = front ++ datagram :: back ∧ IsInsert datagram key value ∧
    ∀ later ∈ back, ∀ other, ¬ IsInsert later key other

variable {past : List Bytes} {datagram request key other value bytes : Bytes} {db : Database}

theorem IsInsert.unique (first : IsInsert datagram key value)
    {key' value' : Bytes} (second : IsInsert datagram key' value') :
    key = key' ∧ value = value' := by
  obtain ⟨rfl, unmarked⟩ := first
  obtain ⟨same, unmarked'⟩ := second
  have lengths : key.length = key'.length := by
    have found := findIdx?_mark unmarked value
    rw [same, findIdx?_mark unmarked', Option.some.injEq] at found
    exact found.symm
  obtain ⟨keys, values⟩ := List.append_inj same lengths
  exact ⟨keys, (List.cons.inj values).2⟩

theorem lastInsert_nil : ¬ LastInsert [] key value := by
  rintro ⟨front, datagram, back, nothing, -⟩
  simp at nothing

/-- The last insert is the last datagram, or it is among those before, and the last datagram is no
insert under the key. -/
theorem lastInsert_append_iff :
    LastInsert (past ++ [datagram]) key value ↔
      IsInsert datagram key value ∨
        LastInsert past key value ∧ ∀ other, ¬ IsInsert datagram key other := by
  constructor
  · rintro ⟨front, last, back, whole, isLast, none⟩
    cases back using List.reverseRecOn with
    | nil =>
        obtain ⟨-, same⟩ := List.append_inj' whole rfl
        cases same
        exact .inl isLast
    | append_singleton back final =>
        rw [← List.cons_append, ← List.append_assoc] at whole
        obtain ⟨same, isFinal⟩ := List.append_inj' whole rfl
        cases isFinal
        refine .inr ⟨⟨front, last, back, same, isLast, ?_⟩, none _ (by simp)⟩
        exact fun later member => none later (by simp [member])
  · rintro (inserts | ⟨⟨front, last, back, rfl, isLast, none⟩, noInsert⟩)
    · exact ⟨past, datagram, [], rfl, inserts, by simp⟩
    · refine ⟨front, last, back ++ [datagram], by simp, isLast, fun later member => ?_⟩
      rcases List.mem_append.mp member with inBack | isFinal
      · exact none later inBack
      · rw [List.mem_singleton.mp isFinal]
        exact noInsert

/-- An insert under the key is the last one. -/
theorem lastInsert_insert (inserts : IsInsert datagram key other) :
    LastInsert (past ++ [datagram]) key value ↔ value = other := by
  rw [lastInsert_append_iff, or_iff_left fun before => before.2 _ inserts]
  constructor
  · intro isLast
    exact (isLast.unique inserts).2
  · rintro rfl
    exact inserts

/-- Any other datagram changes nothing. -/
theorem lastInsert_other (noInsert : ∀ other, ¬ IsInsert datagram key other) :
    LastInsert (past ++ [datagram]) key value ↔ LastInsert past key value := by
  rw [lastInsert_append_iff, or_iff_right (noInsert value), and_iff_left noInsert]

/-! ### What the store holds of it -/

/-- What is stored for a key or a value. -/
def standIn (bytes : Bytes) : Bytes := if bytes.length = 0 then empty else bytes

theorem standIn_eq_empty (notEmpty : bytes ≠ empty) : standIn bytes = empty ↔ bytes = [] := by
  unfold standIn
  split
  · next nothing => simp [List.length_eq_zero_iff.mp nothing]
  · next some => simp [notEmpty, List.length_eq_zero_iff.not.mp some]

/-- No key, without a `=`, is stored under the stand-in of another. -/
theorem standIn_injective (unmarked : equals ∉ key) (unmarked' : equals ∉ other)
    (same : standIn key = standIn other) : key = other := by
  have marked : equals ∈ empty := by decide
  have notEmpty : ∀ bytes, equals ∉ bytes → bytes ≠ empty :=
    fun bytes free isEmpty => free (isEmpty ▸ marked)
  by_cases nothing : key = []
  · subst nothing
    have isEmpty := (standIn_eq_empty (notEmpty [] unmarked)).mpr rfl
    rw [isEmpty] at same
    exact ((standIn_eq_empty (notEmpty other unmarked')).mp same.symm).symm
  · have nothing' : other ≠ [] := by
      rintro rfl
      rw [(standIn_eq_empty (notEmpty [] unmarked')).mpr rfl] at same
      exact nothing ((standIn_eq_empty (notEmpty key unmarked)).mp same)
    simpa [standIn, nothing, nothing'] using same

theorem standIn_version : standIn versionKey = versionKey := by decide

/-- The store holds the last inserts of the datagrams so far. -/
structure Reflects (past : List Bytes) (db : Database) : Prop where
  version : db.store versionKey = some versionValue
  keys : ∀ key, equals ∉ key → key ≠ versionKey → ∀ stored,
    db.store (standIn key) = some stored ↔
      ∃ value, LastInsert past key value ∧ stored = standIn value

theorem reflects_init : Reflects [] .init where
  version := by simp [Database.init]
  keys key unmarked notVersion stored := by
    have differs : standIn key ≠ versionKey := by
      rw [← standIn_version]
      exact fun same => notVersion (standIn_injective unmarked (by decide) same)
    simp only [Database.init, Function.update_of_ne differs, lastInsert_nil]
    simp

/-! ### One datagram -/

theorem serve_insert (short : datagram.length ≤ 1024) (inserts : IsInsert datagram key value) :
    serve db datagram =
      if key = versionKey then (db, none)
      else (⟨Function.update db.store (standIn key) (some (standIn value))⟩, none) := by
  obtain ⟨rfl, unmarked⟩ := inserts
  have room := short
  rw [List.length_append, List.length_cons] at room
  have keyFits : ¬ key.length > maxKeyLength := by
    unfold maxKeyLength
    omega
  have valueFits : ¬ value.length > maxKeyLength := by
    unfold maxKeyLength
    omega
  have behind : (key ++ equals :: value).drop (key.length + 1) = value := by simp
  simp only [serve, List.take_of_length_le short, findIdx?_mark unmarked, List.take_left, behind,
    Database.insert, if_neg keyFits, if_neg valueFits]
  by_cases isVersion : key = versionKey
  · simp only [if_pos isVersion]
  · simp only [if_neg isVersion]
    rfl

theorem serve_lookup (short : datagram.length ≤ 1024) (unmarked : equals ∉ datagram) :
    (serve db datagram).1 = db := by
  simp only [serve, List.take_of_length_le short, findIdx?_of_notMem unmarked]
  split <;> rfl

/-- A datagram with a `=` is an insert. -/
theorem isInsert_of_mem (marked : equals ∈ datagram) :
    ∃ key value, IsInsert datagram key value := by
  obtain ⟨key, value, whole, unmarked⟩ := List.eq_append_cons_of_mem marked
  exact ⟨key, value, whole, unmarked⟩

theorem Reflects.step (reflects : Reflects past db) (short : datagram.length ≤ 1024) :
    Reflects (past ++ [datagram]) (serve db datagram).1 := by
  by_cases marked : equals ∈ datagram
  · obtain ⟨key, value, inserts⟩ := isInsert_of_mem marked
    have unmarked := inserts.2
    rw [serve_insert short inserts]
    by_cases isVersion : key = versionKey
    · rw [if_pos isVersion]
      refine ⟨reflects.version, fun other unmarked' notVersion stored => ?_⟩
      have noInsert : ∀ value', ¬ IsInsert datagram other value' := by
        intro value' inserts'
        exact notVersion ((inserts'.unique inserts).1.trans isVersion)
      simp only [lastInsert_other noInsert]
      exact reflects.keys other unmarked' notVersion stored
    · rw [if_neg isVersion]
      have differs : versionKey ≠ standIn key := by
        rw [← standIn_version]
        exact fun same => isVersion (standIn_injective (by decide) unmarked same).symm
      refine ⟨(Function.update_of_ne differs _ _).trans reflects.version,
        fun other unmarked' notVersion stored => ?_⟩
      by_cases same : other = key
      · subst same
        simp only [Function.update_self, Option.some.injEq, lastInsert_insert inserts]
        simp [eq_comm]
      · have apart : standIn other ≠ standIn key :=
          fun equal => same (standIn_injective unmarked' unmarked equal)
        have noInsert : ∀ value', ¬ IsInsert datagram other value' :=
          fun value' inserts' => same (inserts'.unique inserts).1
        simp only [Function.update_of_ne apart, lastInsert_other noInsert]
        exact reflects.keys other unmarked' notVersion stored
  · rw [serve_lookup short marked]
    have noInsert : ∀ key value, ¬ IsInsert datagram key value := by
      rintro key value ⟨rfl, -⟩
      simp at marked
    refine ⟨reflects.version, fun other unmarked' notVersion stored => ?_⟩
    simp only [lastInsert_other (noInsert other)]
    exact reflects.keys other unmarked' notVersion stored

/-! ### Every sequence of datagrams -/

/-- The store after some datagrams. -/
def served (past : List Bytes) : Database :=
  past.foldl (fun db datagram => (serve db datagram).1) .init

theorem reflects_served (short : ∀ datagram ∈ past, datagram.length ≤ 1024) :
    Reflects past (served past) :=
  run_relates_when _ Reflects
    (fun past db datagram next before now step => by
      cases step
      exact before.step now.2)
    [] reflects_init ((eachStep_of_forall (fun _ _ => trivial) past).and_forall short)
    (run_total (fun db datagram => (serve db datagram).1) .init past)

/-- A value that fits behind its key is answered. -/
theorem formatResponse_items (fits : (request ++ equals :: value).length ≤ 1024) :
    (formatResponse request value).map BoundedArray.items =
      some (request ++ equals :: value) := by
  simp only [List.length_append, List.length_cons] at fits
  have first : (BoundedArray.clear : BoundedArray UInt8 1024).appendSlice request =
      some ⟨request, by omega⟩ := BoundedArray.appendSlice_eq_some.mpr rfl
  have second : (⟨request, by omega⟩ : BoundedArray UInt8 1024).appendSlice [equals] =
      some ⟨request ++ [equals], by simp; omega⟩ := BoundedArray.appendSlice_eq_some.mpr rfl
  have third : (⟨request ++ [equals], by simp; omega⟩ : BoundedArray UInt8 1024).appendSlice
      value = some ⟨request ++ [equals] ++ value, by simp; omega⟩ :=
    BoundedArray.appendSlice_eq_some.mpr rfl
  simp [formatResponse, first, second, third]

theorem retrieve_eq (short : key.length ≤ 1024) :
    db.retrieve key =
      .ok ((db.store (standIn key)).map fun stored => if stored = empty then [] else stored) := by
  have fits : ¬ key.length > maxKeyLength := by
    unfold maxKeyLength
    omega
  simp only [Database.retrieve, if_neg fits, standIn]
  cases db.store (if key.length = 0 then empty else key) with
  | none => rfl
  | some stored =>
      by_cases isEmpty : stored = empty
      · simp only [if_pos isEmpty, Option.map_some]
      · simp only [if_neg isEmpty, Option.map_some]

theorem serve_stored (short : request.length ≤ 1024) (unmarked : equals ∉ request) :
    (serve db request).2 = (db.store (standIn request)).bind fun stored =>
      (formatResponse request (if stored = empty then [] else stored)).map
        BoundedArray.items := by
  simp only [serve, List.take_of_length_le short, findIdx?_of_notMem unmarked,
    retrieve_eq short]
  cases db.store (standIn request) with
  | none | some stored => rfl

theorem Reflects.answers_version (reflects : Reflects past db) :
    (serve db versionKey).2 = some (versionKey ++ equals :: versionValue) := by
  rw [serve_stored (by decide) (by decide), standIn_version, reflects.version, Option.bind_some,
    if_neg (by decide), formatResponse_items (by decide)]

theorem LastInsert.inserted (last : LastInsert past key value) :
    ∃ datagram ∈ past, IsInsert datagram key value := by
  obtain ⟨front, datagram, back, rfl, inserts, -⟩ := last
  exact ⟨datagram, by simp, inserts⟩

/-- Any other key is answered with the value of its last insert. -/
theorem Reflects.answers_key (reflects : Reflects past db)
    (short : ∀ datagram ∈ past, datagram.length ≤ 1024)
    (noStandIn : ∀ datagram ∈ past, ∀ key, ¬ IsInsert datagram key empty)
    (isShort : request.length ≤ 1024) (unmarked : equals ∉ request)
    (notVersion : request ≠ versionKey) {answer : Bytes} :
    (serve db request).2 = some answer ↔
      ∃ value, answer = request ++ equals :: value ∧ LastInsert past request value := by
  have answered : ∀ value, LastInsert past request value →
      (serve db request).2 = some (request ++ equals :: value) := by
    intro value last
    obtain ⟨datagram, member, inserts⟩ := last.inserted
    have stored := (reflects.keys request unmarked notVersion _).mpr ⟨value, last, rfl⟩
    have notEmpty : value ≠ empty := by
      rintro rfl
      exact noStandIn datagram member request inserts
    have back : (if standIn value = empty then [] else standIn value) = value := by
      by_cases nothing : value = []
      · rw [if_pos ((standIn_eq_empty notEmpty).mpr nothing), nothing]
      · rw [if_neg ((standIn_eq_empty notEmpty).not.mpr nothing), standIn,
          if_neg (List.length_eq_zero_iff.not.mpr nothing)]
    have fits := short datagram member
    rw [inserts.1] at fits
    rw [serve_stored isShort unmarked, stored, Option.bind_some, back, formatResponse_items fits]
  constructor
  · intro sent
    cases stored : db.store (standIn request) with
    | none =>
        rw [serve_stored isShort unmarked, stored] at sent
        cases sent
    | some bytes =>
        obtain ⟨value, last, -⟩ := (reflects.keys request unmarked notVersion _).mp stored
        rw [answered value last, Option.some.injEq] at sent
        exact ⟨value, sent.symm, last⟩
  · rintro ⟨value, rfl, last⟩
    exact answered value last

/-- A key is answered exactly when it was inserted before, or is that of the version, with
the value of its last insert; an insert is not answered; and what is sent fits the buffer. -/
theorem answers_last_insert (short : ∀ datagram ∈ past ++ [request], datagram.length ≤ 1024)
    (noStandIn : ∀ datagram ∈ past, ∀ key, ¬ IsInsert datagram key empty) :
    (equals ∈ request → (serve (served past) request).2 = none) ∧
    (equals ∉ request → ∀ answer, (serve (served past) request).2 = some answer ↔
      ∃ value, answer = request ++ equals :: value ∧
        if request = versionKey then value = versionValue else LastInsert past request value) ∧
    ∀ answer, (serve (served past) request).2 = some answer → answer.length ≤ 1024 := by
  obtain ⟨pastShort, requestShort⟩ := List.forall_mem_append.mp short
  have isShort := requestShort request (List.mem_singleton_self request)
  have reflects := reflects_served pastShort
  refine ⟨fun marked => ?_, fun unmarked answer => ?_, fun answer sent => ?_⟩
  · obtain ⟨key, value, inserts⟩ := isInsert_of_mem marked
    rw [serve_insert isShort inserts]
    split <;> rfl
  · by_cases isVersion : request = versionKey
    · simp [isVersion, reflects.answers_version, eq_comm]
    · simp only [if_neg isVersion]
      exact reflects.answers_key pastShort noStandIn isShort unmarked isVersion
  · by_cases marked : equals ∈ request
    · obtain ⟨key, value, inserts⟩ := isInsert_of_mem marked
      rw [serve_insert isShort inserts] at sent
      split at sent <;> cases sent
    · rw [serve_stored isShort marked, Option.bind_eq_some_iff] at sent
      obtain ⟨stored, -, formatted⟩ := sent
      obtain ⟨buffer, -, rfl⟩ := Option.map_eq_some_iff.mp formatted
      exact buffer.fits

/-- The empty key, inserted twice. -/
def emptyKeyTwice : List Bytes := [ascii "=1", ascii "a=", ascii "=2=3"]

theorem emptyKeyTwice_noStandIn :
    ∀ datagram ∈ emptyKeyTwice, ∀ key, ¬ IsInsert datagram key empty := by
  rintro datagram member key ⟨rfl, -⟩
  have long : ∀ datagram ∈ emptyKeyTwice, datagram.length < empty.length := by decide
  have short := long _ member
  rw [List.length_append, List.length_cons] at short
  omega

theorem answers_last_insert_emptyKey :
    (serve (served emptyKeyTwice) []).2 = some (ascii "=2=3") := by
  have last : LastInsert emptyKeyTwice [] (ascii "2=3") :=
    ⟨[ascii "=1", ascii "a="], ascii "=2=3", [], rfl, ⟨by decide, by decide⟩, by simp⟩
  exact ((answers_last_insert (by decide) emptyKeyTwice_noStandIn).2.1 (by decide) _).mpr
    ⟨ascii "2=3", by decide, last⟩

end NetworkExercises.UnusualDatabase
