/-
Module: NetworkExercises.UnusualDatabase.Proofs.StandIns
Purpose: What the stand-in for the empty key and the empty value costs: which inserts can be
  read back, and which other keys they leave alone.
Main exports: Database.Reachable, retrieve_inserted_iff, retrieve_other, kept_apart_iff
-/
import NetworkExercises.UnusualDatabase.Proofs.LastInsert

namespace NetworkExercises.UnusualDatabase

open Lib

/-- The stores that inserts make. -/
inductive Database.Reachable : Database → Prop where
  | init : Reachable .init
  | insert {db next : Database} {key value : Bytes} (reached : db.Reachable)
      (inserted : db.insert key value = .ok next) : Reachable next

variable {db next : Database} {key value other : Bytes}

/-! ### One insert -/

/-- An insert that is accepted stores the stand-ins. -/
theorem insert_eq_ok : db.insert key value = .ok next ↔
    (key.length ≤ 1024 ∧ value.length ≤ 1024 ∧ key ≠ versionKey) ∧
      next = ⟨Function.update db.store (standIn key) (some (standIn value))⟩ := by
  unfold Database.insert maxKeyLength
  by_cases keyLong : key.length > 1024
  · rw [if_pos keyLong]
    simp [Nat.not_le.mpr keyLong]
  by_cases valueLong : value.length > 1024
  · rw [if_neg keyLong, if_pos valueLong]
    simp [Nat.not_le.mpr valueLong]
  by_cases isVersion : key = versionKey
  · rw [if_neg keyLong, if_neg valueLong, if_pos isVersion]
    simp [isVersion]
  · rw [if_neg keyLong, if_neg valueLong, if_neg isVersion]
    simp only [Nat.not_lt.mp keyLong, Nat.not_lt.mp valueLong, ne_eq, isVersion,
      not_false_eq_true, and_self, true_and, Except.ok.injEq]
    exact eq_comm

/-- The value is read back as it was inserted, unless it is the stand-in itself. -/
theorem retrieve_inserted_iff (inserted : db.insert key value = .ok next) :
    next.retrieve key = .ok (some value) ↔ value ≠ empty := by
  obtain ⟨⟨keyShort, -, -⟩, rfl⟩ := insert_eq_ok.mp inserted
  rw [retrieve_eq keyShort]
  dsimp only
  rw [Function.update_self, Option.map_some, Except.ok.injEq, Option.some.injEq]
  by_cases isEmpty : value = empty
  · subst isEmpty
    decide
  · by_cases nothing : value = []
    · subst nothing
      decide
    · simp [nothing, standIn, isEmpty]

/-- Only the empty key and the stand-in share their place. -/
theorem standIn_eq_iff (differ : other ≠ key) :
    standIn other = standIn key ↔ key = [] ∧ other = empty ∨ key = empty ∧ other = [] := by
  have some : ∀ {bytes : Bytes}, bytes ≠ [] → standIn bytes = bytes := fun nonempty =>
    if_neg (List.length_eq_zero_iff.not.mpr nonempty)
  by_cases noKey : key = []
  · subst noKey
    rw [some differ]
    simp [standIn, differ]
  · rw [some noKey]
    by_cases noOther : other = []
    · subst noOther
      simp [standIn, noKey, eq_comm]
    · rw [some noOther]
      simp [differ, noKey, noOther]

/-- A key of another place is not touched. -/
theorem retrieve_other (inserted : db.insert key value = .ok next)
    (apart : standIn other ≠ standIn key) : next.retrieve other = db.retrieve other := by
  obtain ⟨-, rfl⟩ := insert_eq_ok.mp inserted
  by_cases short : other.length ≤ 1024
  · rw [retrieve_eq short, retrieve_eq short]
    dsimp only
    rw [Function.update_of_ne apart]
  · have long : other.length > maxKeyLength := Nat.not_le.mp short
    rw [Database.retrieve, Database.retrieve, if_pos long, if_pos long]

/-- In the store without inserts, an insert under the one of the two keys that share their
place is found under the other. -/
theorem shared_changes (keyShort : key.length ≤ 1024) (valueShort : value.length ≤ 1024)
    (otherShort : other.length ≤ 1024) (shared : standIn other = standIn key)
    (notVersion : standIn key ≠ versionKey) :
    ∃ next, Database.init.insert key value = .ok next ∧
      next.retrieve other ≠ Database.init.retrieve other := by
  have isNot : key ≠ versionKey := by
    rintro rfl
    exact notVersion standIn_version
  refine ⟨_, insert_eq_ok.mpr ⟨⟨keyShort, valueShort, isNot⟩, rfl⟩, ?_⟩
  rw [retrieve_eq otherShort, retrieve_eq otherShort, shared, Database.init]
  dsimp only
  rw [Function.update_self, Function.update_of_ne notVersion]
  simp

/-! ### Every store -/

/-- In every store an insert is read back as it was, and changes nothing under any other key,
exactly when neither the key nor the value is the stand-in and the key is not empty. -/
theorem kept_apart_iff (notVersion : key ≠ versionKey) (keyShort : key.length ≤ 1024)
    (valueShort : value.length ≤ 1024) :
    (∀ db next : Database, db.Reachable → db.insert key value = .ok next →
      next.retrieve key = .ok (some value) ∧
        ∀ other, other ≠ key → next.retrieve other = db.retrieve other) ↔
      key ≠ [] ∧ key ≠ empty ∧ value ≠ empty := by
  constructor
  · intro always
    have whole : Database.init.insert key value = .ok _ :=
      insert_eq_ok.mpr ⟨⟨keyShort, valueShort, notVersion⟩, rfl⟩
    refine ⟨?_, ?_, (retrieve_inserted_iff whole).mp (always _ _ .init whole).1⟩
    · rintro rfl
      obtain ⟨next, inserted, changed⟩ :=
        @shared_changes _ value empty keyShort valueShort (by decide) (by decide) (by decide)
      exact changed ((always _ _ .init inserted).2 empty (by decide))
    · rintro rfl
      obtain ⟨next, inserted, changed⟩ :=
        @shared_changes _ value [] keyShort valueShort (by decide) (by decide) (by decide)
      exact changed ((always _ _ .init inserted).2 [] (by decide))
  · rintro ⟨keySome, keyReal, valueReal⟩ db next - inserted
    refine ⟨(retrieve_inserted_iff inserted).mpr valueReal, fun other differ => ?_⟩
    refine retrieve_other inserted fun shared => ?_
    rcases (standIn_eq_iff differ).mp shared with ⟨noKey, -⟩ | ⟨isEmpty, -⟩
    · exact keySome noKey
    · exact keyReal isEmpty

theorem kept_apart_iff_emptyValue :
    ∃ next, Database.init.insert (ascii "a") [] = .ok next ∧
      next.retrieve (ascii "a") = .ok (some []) := by
  have inserted : Database.init.insert (ascii "a") [] = .ok _ :=
    insert_eq_ok.mpr ⟨by decide, rfl⟩
  have keptApart := @kept_apart_iff (ascii "a") [] (by decide) (by decide) (by decide)
  exact ⟨_, inserted, (keptApart.mpr (by decide) _ _ .init inserted).1⟩

/-- The stand-in, inserted as a value, is read back as the empty value. -/
theorem not_kept_apart :
    ¬ ∀ (key value : Bytes), key ≠ versionKey → key.length ≤ 1024 → value.length ≤ 1024 →
      ∀ db next : Database, db.Reachable → db.insert key value = .ok next →
        next.retrieve key = .ok (some value) ∧
          ∀ other, other ≠ key → next.retrieve other = db.retrieve other := by
  intro always
  have kept := always (ascii "a") empty (by decide) (by decide) (by decide)
  have inserted : Database.init.insert (ascii "a") empty = .ok _ :=
    insert_eq_ok.mpr ⟨by decide, rfl⟩
  exact (retrieve_inserted_iff inserted).mp (kept _ _ .init inserted).1 rfl

end NetworkExercises.UnusualDatabase
