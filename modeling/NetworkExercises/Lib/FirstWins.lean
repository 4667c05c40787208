/-
Module: NetworkExercises.Lib.FirstWins
Purpose: The first entry of every key, in the order of the entries: what a table holds that
  refuses a key it has.
Main exports: firsts, firsts_concat, firsts_sublist, firsts_nodup, firsts_find?,
  firsts_of_nodup
-/
import Mathlib.Tactic

namespace NetworkExercises.Lib

variable {α κ : Type} [DecidableEq κ] {key : α → κ}

/-- The entries whose key no entry before them has. -/
def firsts (key : α → κ) (entries : List α) : List α :=
  entries.eraseDupsBy fun entry other => key entry == key other

@[simp] theorem firsts_nil : firsts key [] = [] := rfl

theorem eraseDupsBy_loop_concat (r : α → α → Bool) (entries : List α) (entry : α)
    (seen : List α) :
    List.eraseDupsBy.loop r (entries ++ [entry]) seen =
      if (List.eraseDupsBy.loop r entries seen).any (r entry) then
        List.eraseDupsBy.loop r entries seen
      else List.eraseDupsBy.loop r entries seen ++ [entry] := by
  induction entries generalizing seen with
  | nil =>
      rw [List.nil_append, List.eraseDupsBy.loop, List.eraseDupsBy.loop, List.any_reverse]
      cases seen.any (r entry) with
      | true => rfl
      | false => simp [List.eraseDupsBy.loop]
  | cons first entries ih =>
      rw [List.cons_append, List.eraseDupsBy.loop, List.eraseDupsBy.loop]
      cases seen.any (r first) with
      | true => exact ih seen
      | false => exact ih (first :: seen)

/-- One more entry is refused if its key is there. -/
theorem firsts_concat (entries : List α) (entry : α) :
    firsts key (entries ++ [entry]) =
      if (firsts key entries).any (fun other => key entry == key other) then firsts key entries
      else firsts key entries ++ [entry] :=
  eraseDupsBy_loop_concat _ entries entry []

theorem firsts_sublist (entries : List α) : (firsts key entries).Sublist entries := by
  induction entries using List.reverseRecOn with
  | nil => exact List.nil_sublist _
  | append_singleton entries entry ih =>
      rw [firsts_concat]
      split
      · exact ih.trans (List.sublist_append_left _ _)
      · exact ih.append (List.Sublist.refl _)

/-- No two of them have the same key. -/
theorem firsts_nodup (entries : List α) : ((firsts key entries).map key).Nodup := by
  induction entries using List.reverseRecOn with
  | nil => exact List.nodup_nil
  | append_singleton entries entry ih =>
      rw [firsts_concat]
      split
      · exact ih
      · next new =>
        rw [List.map_append, List.map_singleton, List.nodup_append]
        refine ⟨ih, List.nodup_singleton _, ?_⟩
        rintro _ member _ isNew rfl
        obtain ⟨other, otherMember, sameKey⟩ := List.mem_map.mp member
        rw [List.mem_singleton.mp isNew] at sameKey
        exact new (List.any_eq_true.mpr ⟨other, otherMember, beq_iff_eq.mpr sameKey.symm⟩)

/-- Looking a key up among them finds the first entry with this key. -/
theorem firsts_find? (entries : List α) (wanted : κ) :
    ((firsts key entries).find? fun entry => key entry == wanted) =
      entries.find? fun entry => key entry == wanted := by
  induction entries using List.reverseRecOn with
  | nil => rfl
  | append_singleton entries entry ih =>
      rw [firsts_concat, List.find?_append]
      split
      · next present =>
        rw [ih]
        cases found : entries.find? fun entry => key entry == wanted with
        | some other => rfl
        | none =>
            -- The entry that makes the last one refused has another key than the wanted one.
            obtain ⟨other, member, sameKey⟩ := List.any_eq_true.mp present
            rw [found, List.find?_eq_none] at ih
            have differs := ih other member
            rw [← beq_iff_eq.mp sameKey] at differs
            rw [Option.none_or, eq_comm, List.find?_eq_none]
            intro last isLast
            rwa [List.mem_singleton.mp isLast]
      · rw [List.find?_append, ih]

/-- Entries with distinct keys are all kept. -/
theorem firsts_of_nodup {entries : List α} (distinct : (entries.map key).Nodup) :
    firsts key entries = entries := by
  induction entries using List.reverseRecOn with
  | nil => rfl
  | append_singleton entries entry ih =>
      rw [List.map_append, List.map_singleton, List.nodup_append] at distinct
      rw [firsts_concat, ih distinct.1, if_neg]
      rw [List.any_eq_true]
      rintro ⟨other, member, sameKey⟩
      exact distinct.2.2 _ (List.mem_map_of_mem member) _ (List.mem_singleton_self _)
        (beq_iff_eq.mp sameKey).symm

end NetworkExercises.Lib
