/-
Module: NetworkExercises.MobInTheMiddle.Proofs.Splitting
Purpose: When two messages, the first of them whole lines, are rewritten as one the way they
  are rewritten one by one.
Main exports: CountsBehind, Overlooked, rewritten_apart_iff
-/
import NetworkExercises.MobInTheMiddle.Proofs.Tokens

namespace NetworkExercises.MobInTheMiddle

open Lib

/-! ### Where a `7` counts as the start of a word -/

/-- Behind a token and the byte that ends it, a `7` counts as the start of a word: the byte is
a space, the token begins with a `7` that does, or it holds `77`. -/
def countsOn (counts : Bool) (ended : Bytes × UInt8) : Bool :=
  ended.2 = space || (counts && ended.1.head? = some seven) || (behindDouble ended.1).isSome

/-- Read token by token, these bytes are such that a `7` behind them counts as the start of a
word; at the beginning of a message it does. -/
def CountsBehind (bytes : Bytes) : Prop :=
  ((tokens bytes).zip (delimiters bytes)).foldl countsOn true = true

instance (bytes : Bytes) : Decidable (CountsBehind bytes) :=
  inferInstanceAs (Decidable (_ = true))

/-- An address other than the new one. -/
def foreign (word : Bytes) : Bool := isAddress word && word != boguscoinAddress

/-- A search that takes the first of these tokens for the inside of a word misses an address
or replaces the end of a token: here, or, where it goes on behind a newline as if inside a
word, later. -/
def overlooks : List Bytes → Bytes → Bool
  | [], _ => false
  | token :: tokens, ends =>
      token.head? = some seven &&
        (foreign token ||
          match behindDouble token, ends with
          | some part, _ => foreign part
          | none, byte :: ends => byte = newline && overlooks tokens ends
          | none, [] => false)

def Overlooked (bytes : Bytes) : Prop := overlooks (tokens bytes) (delimiters bytes) = true

instance (bytes : Bytes) : Decidable (Overlooked bytes) :=
  inferInstanceAs (Decidable (_ = true))

variable {byte : UInt8} {bytes front back word part after rest : Bytes} {place : Place}

/-! ### The place behind a token -/

theorem next_newline (passing : place = .kept ∨ place = .dropped) :
    place.next newline rest = .opened := by
  rcases passing with rfl | rfl
  · rfl
  · rfl

theorem next_newline_inner (looking : place = .opened ∨ place = .inner) :
    place.next newline rest = .inner := by
  rcases looking with rfl | rfl
  · rfl
  · rfl

/-- Behind a word, the search is passing it still, or is looking for the next `7`. -/
theorem after_word (isWord : ∀ byte ∈ word, endsWord byte = false)
    (looking : place = .opened ∨ place = .inner) :
    if (place = .opened ∧ word.head? = some seven) ∨ (behindDouble word).isSome then
      search.after place word = .kept ∨ search.after place word = .dropped
    else search.after place word = .opened ∨ search.after place word = .inner := by
  have inner : if (behindDouble word).isSome then
      search.after .inner word = .kept ∨ search.after .inner word = .dropped
      else search.after .inner word = .opened ∨ search.after .inner word = .inner := by
    cases double : behindDouble word with
    | none => exact (run_inner_single isWord double).2
    | some part =>
        obtain ⟨-, -, -, -, afterEq⟩ := run_inner_double isWord double
        exact afterEq
  rcases looking with rfl | rfl
  · cases word with
    | nil => simp [behindDouble]
    | cons byte word =>
        by_cases isSeven : byte = seven
        · subst isSeven
          rw [if_pos (.inl ⟨rfl, rfl⟩)]
          exact after_seven_token (List.forall_mem_cons.mp isWord).2
        · rw [after_cons, next_opened_other isSeven, ← after_cons]
          simpa [isSeven] using inner
  · simpa using inner

theorem countsOn_newline : countsOn (place = .opened) (word, newline) = true ↔
    (place = .opened ∧ word.head? = some seven) ∨ (behindDouble word).isSome := by
  have apart : newline ≠ space := by decide
  simp [countsOn, apart]

/-- The place behind a token and the byte that ends it. -/
theorem next_after_word (isWord : ∀ byte ∈ word, endsWord byte = false)
    (ended : endsWord byte = true) (looking : place = .opened ∨ place = .inner) :
    (search.after place word).next byte rest =
      if countsOn (place = .opened) (word, byte) then .opened else .inner := by
  rcases endsWord_iff.mp ended with rfl | rfl
  · simp [next_space, countsOn]
  · have behind := after_word isWord looking
    split at behind
    · next passing => rw [next_newline behind, if_pos (countsOn_newline.mpr passing)]
    · next passed => rw [next_newline_inner behind, if_neg (countsOn_newline.not.mpr passed)]

/-- The place behind whole tokens. -/
theorem after_tokens (looking : place = .opened ∨ place = .inner)
    (ends : ∀ byte, bytes.getLast? = some byte → endsWord byte = true) :
    search.after place bytes =
      if ((tokens bytes).zip (delimiters bytes)).foldl countsOn (place = .opened)
      then .opened else .inner := by
  induction bytes using words_induction generalizing place with
  | last word isWord =>
      obtain rfl : word = [] := by
        cases last : word.getLast? with
        | none => exact List.getLast?_eq_none_iff.mp last
        | some byte =>
            have inWord := isWord byte (List.mem_of_getLast? last)
            rw [ends byte last] at inWord
            cases inWord
      rcases looking with rfl | rfl
      · rfl
      · rfl
  | more word byte rest isWord ended ih =>
      have restEnds : ∀ byte, rest.getLast? = some byte → endsWord byte = true := by
        intro other last
        refine ends other ?_
        rw [List.getLast?_append, List.getLast?_cons, last]
        rfl
      rw [(blind_of_wordEnds (wordEnds_cons ended)).after_append, after_cons,
        tokens_append isWord ended, delimiters_append isWord ended, List.zip_cons_cons,
        List.foldl_cons, next_after_word isWord ended looking]
      cases countsOn (place = .opened) (word, byte) with
      | true => exact ih (.inl rfl) restEnds
      | false => exact ih (.inr rfl) restEnds

/-- The place behind whole lines. -/
theorem after_lines (ends : bytes.getLast? = some newline) :
    search.after .opened bytes = if CountsBehind bytes then .opened else .inner := by
  refine (after_tokens (.inl rfl) fun byte last => ?_).trans
    (if_congr (by simp [CountsBehind]) rfl rfl)
  obtain rfl : newline = byte := Option.some.inj (ends.symm.trans last)
  rfl

/-! ### What a search that begins inside a word misses -/

theorem behindDouble_boguscoinAddress : behindDouble boguscoinAddress = none := by decide

theorem foreign_iff : foreign part = true ↔ isAddress part = true ∧ part ≠ boguscoinAddress := by
  simp [foreign]

/-- One token, read as the inside of a word and as a token of its own. -/
theorem run_inner_eq_iff (isWord : ∀ byte ∈ word, endsWord byte = false)
    (isSeven : word.head? = some seven) :
    search.run .inner word = search.run .opened word ↔
      ¬ (foreign word = true ∨ ∃ part, behindDouble word = some part ∧ foreign part = true) := by
  have opened : search.run .opened word = if isAddress word then boguscoinAddress else word := by
    obtain ⟨word, rfl⟩ := List.head?_eq_some_iff.mp isSeven
    exact run_seven_token (List.forall_mem_cons.mp isWord).2
  rw [opened]
  cases double : behindDouble word with
  | none =>
      rw [(run_inner_single isWord double).1]
      split
      · next address => simp [foreign, address]
      · next noAddress => simp [foreign, noAddress]
  | some part =>
      obtain ⟨front, whole, nonempty, runEq, -⟩ := run_inner_double isWord double
      have notNew : word ≠ boguscoinAddress := by
        rintro rfl
        rw [behindDouble_boguscoinAddress] at double
        cases double
      rw [runEq]
      by_cases address : isAddress word
      · have changed : foreign word = true := foreign_iff.mpr ⟨address, notNew⟩
        rw [if_pos address]
        refine iff_of_false (fun same => ?_) fun none => none (.inl changed)
        split at same
        · exact nonempty (List.append_left_eq_self.mp same)
        · exact notNew (whole.trans same)
      · have kept : foreign word = false := by simp [foreign, address]
        rw [if_neg address, kept]
        subst whole
        rw [List.append_cancel_left_eq]
        have changed : (∃ found, some part = some found ∧ foreign found = true) ↔
            foreign part = true := by simp
        rw [changed, foreign_iff]
        split
        · next found =>
          simp only [found, true_and, Bool.false_eq_true, false_or, ne_eq, not_not]
          exact eq_comm
        · next missed => simp [missed]

theorem overlooks_cons {token : Bytes} {tokens : List Bytes} {ends : Bytes} :
    overlooks (token :: tokens) ends = true ↔ token.head? = some seven ∧
      ((foreign token = true ∨ ∃ part, behindDouble token = some part ∧ foreign part = true) ∨
        behindDouble token = none ∧
          ∃ later, ends = newline :: later ∧ overlooks tokens later = true) := by
  cases double : behindDouble token with
  | some part => simp [overlooks, double]
  | none =>
      cases ends with
      | nil => simp [overlooks, double]
      | cons byte ends => simp [overlooks, double]

/-- Where two messages agree, their first words do. -/
theorem append_cons_inj {other more : Bytes} (isWord : ∀ byte ∈ word, endsWord byte = false)
    (otherWord : ∀ byte ∈ other, endsWord byte = false) (ended : endsWord byte = true) :
    word ++ byte :: rest = other ++ byte :: more ↔ word = other ∧ rest = more := by
  constructor
  · intro same
    obtain rfl : word = other := by
      rw [← takeWhile_word isWord (wordEnds_cons ended), same,
        takeWhile_word otherWord (wordEnds_cons ended)]
    exact ⟨rfl, (List.cons.inj (List.append_cancel_left same)).2⟩
  · rintro ⟨rfl, rfl⟩
    rfl

/-- What a search that takes the beginning of these bytes for the inside of a word makes of
them. -/
theorem run_inner_iff :
    search.run .inner bytes = search.run .opened bytes ↔ ¬ Overlooked bytes := by
  induction bytes using words_induction with
  | last word isWord =>
      rw [Overlooked, tokens_word isWord, delimiters_word isWord, overlooks_cons]
      by_cases isSeven : word.head? = some seven
      · rw [run_inner_eq_iff isWord isSeven]
        simp [isSeven]
      · exact iff_of_true (run_opened_other isSeven).symm fun overlooked => isSeven overlooked.1
  | more word byte rest isWord ended ih =>
      rw [Overlooked, tokens_append isWord ended, delimiters_append isWord ended, overlooks_cons]
      by_cases isSeven : word.head? = some seven
      · have blind : search.Blind word (byte :: rest) := blind_of_wordEnds (wordEnds_cons ended)
        have counts : countsOn true (word, byte) = true := by simp [countsOn, isSeven]
        rw [blind.run_append, blind.run_append, run_cons, run_cons, write_ended ended,
          write_ended ended, List.singleton_append, List.singleton_append,
          append_cons_inj (run_isWord isWord) (run_isWord isWord) ended,
          run_inner_eq_iff isWord isSeven, next_after_word isWord ended (.inl rfl),
          next_after_word isWord ended (.inr rfl), and_iff_right isSeven]
        refine (and_congr_right fun unchanged => ?_).trans not_or.symm
        simp only [decide_true, counts, if_true]
        rcases endsWord_iff.mp ended with rfl | rfl
        · have apart : space ≠ newline := by decide
          simp [countsOn, apart]
        · cases double : behindDouble word with
          | some part =>
              rw [if_pos (countsOn_newline.mpr (.inr (by rw [double]; rfl)))]
              simp
          | none =>
              rw [if_neg (countsOn_newline.not.mpr (by simp [double])), ih, Overlooked]
              simp
      · have other : (word ++ byte :: rest).head? ≠ some seven := by
          cases word with
          | nil =>
              refine fun same => ?_
              rw [Option.some.inj same] at ended
              cases ended
          | cons => exact isSeven
        exact iff_of_true (run_opened_other other).symm fun overlooked => isSeven overlooked.1

/-! ### Two messages -/

/-- Whole lines are searched the same way, whatever follows. -/
theorem blind_of_ends (ends : front.getLast? = some newline) : search.Blind front back := by
  refine blind_of_walk fun more suffix => ?_
  obtain ⟨before, rfl⟩ := suffix
  obtain ⟨word, after, whole, isWord, wordEnds⟩ := exists_word (more ++ back)
  obtain ⟨byte, line, rfl, rfl, lineEnds, -⟩ :=
    word_in_line whole.symm isWord wordEnds (ends_behind ends)
  rw [whole, walk_word isWord wordEnds, walk_word isWord lineEnds]

/-- Lines and a message behind them are rewritten one by one if and only if the lines end so
that a `7` behind them counts as the start of a word, or the message begins so that it makes
no difference. -/
theorem rewritten_apart_iff (a b ab outA outB outAB : U8BoundArray)
    (whole : ab.items = a.items ++ b.items) (ends : a.items.getLast? = some newline)
    (doneA : findAndReplaceBoguscoinAddress a = some outA)
    (doneB : findAndReplaceBoguscoinAddress b = some outB)
    (doneAB : findAndReplaceBoguscoinAddress ab = some outAB) :
    outAB.items = outA.items ++ outB.items ↔ CountsBehind a.items ∨ ¬ Overlooked b.items := by
  have writes : ∀ {msg out : U8BoundArray}, findAndReplaceBoguscoinAddress msg = some out →
      out.items = search.run .opened msg.items :=
    fun done => (findAndReplace_iff.mp (by rw [done]; rfl)).eq_run
  rw [writes doneA, writes doneB, writes doneAB, whole, (blind_of_ends ends).run_append,
    List.append_cancel_left_eq, after_lines ends]
  by_cases counts : CountsBehind a.items
  · rw [if_pos counts]
    exact iff_of_true rfl (.inl counts)
  · rw [if_neg counts, run_inner_iff, or_iff_right counts]

theorem rewritten_apart_iff_address :
    ascii "7\n7YWHMfk9JZe0LM0g1ZauHuiSxhI" = ascii "7\n" ++ ascii "7YWHMfk9JZe0LM0g1ZauHuiSxhI" ↔
      CountsBehind (ascii "7\n") ∨ ¬ Overlooked (ascii "7F1u3wSD5RbOHQmupo9nx4TnhQ") :=
  rewritten_apart_iff ⟨ascii "7\n", by decide⟩
    ⟨ascii "7F1u3wSD5RbOHQmupo9nx4TnhQ", by decide⟩
    ⟨ascii "7\n7F1u3wSD5RbOHQmupo9nx4TnhQ", by decide⟩ ⟨ascii "7\n", by decide⟩
    ⟨ascii "7YWHMfk9JZe0LM0g1ZauHuiSxhI", by decide⟩
    ⟨ascii "7\n7YWHMfk9JZe0LM0g1ZauHuiSxhI", by decide⟩ (by decide) (by decide)
    (by decide +kernel) (by decide +kernel) (by decide +kernel)

/-- Behind a line `x`, the address at the beginning of the next line is missed. -/
theorem not_rewritten_apart :
    ¬ ∀ a b ab outA outB outAB : U8BoundArray, ab.items = a.items ++ b.items →
      a.items.getLast? = some newline → findAndReplaceBoguscoinAddress a = some outA →
        findAndReplaceBoguscoinAddress b = some outB →
          findAndReplaceBoguscoinAddress ab = some outAB →
            outAB.items = outA.items ++ outB.items := by
  intro always
  have apart := always ⟨ascii "x\n", by decide⟩ ⟨ascii "7F1u3wSD5RbOHQmupo9nx4TnhQ", by decide⟩
    ⟨ascii "x\n7F1u3wSD5RbOHQmupo9nx4TnhQ", by decide⟩ ⟨ascii "x\n", by decide⟩
    ⟨ascii "7YWHMfk9JZe0LM0g1ZauHuiSxhI", by decide⟩
    ⟨ascii "x\n7F1u3wSD5RbOHQmupo9nx4TnhQ", by decide⟩ (by decide) (by decide)
    (by decide +kernel) (by decide +kernel) (by decide +kernel)
  revert apart
  decide +kernel

end NetworkExercises.MobInTheMiddle
