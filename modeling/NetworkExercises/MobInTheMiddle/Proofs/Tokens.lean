/-
Module: NetworkExercises.MobInTheMiddle.Proofs.Tokens
Purpose: The tokens of a line: every address among them is replaced, and which other bytes
  the search changes.
Main exports: tokens, IsAddress, EmbedsAddress, addresses_replaced, only_addresses_iff
-/
import Mathlib.Data.List.Forall2
import NetworkExercises.MobInTheMiddle.Proofs.Searching

namespace NetworkExercises.MobInTheMiddle

open Lib

/-! ### Tokens -/

/-- The maximal runs of bytes other than space and newline, with an empty one where two of
these stand side by side. -/
def tokens (bytes : Bytes) : List Bytes := bytes.splitOnP endsWord

/-- The spaces and newlines between the tokens. -/
def delimiters (bytes : Bytes) : Bytes := bytes.filter endsWord

def IsAddress (token : Bytes) : Prop := token.head? = some seven ∧ isAddress token = true

instance (token : Bytes) : Decidable (IsAddress token) :=
  inferInstanceAs (Decidable (token.head? = some seven ∧ isAddress token = true))

/-- A word from the second `7` of its first `77` on. -/
def behindDouble : Bytes → Option Bytes
  | first :: second :: rest =>
      if first = seven ∧ second = seven then some (second :: rest)
      else behindDouble (second :: rest)
  | _ => none

/-- The token is no address, but it ends with one, from the second `7` of its first `77` on. -/
def EmbedsAddress (token : Bytes) : Prop :=
  token.head? ≠ some seven ∧
    ∃ part, behindDouble token = some part ∧ isAddress part = true ∧ part ≠ boguscoinAddress

variable {byte : UInt8} {bytes word part after rest : Bytes} {place : Place}

/-- A message is a word, or a word and what follows the byte that ends it. -/
theorem words_induction {motive : Bytes → Prop}
    (last : ∀ word, (∀ byte ∈ word, endsWord byte = false) → motive word)
    (more : ∀ word byte rest, (∀ byte ∈ word, endsWord byte = false) → endsWord byte = true →
      motive rest → motive (word ++ byte :: rest)) (bytes : Bytes) : motive bytes := by
  induction length : bytes.length using Nat.strong_induction_on generalizing bytes with
  | _ size ih =>
      obtain ⟨word, after, rfl, isWord, ends⟩ := exists_word bytes
      cases after with
      | nil =>
          rw [List.append_nil]
          exact last word isWord
      | cons byte rest =>
          rw [List.length_append, List.length_cons] at length
          exact more word byte rest isWord (ends byte rfl) (ih rest.length (by omega) rest rfl)

theorem tokens_word (isWord : ∀ byte ∈ word, endsWord byte = false) : tokens word = [word] :=
  List.splitOnP_eq_singleton isWord

theorem tokens_append (isWord : ∀ byte ∈ word, endsWord byte = false)
    (ended : endsWord byte = true) : tokens (word ++ byte :: rest) = word :: tokens rest :=
  List.splitOnP_append_cons_of_forall_mem isWord byte ended rest

theorem delimiters_word (isWord : ∀ byte ∈ word, endsWord byte = false) :
    delimiters word = [] := by
  simpa [delimiters] using isWord

theorem delimiters_append (isWord : ∀ byte ∈ word, endsWord byte = false)
    (ended : endsWord byte = true) :
    delimiters (word ++ byte :: rest) = byte :: delimiters rest := by
  have nothing := delimiters_word isWord
  rw [delimiters] at nothing
  rw [delimiters, List.filter_append, nothing, List.nil_append, List.filter_cons_of_pos ended]
  rfl

/-- No token holds a space or a newline. -/
theorem tokens_isWord (bytes : Bytes) :
    ∀ token ∈ tokens bytes, ∀ byte ∈ token, endsWord byte = false := by
  induction bytes using words_induction with
  | last word isWord => simpa [tokens_word isWord] using isWord
  | more word byte rest isWord ended ih =>
      rw [tokens_append isWord ended]
      exact List.forall_mem_cons.mpr ⟨isWord, ih⟩

/-! ### A line is searched token by token -/

theorem endsWord_iff : endsWord byte = true ↔ byte = space ∨ byte = newline := by
  simp [endsWord]

theorem wordEnds_cons (ended : endsWord byte = true) : WordEnds (byte :: rest) := by
  intro other head
  rwa [← Option.some.inj head]

theorem next_space : place.next space rest = .opened := by
  cases place with
  | opened | inner | kept | dropped => rfl

/-- A space or newline is written as it is. -/
theorem write_ended (ended : endsWord byte = true) : place.write byte rest = [byte] := by
  refine Place.write_of_ne ?_
  rcases endsWord_iff.mp ended with rfl | rfl
  · simp [next_space]
  · cases place with
    | opened | inner | kept | dropped => exact fun same => Place.noConfusion same

/-- No space and no newline is written for another byte. -/
theorem run_isWord (isWord : ∀ byte ∈ word, endsWord byte = false) :
    ∀ byte ∈ search.run place word, endsWord byte = false := by
  refine Transducer.forall_mem_run ?_ isWord place
  intro place byte rest inWord
  change ∀ out ∈ place.write byte rest, endsWord out = false
  rw [Place.write]
  split
  · split
    · exact boguscoinAddress_isWord
    · simp
  · simpa using inWord

/-- Behind a token, the search of a line goes on as at its beginning. -/
theorem run_token_append (ended : endsWord byte = true)
    (line : newline ∉ (word ++ byte :: rest).dropLast) :
    search.run .opened (word ++ byte :: rest) =
      search.run .opened word ++ byte :: search.run .opened rest := by
  rw [(blind_of_wordEnds (wordEnds_cons ended)).run_append, run_cons, write_ended ended,
    List.singleton_append]
  cases rest with
  | nil => rfl
  | cons other rest =>
      obtain rfl : byte = space := by
        refine (endsWord_iff.mp ended).resolve_right ?_
        rintro rfl
        simp [List.dropLast_append_of_ne_nil] at line
      rw [next_space]

/-- The new tokens are the old ones, each rewritten on its own. -/
theorem tokens_run (line : newline ∉ bytes.dropLast) :
    tokens (search.run .opened bytes) = (tokens bytes).map (search.run .opened) ∧
      delimiters (search.run .opened bytes) = delimiters bytes := by
  induction bytes using words_induction with
  | last word isWord =>
      rw [tokens_word isWord, tokens_word (run_isWord isWord), delimiters_word isWord,
        delimiters_word (run_isWord isWord)]
      exact ⟨rfl, rfl⟩
  | more word byte rest isWord ended ih =>
      have restLine : newline ∉ rest.dropLast := by
        cases rest with
        | nil => simp
        | cons other rest =>
            refine fun member => line ?_
            simp [List.dropLast_append_of_ne_nil, member]
      obtain ⟨tokensEq, delimitersEq⟩ := ih restLine
      rw [run_token_append ended line, tokens_append isWord ended,
        tokens_append (run_isWord isWord) ended, delimiters_append isWord ended,
        delimiters_append (run_isWord isWord) ended, tokensEq, delimitersEq]
      exact ⟨rfl, rfl⟩

/-! ### One token -/

/-- A token that begins with `7`. -/
theorem run_seven_token (isWord : ∀ byte ∈ word, endsWord byte = false) :
    search.run .opened (seven :: word) =
      if isAddress (seven :: word) then boguscoinAddress else seven :: word := by
  have run : search.run .opened (seven :: (word ++ [])) = _ :=
    run_opened_seven isWord (by simp [WordEnds])
  simpa using run

/-- The word that a `7` has begun is still passed. -/
theorem after_seven_token (isWord : ∀ byte ∈ word, endsWord byte = false) :
    search.after .opened (seven :: word) = .kept ∨
      search.after .opened (seven :: word) = .dropped := by
  rw [after_cons]
  have next : Place.next .opened seven word = .dropped ∨ Place.next .opened seven word = .kept :=
    ite_eq_or_eq ..
  rcases next with next | next
  · exact .inr (next ▸ (run_dropped isWord).2)
  · exact .inl (next ▸ (run_kept isWord).2)

theorem next_opened_other (other : byte ≠ seven) :
    Place.next .opened byte rest = Place.next .inner byte rest := by
  simp [Place.next, other]

theorem next_inner_ne_dropped : Place.next .inner byte rest ≠ .dropped := by
  simp only [Place.next]
  split <;> simp

/-- Another byte than a `7` makes the same of the two places where one is looked for. -/
theorem run_opened_other (other : bytes.head? ≠ some seven) :
    search.run .opened bytes = search.run .inner bytes := by
  cases bytes with
  | nil => rfl
  | cons byte rest =>
      have notSeven : byte ≠ seven := fun same => other (congrArg some same)
      have next : Place.next .opened byte rest = Place.next .inner byte rest :=
        next_opened_other notSeven
      rw [run_cons, run_cons, Place.write_of_ne next_inner_ne_dropped,
        Place.write_of_ne (next ▸ next_inner_ne_dropped), next]

theorem run_token (isWord : ∀ byte ∈ word, endsWord byte = false) :
    (IsAddress word → search.run .opened word = boguscoinAddress) ∧
      (IsAddress (search.run .opened word) → search.run .opened word = boguscoinAddress) := by
  cases word with
  | nil =>
      have noAddress : ¬ IsAddress [] := by decide
      exact ⟨fun address => absurd address noAddress, fun address => absurd address noAddress⟩
  | cons byte word =>
      by_cases isSeven : byte = seven
      · subst isSeven
        rw [run_seven_token (List.forall_mem_cons.mp isWord).2]
        constructor
        · rintro ⟨-, address⟩
          rw [if_pos address]
        · rintro ⟨-, address⟩
          split at address
          · next found => rw [if_pos found]
          · next missed => exact absurd address missed
      · have other : (byte :: word).head? ≠ some seven := by simpa using isSeven
        have outOther : (search.run .opened (byte :: word)).head? ≠ some seven := by
          rw [run_opened_other other, run_cons, Place.write_of_ne next_inner_ne_dropped]
          exact other
        exact ⟨fun address => absurd address.1 other, fun address => absurd address.1 outOther⟩

/-- Inside a word, the search passes what is no `77`. -/
theorem run_inner_cons {second : UInt8} (rest : Bytes) (inWord : endsWord byte = false)
    (single : ¬ (byte = seven ∧ second = seven)) :
    search.run .inner (byte :: second :: rest) = byte :: search.run .inner (second :: rest) ∧
      search.after .inner (byte :: second :: rest) = search.after .inner (second :: rest) := by
  by_cases isSeven : byte = seven
  · have other : second ≠ seven := fun same => single ⟨isSeven, same⟩
    subst isSeven
    constructor
    · rw [run_inner_seven, run_opened_other (by simpa using other)]
    · have behind : Place.next .inner seven (second :: rest) = .opened := rfl
      rw [after_cons, behind, after_cons, next_opened_other other, ← after_cons]
  · have next : Place.next .inner byte (second :: rest) = .inner := by
      have notSpace : byte ≠ space := by
        rintro rfl
        cases inWord
      simp [Place.next, isSeven, notSpace]
    rw [run_cons, after_cons, Place.write_of_ne next_inner_ne_dropped, next]
    exact ⟨rfl, rfl⟩

/-- A word without a `77`, behind a byte that is no space. -/
theorem run_inner_single (isWord : ∀ byte ∈ word, endsWord byte = false)
    (single : behindDouble word = none) :
    search.run .inner word = word ∧
      (search.after .inner word = .opened ∨ search.after .inner word = .inner) := by
  fun_induction behindDouble word with
  | case1 first second rest double => cases single
  | case2 first second rest notDouble ih =>
      obtain ⟨inWord, restWord⟩ := List.forall_mem_cons.mp isWord
      obtain ⟨runEq, afterEq⟩ := ih restWord single
      obtain ⟨runCons, afterCons⟩ := run_inner_cons rest inWord notDouble
      exact ⟨by rw [runCons, runEq], afterCons ▸ afterEq⟩
  | case3 word short =>
      cases word with
      | nil => exact ⟨rfl, .inr rfl⟩
      | cons byte rest =>
          cases rest with
          | nil =>
              rw [run_cons, Place.write_of_ne next_inner_ne_dropped]
              exact ⟨rfl, ite_eq_or_eq ..⟩
          | cons second rest => exact (short byte second rest rfl).elim

/-- A word with a `77`, behind a byte that is no space: what stands behind the first `7` of it
is looked at as a whole. -/
theorem run_inner_double (isWord : ∀ byte ∈ word, endsWord byte = false)
    (double : behindDouble word = some part) :
    ∃ front, word = front ++ part ∧ front ≠ [] ∧
      search.run .inner word =
        front ++ (if isAddress part then boguscoinAddress else part) ∧
      (search.after .inner word = .kept ∨ search.after .inner word = .dropped) := by
  fun_induction behindDouble word with
  | case1 first second rest both =>
      obtain ⟨rfl, rfl⟩ := both
      cases double
      have restWord : ∀ byte ∈ rest, endsWord byte = false :=
        fun byte member => isWord byte (by simp [member])
      refine ⟨[seven], rfl, by simp, ?_, after_seven_token restWord⟩
      rw [run_inner_seven, run_seven_token restWord]
      rfl
  | case2 first second rest notDouble ih =>
      obtain ⟨inWord, restWord⟩ := List.forall_mem_cons.mp isWord
      obtain ⟨front, whole, -, runEq, afterEq⟩ := ih restWord double
      obtain ⟨runCons, afterCons⟩ := run_inner_cons rest inWord notDouble
      refine ⟨first :: front, by rw [whole]; rfl, by simp, ?_, afterCons ▸ afterEq⟩
      rw [runCons, runEq]
      rfl
  | case3 word short => cases double

/-- A token that is no address is changed by the search if and only if it embeds one. -/
theorem run_token_iff (isWord : ∀ byte ∈ word, endsWord byte = false) :
    (search.run .opened word = word ∨
        IsAddress word ∧ search.run .opened word = boguscoinAddress) ↔ ¬ EmbedsAddress word := by
  by_cases isSeven : word.head? = some seven
  · obtain ⟨word, rfl⟩ := List.head?_eq_some_iff.mp isSeven
    rw [run_seven_token (List.forall_mem_cons.mp isWord).2]
    refine iff_of_true ?_ fun embeds => embeds.1 isSeven
    split
    · next address => exact .inr ⟨⟨isSeven, address⟩, rfl⟩
    · exact .inl rfl
  · have noAddress : ¬ IsAddress word := fun address => isSeven address.1
    rw [run_opened_other isSeven, EmbedsAddress, and_iff_right isSeven]
    simp only [noAddress, false_and, or_false]
    cases double : behindDouble word with
    | none => simp [(run_inner_single isWord double).1]
    | some part =>
        obtain ⟨front, whole, -, runEq, -⟩ := run_inner_double isWord double
        have embeds : (∃ found, some part = some found ∧ isAddress found = true ∧
            found ≠ boguscoinAddress) ↔ isAddress part = true ∧ part ≠ boguscoinAddress := by
          simp
        rw [runEq, embeds, whole, List.append_cancel_left_eq, not_and, not_not]
        split
        · next address => simp [address, eq_comm]
        · next noAddress => simp [noAddress]

/-! ### Whole lines -/

theorem tokens_findAndReplace {msg out : U8BoundArray} (line : newline ∉ msg.items.dropLast)
    (done : findAndReplaceBoguscoinAddress msg = some out) :
    tokens out.items = (tokens msg.items).map (search.run .opened) ∧
      delimiters out.items = delimiters msg.items := by
  have rewrites : Rewrites 0 msg.items out.items := findAndReplace_iff.mp (by rw [done]; rfl)
  rw [rewrites.eq_run]
  exact tokens_run line

/-- Token by token, with the same spaces and newlines between them, every address of a line
is replaced, and what comes out as an address is the new one. -/
theorem addresses_replaced (msg out : U8BoundArray) (line : newline ∉ msg.items.dropLast)
    (done : findAndReplaceBoguscoinAddress msg = some out) :
    delimiters out.items = delimiters msg.items ∧
      List.Forall₂ (fun token new => (IsAddress token → new = boguscoinAddress) ∧
        (IsAddress new → new = boguscoinAddress)) (tokens msg.items) (tokens out.items) := by
  obtain ⟨tokensEq, delimitersEq⟩ := tokens_findAndReplace line done
  rw [tokensEq, List.forall₂_map_right_iff, List.forall₂_same]
  exact ⟨delimitersEq, fun token member => run_token (tokens_isWord _ token member)⟩

theorem addresses_replaced_payment :
    delimiters (ascii "pay 7YWHMfk9JZe0LM0g1ZauHuiSxhI now\n") =
        delimiters (ascii "pay 7F1u3wSD5RbOHQmupo9nx4TnhQ now\n") ∧
      List.Forall₂ (fun token new => (IsAddress token → new = boguscoinAddress) ∧
          (IsAddress new → new = boguscoinAddress))
        (tokens (ascii "pay 7F1u3wSD5RbOHQmupo9nx4TnhQ now\n"))
        (tokens (ascii "pay 7YWHMfk9JZe0LM0g1ZauHuiSxhI now\n")) :=
  addresses_replaced ⟨ascii "pay 7F1u3wSD5RbOHQmupo9nx4TnhQ now\n", by decide⟩
    ⟨ascii "pay 7YWHMfk9JZe0LM0g1ZauHuiSxhI now\n", by decide⟩ (by decide) (by decide +kernel)

/-- Nothing but addresses is replaced in a line, unless one of its tokens embeds an address. -/
theorem only_addresses_iff (msg out : U8BoundArray) (line : newline ∉ msg.items.dropLast)
    (done : findAndReplaceBoguscoinAddress msg = some out) :
    (delimiters out.items = delimiters msg.items ∧
      List.Forall₂ (fun token new => new = token ∨ IsAddress token ∧ new = boguscoinAddress)
        (tokens msg.items) (tokens out.items)) ↔
      ∀ token ∈ tokens msg.items, ¬ EmbedsAddress token := by
  obtain ⟨tokensEq, delimitersEq⟩ := tokens_findAndReplace line done
  rw [tokensEq, List.forall₂_map_right_iff, List.forall₂_same, and_iff_right delimitersEq]
  exact forall₂_congr fun token member => run_token_iff (tokens_isWord _ token member)

theorem only_addresses_iff_payment :
    (delimiters (ascii "pay 7YWHMfk9JZe0LM0g1ZauHuiSxhI now\n") =
        delimiters (ascii "pay 7F1u3wSD5RbOHQmupo9nx4TnhQ now\n") ∧
      List.Forall₂ (fun token new => new = token ∨ IsAddress token ∧ new = boguscoinAddress)
        (tokens (ascii "pay 7F1u3wSD5RbOHQmupo9nx4TnhQ now\n"))
        (tokens (ascii "pay 7YWHMfk9JZe0LM0g1ZauHuiSxhI now\n"))) ↔
      ∀ token ∈ tokens (ascii "pay 7F1u3wSD5RbOHQmupo9nx4TnhQ now\n"), ¬ EmbedsAddress token :=
  only_addresses_iff ⟨ascii "pay 7F1u3wSD5RbOHQmupo9nx4TnhQ now\n", by decide⟩
    ⟨ascii "pay 7YWHMfk9JZe0LM0g1ZauHuiSxhI now\n", by decide⟩ (by decide) (by decide +kernel)

/-- The address stands behind `a7`, in a token that is none, and is replaced. -/
theorem not_only_addresses :
    ¬ ∀ msg out : U8BoundArray, newline ∉ msg.items.dropLast →
      findAndReplaceBoguscoinAddress msg = some out →
        delimiters out.items = delimiters msg.items ∧
        List.Forall₂ (fun token new => new = token ∨ IsAddress token ∧ new = boguscoinAddress)
          (tokens msg.items) (tokens out.items) := by
  intro always
  obtain ⟨-, each⟩ := always ⟨ascii "a77F1u3wSD5RbOHQmupo9nx4TnhQ\n", by decide⟩
    ⟨ascii "a77YWHMfk9JZe0LM0g1ZauHuiSxhI\n", by decide⟩ (by decide) (by decide +kernel)
  revert each
  decide +kernel

end NetworkExercises.MobInTheMiddle
