/-
Module: NetworkExercises.MobInTheMiddle.Proofs.Rewriting
Purpose: What the search for addresses makes of a message, as a relation on the bytes that
  are left of it, and why a message of several lines is rewritten line by line.
Main exports: Rewrites, findAndReplace_iff, Rewrites.split, Rewrites.lines
-/
import NetworkExercises.Lib.Lines
import NetworkExercises.MobInTheMiddle.Boguscoin

namespace NetworkExercises.MobInTheMiddle

open Lib

/-! ### The search as a relation -/

/-- A `7` behind these bytes counts as the start of a word. -/
def Starts (front : Bytes) : Prop := front = [] ∨ front.getLast? = some space

instance (front : Bytes) : Decidable (Starts front) :=
  inferInstanceAs (Decidable (front = [] ∨ front.getLast? = some space))

/-- A word ends in front of these bytes. -/
def WordEnds (after : Bytes) : Prop := ∀ byte, after.head? = some byte → endsWord byte = true

/-- The turns of the search on the bytes from `start` on, up to the first of them that
returns: none of the bytes is a `7`; too few are left; the `7` is inside a word; its word is
no address; its word is replaced, and the message with the new address still fits. -/
inductive Rewrites : Nat → Bytes → Bytes → Prop where
  | clean {start : Nat} {rest : Bytes} (noSeven : seven ∉ rest) : Rewrites start rest rest
  | short {start : Nat} {front back : Bytes} (first : seven ∉ front)
      (few : back.length + 1 < 26) :
      Rewrites start (front ++ seven :: back) (front ++ seven :: back)
  | inside {start : Nat} {front back out : Bytes} (first : seven ∉ front)
      (enough : 26 ≤ back.length + 1) (notStart : ¬ Starts front)
      (rest : Rewrites (start + (front.length + 1)) back out) :
      Rewrites start (front ++ seven :: back) (front ++ seven :: out)
  | skipped {start : Nat} {front word after out : Bytes} (first : seven ∉ front)
      (enough : 26 ≤ (word ++ after).length + 1) (starts : Starts front)
      (isWord : ∀ byte ∈ word, endsWord byte = false) (ends : WordEnds after)
      (noAddress : isAddress (seven :: word) = false)
      (rest : Rewrites (start + (front.length + 1) + (word.length + 1)) (after.drop 1) out) :
      Rewrites start (front ++ seven :: (word ++ after))
        (front ++ seven :: (word ++ (after.take 1 ++ out)))
  | replaced {start : Nat} {front word after out : Bytes} (first : seven ∉ front)
      (starts : Starts front) (isWord : ∀ byte ∈ word, endsWord byte = false)
      (ends : WordEnds after) (address : isAddress (seven :: word) = true)
      (fits : start + (front ++ boguscoinAddress ++ after).length ≤ 1024)
      (rest : Rewrites (start + (front.length + 1) + 27) (after.drop 1) out) :
      Rewrites start (front ++ seven :: (word ++ after))
        (front ++ (boguscoinAddress ++ (after.take 1 ++ out)))

/-! ### One turn of the loop -/

variable {fuel start : Nat} {msg out : U8BoundArray} {pre front back word after : Bytes}

theorem boguscoinAddress_length : boguscoinAddress.length = 27 := by decide

theorem isAddress_length {word : Bytes} (address : isAddress word = true) : 26 ≤ word.length := by
  simp only [isAddress, Bool.and_eq_true, decide_eq_true_eq] at address
  exact address.1.2

theorem replaceLoop_end (fuel : Nat) (atEnd : msg.items.length ≤ start) :
    replaceLoop fuel start msg = some msg := by
  cases fuel with
  | zero => rfl
  | succ fuel => rw [replaceLoop, if_neg (by omega)]

theorem replaceLoop_clean (items : msg.items = pre ++ front) (noSeven : seven ∉ front) :
    replaceLoop fuel pre.length msg = some msg := by
  cases fuel with
  | zero => rfl
  | succ fuel =>
      have none : front.findIdx? (· == seven) = none := findIdx?_of_notMem noSeven
      rw [replaceLoop]
      simp only [items, List.drop_left, none]
      split <;> rfl

/-- The turn at the first `7` behind `start`. -/
theorem replaceLoop_seven (items : msg.items = pre ++ (front ++ seven :: back))
    (first : seven ∉ front) :
    replaceLoop (fuel + 1) pre.length msg =
      if back.length + 1 < 26 then some msg
      else if ¬ Starts front then replaceLoop fuel (pre.length + (front.length + 1)) msg
      else
        let word := seven :: back.takeWhile fun byte => !endsWord byte
        if isAddress word then
          (msg.replaceRange (pre.length + front.length) word.length boguscoinAddress).bind
            fun msg => replaceLoop fuel (pre.length + (front.length + 1) + 27) msg
        else replaceLoop fuel (pre.length + (front.length + 1) + word.length) msg := by
  have inside : pre.length < msg.items.length := by
    rw [items]
    simp only [List.length_append, List.length_cons]
    omega
  have few : front.length + 26 > (front ++ seven :: back).length ↔ back.length + 1 < 26 := by
    simp only [List.length_append, List.length_cons]
    omega
  have notStart : front.length ≠ 0 ∧ (front ++ seven :: back)[front.length - 1]? ≠ some space ↔
      ¬ Starts front := by
    rw [Starts, not_or, List.getLast?_eq_getElem?, ne_eq, List.length_eq_zero_iff]
    refine and_congr_right fun nonempty => ?_
    have positive := List.length_pos_iff.mpr nonempty
    rw [List.getElem?_append_left (by omega)]
  have walked : walk (front ++ seven :: back) front.length =
      seven :: back.takeWhile fun byte => !endsWord byte := by
    rw [walk, List.drop_left, List.takeWhile_cons_of_pos (by decide)]
  rw [replaceLoop, if_pos inside, items, List.drop_left]
  simp only [findIdx?_mark first, few, notStart, walked, boguscoinAddress_length,
    ← Nat.add_assoc, Nat.add_sub_cancel]
  generalize msg.replaceRange _ _ boguscoinAddress = replaced
  cases replaced with
  | none | some => rfl

theorem takeWhile_word (isWord : ∀ byte ∈ word, endsWord byte = false) (ends : WordEnds after) :
    ((word ++ after).takeWhile fun byte => !endsWord byte) = word := by
  rw [List.takeWhile_append_of_pos (by simpa using isWord)]
  cases after with
  | nil => simp
  | cons byte after =>
      rw [List.takeWhile_cons_of_neg (by simp [ends byte rfl]), List.append_nil]

/-- Every bytes begin with a word, and it is the one that the walk passes. -/
theorem exists_word (back : Bytes) :
    ∃ word after, back = word ++ after ∧ (∀ byte ∈ word, endsWord byte = false) ∧
      WordEnds after := by
  refine ⟨back.takeWhile fun byte => !endsWord byte, back.dropWhile fun byte => !endsWord byte,
    List.takeWhile_append_dropWhile.symm, fun byte member => ?_, fun byte head => ?_⟩
  · simpa using List.all_eq_true.mp List.all_takeWhile byte member
  · have stops := List.head?_dropWhile_not (fun byte => !endsWord byte) back
    rw [head] at stops
    simpa using stops

/-- The message with the new address in the place of the old one. -/
theorem replaceRange_address {replaced : U8BoundArray}
    (items : msg.items = pre ++ (front ++ seven :: (word ++ after))) :
    msg.replaceRange (pre.length + front.length) (seven :: word).length boguscoinAddress =
        some replaced ↔ replaced.items = pre ++ (front ++ (boguscoinAddress ++ after)) := by
  have before : msg.items.take (pre.length + front.length) = pre ++ front := by
    rw [items, ← List.append_assoc, ← List.length_append, List.take_left]
  have behind : msg.items.drop (pre.length + front.length + (seven :: word).length) = after := by
    have split : msg.items = (pre ++ front ++ seven :: word) ++ after := by
      simp [items]
    rw [split, ← List.length_append, ← List.length_append, List.drop_left]
  rw [BoundedArray.replaceRange, BoundedArray.fromSlice_eq_some, before, behind]
  simp

/-! ### The whole search -/

/-- The place behind a word and the byte that ends it, if there is one. -/
theorem behind_word {rest : Bytes} (items : msg.items = rest ++ after)
    (position : rest.length + 1 = start) :
    msg.items = (rest ++ after.take 1) ++ after.drop 1 ∧
      ((rest ++ after.take 1).length = start ∨
        after.drop 1 = [] ∧ (rest ++ after.take 1).length ≤ start) := by
  subst position
  cases after with
  | nil => exact ⟨by simpa using items, .inr ⟨rfl, by simp⟩⟩
  | cons byte after => exact ⟨by simpa using items, .inl (by simp)⟩

theorem position_skipped (pre front word : Bytes) :
    (pre ++ (front ++ seven :: word)).length + 1 =
      pre.length + (front.length + 1) + (word.length + 1) := by
  simp only [List.length_append, List.length_cons]
  omega

theorem position_replaced (pre front : Bytes) :
    (pre ++ (front ++ boguscoinAddress)).length + 1 =
      pre.length + (front.length + 1) + 27 := by
  simp only [List.length_append, boguscoinAddress_length]
  omega

/-- What the loop returns is what the relation says. -/
theorem replaceLoop_sound {cslice : Bytes} (items : msg.items = pre ++ cslice)
    (place : pre.length = start ∨ cslice = [] ∧ pre.length ≤ start)
    (enough : cslice.length ≤ fuel) (done : replaceLoop fuel start msg = some out) :
    ∃ result, Rewrites start cslice result ∧ out.items = pre ++ result := by
  induction fuel generalizing start msg pre cslice with
  | zero =>
      rw [Nat.le_zero, List.length_eq_zero_iff] at enough
      subst enough
      cases done
      exact ⟨[], .clean (by simp), items⟩
  | succ fuel ih =>
      by_cases noSeven : seven ∉ cslice
      · have ended : replaceLoop (fuel + 1) start msg = some msg := by
          rcases place with rfl | ⟨rfl, behind⟩
          · exact replaceLoop_clean items noSeven
          · exact replaceLoop_end _ (by simpa [items] using behind)
        rw [ended, Option.some.injEq] at done
        exact ⟨cslice, .clean noSeven, done ▸ items⟩
      obtain ⟨front, back, rfl, first⟩ := List.eq_append_cons_of_mem (not_not.mp noSeven)
      obtain rfl : pre.length = start := by
        rcases place with same | ⟨nothing, -⟩
        · exact same
        · simp at nothing
      rw [replaceLoop_seven items first] at done
      simp only [List.length_append, List.length_cons] at enough
      split at done
      · next few =>
        cases done
        exact ⟨_, .short first few, items⟩
      next many =>
      split at done
      · next notStart =>
        have next : msg.items = (pre ++ (front ++ [seven])) ++ back := by simpa using items
        obtain ⟨result, rewrites, outEq⟩ := ih next (.inl (by simp)) (by omega) done
        exact ⟨_, .inside first (by omega) notStart rewrites, by simpa using outEq⟩
      next starts =>
      obtain ⟨word, after, rfl, isWord, ends⟩ := exists_word back
      simp only [takeWhile_word isWord ends] at done
      simp only [List.length_append] at enough many
      have left : (after.drop 1).length ≤ fuel := by
        rw [List.length_drop]
        omega
      split at done
      · next address =>
        obtain ⟨replaced, replaceEq, done⟩ := Option.bind_eq_some_iff.mp done
        rw [replaceRange_address items] at replaceEq
        have next : replaced.items = (pre ++ (front ++ boguscoinAddress)) ++ after := by
          simpa using replaceEq
        obtain ⟨nextItems, nextPlace⟩ := behind_word next (position_replaced pre front)
        obtain ⟨result, rewrites, outEq⟩ := ih nextItems nextPlace left done
        refine ⟨_, .replaced first (not_not.mp starts) isWord ends address ?_ rewrites,
          by simpa using outEq⟩
        have room := replaced.fits
        rw [next] at room
        simpa [Nat.add_assoc] using room
      · next noAddress =>
        have next : msg.items = (pre ++ (front ++ seven :: word)) ++ after := by
          simpa using items
        obtain ⟨nextItems, nextPlace⟩ := behind_word next (position_skipped pre front word)
        obtain ⟨result, rewrites, outEq⟩ := ih nextItems nextPlace left done
        refine ⟨_, .skipped first ?_ (not_not.mp starts) isWord ends
          (Bool.eq_false_iff.mpr noAddress) rewrites, by simpa using outEq⟩
        rw [List.length_append]
        omega

/-- Where the loop goes on, if any bytes are left. -/
theorem place_of_cons {cslice : Bytes}
    (place : pre.length = start ∨ cslice = [] ∧ pre.length ≤ start)
    (nonempty : cslice ≠ []) : pre.length = start := by
  rcases place with same | ⟨nothing, -⟩
  · exact same
  · exact absurd nothing nonempty

/-- What the relation says the loop returns, given enough turns. -/
theorem replaceLoop_complete {cslice result : Bytes} (rewrites : Rewrites start cslice result)
    (items : msg.items = pre ++ cslice)
    (place : pre.length = start ∨ cslice = [] ∧ pre.length ≤ start)
    (enough : cslice.length ≤ fuel) :
    ∃ out, replaceLoop fuel start msg = some out ∧ out.items = pre ++ result := by
  induction rewrites generalizing fuel msg pre with
  | clean noSeven =>
      rcases place with rfl | ⟨rfl, behind⟩
      · exact ⟨msg, replaceLoop_clean items noSeven, items⟩
      · exact ⟨msg, replaceLoop_end _ (by simpa [items] using behind), items⟩
  | short first few =>
      obtain rfl := place_of_cons place (by simp)
      cases fuel with
      | zero => simp at enough
      | succ fuel => exact ⟨msg, by rw [replaceLoop_seven items first, if_pos few], items⟩
  | @inside start front back result first many notStart _ ih =>
      obtain rfl := place_of_cons place (by simp)
      cases fuel with
      | zero => simp at enough
      | succ fuel =>
          have next : msg.items = (pre ++ (front ++ [seven])) ++ back := by simpa using items
          simp only [List.length_append, List.length_cons] at enough
          obtain ⟨out, done, outEq⟩ := ih next (.inl (by simp)) (show back.length ≤ fuel by omega)
          refine ⟨out, ?_, by simpa using outEq⟩
          rw [replaceLoop_seven items first, if_neg (by omega), if_pos notStart, done]
  | @skipped start front word after result first many starts isWord ends noAddress _ ih =>
      obtain rfl := place_of_cons place (by simp)
      cases fuel with
      | zero => simp at enough
      | succ fuel =>
          have next : msg.items = (pre ++ (front ++ seven :: word)) ++ after := by
            simpa using items
          obtain ⟨nextItems, nextPlace⟩ := behind_word next (position_skipped pre front word)
          simp only [List.length_append, List.length_cons] at enough many
          obtain ⟨out, done, outEq⟩ := ih nextItems nextPlace
            (show (after.drop 1).length ≤ fuel by rw [List.length_drop]; omega)
          refine ⟨out, ?_, by simpa using outEq⟩
          rw [replaceLoop_seven items first, if_neg (by rw [List.length_append]; omega),
            if_neg (not_not.mpr starts)]
          simp only [takeWhile_word isWord ends, noAddress, Bool.false_eq_true, if_false]
          exact done
  | @replaced start front word after result first starts isWord ends address fits _ ih =>
      obtain rfl := place_of_cons place (by simp)
      cases fuel with
      | zero => simp at enough
      | succ fuel =>
          have long := isAddress_length address
          have room : (pre ++ (front ++ (boguscoinAddress ++ after))).length ≤ 1024 := by
            simpa [Nat.add_assoc] using fits
          have replaceEq : msg.replaceRange (pre.length + front.length) (seven :: word).length
              boguscoinAddress = some ⟨_, room⟩ := (replaceRange_address items).mpr rfl
          have next : (⟨_, room⟩ : U8BoundArray).items =
              (pre ++ (front ++ boguscoinAddress)) ++ after := by simp
          obtain ⟨nextItems, nextPlace⟩ := behind_word next (position_replaced pre front)
          simp only [List.length_append, List.length_cons] at enough long
          obtain ⟨out, done, outEq⟩ := ih nextItems nextPlace
            (show (after.drop 1).length ≤ fuel by rw [List.length_drop]; omega)
          refine ⟨out, ?_, by simpa using outEq⟩
          rw [replaceLoop_seven items first, if_neg (by rw [List.length_append]; omega),
            if_neg (not_not.mpr starts)]
          simp only [takeWhile_word isWord ends, address, if_true]
          rw [replaceEq, Option.bind_some, done]

/-- What `find_and_replace_boguscoin_address` returns. -/
theorem findAndReplace_iff {result : Bytes} :
    (findAndReplaceBoguscoinAddress msg).map BoundedArray.items = some result ↔
      Rewrites 0 msg.items result := by
  have whole : findAndReplaceBoguscoinAddress msg = replaceLoop msg.items.length 0 msg := by
    unfold findAndReplaceBoguscoinAddress
    split
    · next empty => rw [replaceLoop_end _ (by omega)]
    · rfl
  rw [whole, Option.map_eq_some_iff]
  constructor
  · rintro ⟨out, done, rfl⟩
    obtain ⟨result, rewrites, outEq⟩ :=
      replaceLoop_sound (List.nil_append _).symm (.inl rfl) le_rfl done
    rw [List.nil_append] at outEq
    exact outEq ▸ rewrites
  · intro rewrites
    obtain ⟨out, done, outEq⟩ :=
      replaceLoop_complete rewrites (List.nil_append _).symm (.inl rfl) le_rfl
    exact ⟨out, done, by simpa using outEq⟩

/-! ### Several lines -/

theorem Rewrites.mono {cslice result : Bytes} {other : Nat}
    (rewrites : Rewrites start cslice result) (le : other ≤ start) :
    Rewrites other cslice result := by
  induction rewrites generalizing other with
  | clean noSeven => exact .clean noSeven
  | short first few => exact .short first few
  | inside first many notStart _ ih => exact .inside first many notStart (ih (by omega))
  | skipped first many starts isWord ends noAddress _ ih =>
      exact .skipped first many starts isWord ends noAddress (ih (by omega))
  | replaced first starts isWord ends address fits _ ih =>
      exact .replaced first starts isWord ends address (by omega) (ih (by omega))

/-- Less than 26 bytes stay as they are. -/
theorem Rewrites.few {cslice result : Bytes} (rewrites : Rewrites start cslice result)
    (few : cslice.length < 26) : result = cslice := by
  cases rewrites with
  | clean | short => rfl
  | inside _ many | skipped _ many =>
      simp only [List.length_append, List.length_cons] at few many
      omega
  | replaced _ _ _ _ address =>
      have long := isAddress_length address
      simp only [List.length_append, List.length_cons] at few long
      omega

theorem rewrites_few {cslice : Bytes} (few : cslice.length < 26) :
    Rewrites start cslice cslice := by
  by_cases noSeven : seven ∉ cslice
  · exact .clean noSeven
  · obtain ⟨front, back, rfl, first⟩ := List.eq_append_cons_of_mem (not_not.mp noSeven)
    simp only [List.length_append, List.length_cons] at few
    exact .short first (by omega)

/-- The first `7` of two parts is in the one or in the other. -/
theorem seven_split {a b : Bytes} (whole : a ++ b = front ++ seven :: back)
    (first : seven ∉ front) :
    (∃ more, a = front ++ seven :: more ∧ back = more ++ b) ∨
      seven ∉ a ∧ ∃ more, front = a ++ more ∧ b = more ++ seven :: back := by
  rcases List.append_eq_append_iff.mp whole with ⟨more, frontEq, bEq⟩ | ⟨more, aEq, backEq⟩
  · refine .inr ⟨fun member => first ?_, more, frontEq, bEq⟩
    rw [frontEq]
    exact List.mem_append_left _ member
  · cases more with
    | nil =>
        rw [List.append_nil] at aEq
        refine .inr ⟨aEq ▸ first, [], by simp [aEq], by simpa using backEq.symm⟩
    | cons byte more =>
        rw [List.cons_append, List.cons.injEq] at backEq
        obtain ⟨rfl, backEq⟩ := backEq
        exact .inl ⟨more, aEq, backEq⟩

/-- What precedes the last bytes does not matter to the start of a word behind them. -/
theorem starts_append {a more : Bytes} (nonempty : more ≠ []) :
    Starts (a ++ more) ↔ Starts more := by
  obtain ⟨init, last, rfl⟩ := (List.eq_nil_or_concat more).resolve_left nonempty
  simp [Starts, ← List.append_assoc]

/-- The start of a word is one without the bytes in front, too. -/
theorem Starts.behind {a more : Bytes} (starts : Starts (a ++ more)) : Starts more := by
  by_cases empty : more = []
  · exact .inl empty
  · exact (starts_append empty).mp starts

/-- The bytes behind a `7` end a line, too. -/
theorem ends_behind {more : Bytes} (ends : (front ++ seven :: more).getLast? = some newline) :
    more.getLast? = some newline := by
  cases more using List.reverseRecOn with
  | nil =>
      rw [List.getLast?_concat] at ends
      cases ends
  | append_singleton more last =>
      rw [← List.cons_append, ← List.append_assoc, List.getLast?_concat] at ends
      rwa [List.getLast?_concat]

/-- A word ends within its line. -/
theorem word_in_line {more b : Bytes} (whole : word ++ after = more ++ b)
    (isWord : ∀ byte ∈ word, endsWord byte = false) (wordEnds : WordEnds after)
    (ends : more.getLast? = some newline) :
    ∃ byte rest, more = word ++ byte :: rest ∧ after = byte :: (rest ++ b) ∧
      WordEnds (byte :: rest) ∧ (rest = [] ∨ rest.getLast? = some newline) := by
  have lineEnd : newline ∉ word := by
    intro member
    have := isWord newline member
    simp [endsWord] at this
  have member : newline ∈ more := List.mem_of_getLast? ends
  rcases List.append_eq_append_iff.mp whole with ⟨rest, rfl, afterEq⟩ | ⟨rest, wordEq, -⟩
  · cases rest with
    | nil =>
        rw [List.append_nil] at member
        exact absurd member lineEnd
    | cons byte rest =>
        refine ⟨byte, rest, rfl, afterEq, fun other head => wordEnds other ?_, ?_⟩
        · rw [afterEq]
          exact head
        · rw [List.getLast?_append_of_ne_nil _ (List.cons_ne_nil _ _)] at ends
          cases rest with
          | nil => exact .inl rfl
          | cons other rest => exact .inr (by simpa using ends)
  · rw [wordEq] at lineEnd
    exact absurd (List.mem_append_left _ member) lineEnd

/-- The first `7` of some lines and what follows is in the lines, and its word with it, or
behind them. -/
theorem word_split {a b : Bytes} (whole : a ++ b = front ++ seven :: (word ++ after))
    (first : seven ∉ front) (starts : Starts front)
    (isWord : ∀ byte ∈ word, endsWord byte = false) (wordEnds : WordEnds after)
    (ends : a = [] ∨ a.getLast? = some newline) :
    (∃ byte rest, a = front ++ seven :: (word ++ byte :: rest) ∧ after = byte :: (rest ++ b) ∧
        WordEnds (byte :: rest) ∧ (rest = [] ∨ rest.getLast? = some newline)) ∨
      seven ∉ a ∧ ∃ more, front = a ++ more ∧ b = more ++ seven :: (word ++ after) ∧
        seven ∉ more ∧ Starts more := by
  rcases seven_split whole first with ⟨more, rfl, backEq⟩ | ⟨clean, more, rfl, rfl⟩
  · have lineEnds := ends_behind (ends.resolve_left (by simp))
    obtain ⟨byte, rest, rfl, afterEq, restEnds, lineRest⟩ :=
      word_in_line backEq isWord wordEnds lineEnds
    exact .inl ⟨byte, rest, rfl, afterEq, restEnds, lineRest⟩
  · rw [List.mem_append, not_or] at first
    exact .inr ⟨clean, more, rfl, rfl, first.2, starts.behind⟩

/-- The search rejects a `7` as the start of a word although it begins a line: only the
beginning of what is left of the message and the byte behind a space count as one. -/
inductive MissesLine : Bytes → Prop where
  | here {front back : Bytes} (first : seven ∉ front) (enough : 26 ≤ back.length + 1)
      (behind : front.getLast? = some newline) : MissesLine (front ++ seven :: back)
  | inside {front back : Bytes} (first : seven ∉ front) (notStart : ¬ Starts front)
      (rest : MissesLine back) : MissesLine (front ++ seven :: back)
  | word {front word after : Bytes} (first : seven ∉ front) (starts : Starts front)
      (isWord : ∀ byte ∈ word, endsWord byte = false) (ends : WordEnds after)
      (rest : MissesLine (after.drop 1)) : MissesLine (front ++ seven :: (word ++ after))

theorem MissesLine.enough {cslice : Bytes} (missed : MissesLine cslice) : 26 ≤ cslice.length := by
  induction missed with
  | here first enough =>
      rw [List.length_append, List.length_cons]
      omega
  | inside first notStart rest ih =>
      rw [List.length_append, List.length_cons]
      omega
  | word first starts isWord ends rest ih =>
      rw [List.length_drop] at ih
      simp only [List.length_append, List.length_cons]
      omega

/-- Where no `7` stands directly behind a newline, none is missed. -/
theorem MissesLine.infix {cslice : Bytes} (missed : MissesLine cslice) :
    [newline, seven] <:+: cslice := by
  induction missed with
  | @here front back first enough behind =>
      obtain ⟨front, rfl⟩ := List.getLast?_eq_some_iff.mp behind
      exact ⟨front, back, by simp⟩
  | @inside front back first notStart rest ih =>
      exact ih.trans ⟨front ++ [seven], [], by simp⟩
  | @word front word after first starts isWord ends rest ih =>
      exact ih.trans ((List.drop_suffix 1 after).isInfix.trans
        ⟨front ++ seven :: word, [], by simp⟩)

/-- A start that is missed behind some lines is missed in the whole. -/
theorem MissesLine.behind {a b : Bytes} (missed : MissesLine b)
    (ends : a = [] ∨ a.getLast? = some newline) : MissesLine (a ++ b) := by
  induction length : a.length using Nat.strong_induction_on generalizing a with
  | _ size ih =>
      rcases ends with rfl | ends
      · exact missed
      have enough := missed.enough
      by_cases noSeven : seven ∉ a
      · cases missed with
        | @here front back first many behind =>
            rw [← List.append_assoc]
            refine .here (by simp [noSeven, first]) many ?_
            rw [List.getLast?_append, behind, Option.some_or]
        | @inside front back first notStart rest =>
            have nonempty : front ≠ [] := fun empty => notStart (.inl empty)
            rw [← List.append_assoc]
            refine .inside (by simp [noSeven, first]) ?_ rest
            rwa [starts_append nonempty]
        | @word front word after first starts isWord wordEnds rest =>
            by_cases empty : front = []
            · subst empty
              exact .here noSeven (by simpa using enough) ends
            · rw [← List.append_assoc]
              refine .word (by simp [noSeven, first]) ?_ isWord wordEnds rest
              rwa [starts_append empty]
      · obtain ⟨front, more, rfl, first⟩ := List.eq_append_cons_of_mem (not_not.mp noSeven)
        have moreEnds := ends_behind ends
        rw [List.length_append, List.length_cons] at length
        rw [List.append_assoc, List.cons_append]
        by_cases starts : Starts front
        · obtain ⟨word, after, whole, isWord, wordEnds⟩ := exists_word (more ++ b)
          obtain ⟨byte, rest, rfl, rfl, -, restEnds⟩ :=
            word_in_line whole.symm isWord wordEnds moreEnds
          rw [whole]
          refine .word first starts isWord wordEnds (ih rest.length ?_ restEnds rfl)
          rw [List.length_append, List.length_cons] at length
          omega
        · exact .inside first starts (ih more.length (by omega) (.inr moreEnds) rfl)

/-- A `7` inside a word, with as many bytes left as may be. -/
theorem Rewrites.pass_inside {result : Bytes} (first : seven ∉ front) (notStart : ¬ Starts front)
    (rest : Rewrites (start + (front.length + 1)) back result) :
    Rewrites start (front ++ seven :: back) (front ++ seven :: result) := by
  by_cases many : 26 ≤ back.length + 1
  · exact .inside first many notStart rest
  · rw [rest.few (by omega)]
    exact .short first (by omega)

/-- A word that is no address, with as many bytes left as may be. -/
theorem Rewrites.pass_word {result : Bytes} (first : seven ∉ front) (starts : Starts front)
    (isWord : ∀ byte ∈ word, endsWord byte = false) (wordEnds : WordEnds after)
    (noAddress : isAddress (seven :: word) = false)
    (rest : Rewrites (start + (front.length + 1) + (word.length + 1)) (after.drop 1) result) :
    Rewrites start (front ++ seven :: (word ++ after))
      (front ++ seven :: (word ++ (after.take 1 ++ result))) := by
  by_cases many : 26 ≤ (word ++ after).length + 1
  · exact .skipped first many starts isWord wordEnds noAddress rest
  · have few : (after.drop 1).length < 26 := by
      rw [List.length_append] at many
      rw [List.length_drop]
      omega
    rw [rest.few few, List.take_append_drop]
    exact .short first (by omega)

/-- Lines in front are rewritten on their own, unless the search misses the start of a line. -/
theorem Rewrites.split {a b cslice result : Bytes} (rewrites : Rewrites start cslice result)
    (whole : a ++ b = cslice) (ends : a = [] ∨ a.getLast? = some newline)
    (met : ¬ MissesLine cslice) :
    ∃ outA outB, result = outA ++ outB ∧ Rewrites start a outA ∧ Rewrites start b outB := by
  induction rewrites generalizing a with
  | @clean start rest clean =>
      subst whole
      rw [List.mem_append, not_or] at clean
      exact ⟨a, b, rfl, .clean clean.1, .clean clean.2⟩
  | @short start front back first few =>
      refine ⟨a, b, whole.symm, ?_⟩
      rcases seven_split whole first with ⟨more, rfl, rfl⟩ | ⟨clean, more, rfl, rfl⟩
      · rw [List.length_append] at few
        exact ⟨.short first (by omega), rewrites_few (by omega)⟩
      · rw [List.mem_append, not_or] at first
        exact ⟨.clean clean, .short first.2 few⟩
  | @inside start front back result first many notStart rest ih =>
      have later : ¬ MissesLine back := fun missed => met (.inside first notStart missed)
      rcases seven_split whole first with ⟨more, rfl, rfl⟩ | ⟨clean, more, rfl, rfl⟩
      · have lineEnds := ends_behind (ends.resolve_left (by simp))
        obtain ⟨outA, outB, rfl, rewritesA, rewritesB⟩ := ih rfl (.inr lineEnds) later
        exact ⟨front ++ seven :: outA, outB, by simp, .pass_inside first notStart rewritesA,
          rewritesB.mono (by omega)⟩
      · -- Directly behind the lines in front, this `7` would be missed.
        have nonempty : more ≠ [] := by
          rintro rfl
          rw [List.append_nil] at first notStart met
          exact met (.here first many (ends.resolve_left fun empty => notStart (.inl empty)))
        rw [starts_append nonempty] at notStart
        rw [List.mem_append, not_or] at first
        refine ⟨a, more ++ seven :: result, by simp, .clean clean,
          .inside first.2 many notStart (rest.mono ?_)⟩
        rw [List.length_append]
        omega
  | @skipped start front word after result first many starts isWord wordEnds noAddress rest ih =>
      have later : ¬ MissesLine (after.drop 1) :=
        fun missed => met (.word first starts isWord wordEnds missed)
      rcases word_split whole first starts isWord wordEnds ends with
        ⟨byte, line, rfl, rfl, lineWord, lineRest⟩ | ⟨clean, more, rfl, rfl, behind, moreStarts⟩
      · obtain ⟨outA, outB, rfl, rewritesA, rewritesB⟩ := ih rfl lineRest later
        exact ⟨front ++ seven :: (word ++ ((byte :: line).take 1 ++ outA)), outB, by simp,
          .pass_word first starts isWord lineWord noAddress rewritesA,
          rewritesB.mono (by omega)⟩
      · refine ⟨a, more ++ seven :: (word ++ (after.take 1 ++ result)), by simp, .clean clean,
          .skipped behind many moreStarts isWord wordEnds noAddress (rest.mono ?_)⟩
        rw [List.length_append]
        omega
  | @replaced start front word after result first starts isWord wordEnds address fits rest ih =>
      have later : ¬ MissesLine (after.drop 1) :=
        fun missed => met (.word first starts isWord wordEnds missed)
      rcases word_split whole first starts isWord wordEnds ends with
        ⟨byte, line, rfl, rfl, lineWord, lineRest⟩ | ⟨clean, more, rfl, rfl, behind, moreStarts⟩
      · obtain ⟨outA, outB, rfl, rewritesA, rewritesB⟩ := ih rfl lineRest later
        refine ⟨front ++ (boguscoinAddress ++ ((byte :: line).take 1 ++ outA)), outB, by simp,
          .replaced first starts isWord lineWord address ?_ rewritesA,
          rewritesB.mono (by omega)⟩
        simp only [List.length_append, List.length_cons] at fits ⊢
        omega
      · refine ⟨a, more ++ (boguscoinAddress ++ (after.take 1 ++ result)), by simp, .clean clean,
          .replaced behind moreStarts isWord wordEnds address ?_ (rest.mono ?_)⟩
        · simp only [List.length_append] at fits ⊢
          omega
        · rw [List.length_append]
          omega

/-- A message of whole lines is rewritten line by line, unless the search misses the start
of one of them. -/
theorem Rewrites.lines {buffer result : Bytes} (rewrites : Rewrites start buffer result)
    (ends : buffer = [] ∨ buffer.getLast? = some newline) (met : ¬ MissesLine buffer) :
    ∃ outs, List.Forall₂ (Rewrites start) (splitLines newline buffer).1 outs ∧
      result = outs.flatten := by
  induction length : buffer.length using Nat.strong_induction_on generalizing buffer result with
  | _ size ih =>
      rcases ends with rfl | ends
      · exact ⟨[], .nil, rewrites.few (by simp)⟩
      obtain ⟨line, rest, rfl, unmarked⟩ := List.eq_append_cons_of_mem (List.mem_of_getLast? ends)
      have lineEnds : (line ++ [newline]).getLast? = some newline := List.getLast?_concat
      have restEnds : rest = [] ∨ rest.getLast? = some newline := by
        cases rest with
        | nil => exact .inl rfl
        | cons byte rest => exact .inr (by simpa using ends)
      rw [List.append_cons] at met
      obtain ⟨outLine, outRest, rfl, rewritesLine, rewritesRest⟩ :=
        rewrites.split (List.append_cons line newline rest).symm (.inr lineEnds)
          (by rwa [List.append_cons])
      have shorter : rest.length < size := by
        rw [← length, List.length_append, List.length_cons]
        omega
      obtain ⟨outs, each, rfl⟩ := ih rest.length shorter rewritesRest restEnds
        (fun missed => met (missed.behind (.inr lineEnds))) rfl
      rw [splitLines_line unmarked]
      exact ⟨outLine :: outs, .cons rewritesLine each, by simp⟩

end NetworkExercises.MobInTheMiddle
