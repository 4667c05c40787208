/-
Module: NetworkExercises.MobInTheMiddle.Proofs.Searching
Purpose: The search for addresses as a machine that reads a message byte by byte, and why a
  second search changes nothing.
Main exports: Place, search, Rewrites.eq_run, Rewrites.again, findAndReplace_idempotent
-/
import NetworkExercises.Lib.Transducer
import NetworkExercises.MobInTheMiddle.Proofs.Rewriting

namespace NetworkExercises.MobInTheMiddle

open Lib

/-! ### The search as a machine -/

/-- What the search has seen in front of a byte: a `7` would start a word here; the byte is
inside a word; it belongs to a word that stays; it belongs to an address that is replaced. -/
inductive Place where
  | opened
  | inner
  | kept
  | dropped
  deriving DecidableEq, Repr

/-- The place behind a byte. -/
def Place.next (place : Place) (byte : UInt8) (rest : Bytes) : Place :=
  match place with
  | .opened =>
      if byte = seven then if isAddress (walk (byte :: rest) 0) then .dropped else .kept
      else if byte = space then .opened else .inner
  | .inner => if byte = seven ∨ byte = space then .opened else .inner
  | .kept => if endsWord byte then .opened else .kept
  | .dropped => if endsWord byte then .opened else .dropped

/-- What is written for a byte: the new address stands in the place of the first byte of an
old one. -/
def Place.write (place : Place) (byte : UInt8) (rest : Bytes) : Bytes :=
  if place.next byte rest = .dropped then
    if place = .opened then boguscoinAddress else []
  else [byte]

/-- `find_and_replace_boguscoin_address` as a machine. -/
def search : Transducer Place UInt8 where
  next := Place.next
  write := Place.write

variable {start : Nat} {place : Place} {byte : UInt8} {front back word after rest : Bytes}

theorem run_cons : search.run place (byte :: rest) =
    place.write byte rest ++ search.run (place.next byte rest) rest := rfl

theorem after_cons : search.after place (byte :: rest) =
    search.after (place.next byte rest) rest := rfl

/-- A byte is written as it is, unless it belongs to an old address. -/
theorem Place.write_of_ne (stays : place.next byte rest ≠ .dropped) :
    place.write byte rest = [byte] := by
  rw [Place.write, if_neg stays]

/-- The place behind bytes that hold no `7` and no end of a word that was found. -/
def Place.behind (place : Place) (front : Bytes) : Place :=
  front.getLast?.elim place fun byte => if byte = space then .opened else .inner

theorem walk_seven : walk (seven :: rest) 0 =
    seven :: rest.takeWhile fun byte => !endsWord byte := by
  rw [walk, List.drop_zero, List.takeWhile_cons_of_pos (by decide)]

theorem walk_word (isWord : ∀ byte ∈ word, endsWord byte = false) (ends : WordEnds after) :
    walk (seven :: (word ++ after)) 0 = seven :: word := by
  rw [walk_seven, takeWhile_word isWord ends]

/-- Only the word behind a `7` decides what the search does there. -/
theorem blind_of_walk (walks : ∀ more, seven :: more <:+ front →
    walk (seven :: (more ++ back)) 0 = walk (seven :: more) 0) : search.Blind front back := by
  intro byte more suffix place
  have next : place.next byte (more ++ back) = place.next byte more := by
    cases place with
    | opened =>
        by_cases isSeven : byte = seven
        · subst isSeven
          simp only [Place.next, walks more suffix]
        · simp only [Place.next, if_neg isSeven]
    | inner | kept | dropped => rfl
  refine ⟨next, ?_⟩
  simp only [search, Place.write, next]

theorem blind_of_wordEnds (ends : WordEnds back) : search.Blind front back := by
  refine blind_of_walk fun more _ => ?_
  obtain ⟨word, after, rfl, isWord, wordEnds⟩ := exists_word more
  rw [walk_word isWord wordEnds, List.append_assoc, walk_word isWord]
  intro byte head
  cases after with
  | nil => exact ends byte head
  | cons other after => exact wordEnds byte head

theorem blind_of_clean (clean : seven ∉ front) : search.Blind front back :=
  blind_of_walk fun _ suffix => absurd (suffix.subset List.mem_cons_self) clean

/-! ### What the machine does with the parts of a message -/

/-- A word that stays. -/
theorem run_kept (isWord : ∀ byte ∈ word, endsWord byte = false) :
    search.run .kept word = word ∧ search.after .kept word = .kept := by
  have stays : ∀ byte rest, endsWord byte = false → search.next .kept byte rest = .kept := by
    intro byte rest inWord
    simp [search, Place.next, inWord]
  have written : ∀ byte rest, endsWord byte = false → search.write .kept byte rest = [byte] := by
    intro byte rest inWord
    simp [search, Place.write, Place.next, inWord]
  simpa using Transducer.run_of_stays stays written isWord

/-- A word that has been replaced. -/
theorem run_dropped (isWord : ∀ byte ∈ word, endsWord byte = false) :
    search.run .dropped word = [] ∧ search.after .dropped word = .dropped := by
  have stays : ∀ byte rest, endsWord byte = false → search.next .dropped byte rest = .dropped := by
    intro byte rest inWord
    simp [search, Place.next, inWord]
  have written : ∀ byte rest, endsWord byte = false → search.write .dropped byte rest = [] := by
    intro byte rest inWord
    simp [search, Place.write, Place.next, inWord]
  obtain ⟨runEq, afterEq⟩ := Transducer.run_of_stays stays written isWord
  exact ⟨runEq.trans (by simp), afterEq⟩

/-- Behind a word, the search goes on as at the beginning. -/
theorem run_behind (ends : WordEnds after) (behind : place = .kept ∨ place = .dropped) :
    search.run place after = after.take 1 ++ search.run .opened (after.drop 1) := by
  cases after with
  | nil => rfl
  | cons byte after =>
      have ended := ends byte rfl
      rcases behind with rfl | rfl
      · simp [Transducer.run, search, Place.write, Place.next, ended]
      · simp [Transducer.run, search, Place.write, Place.next, ended]

/-- Bytes without a `7` stay as they are. -/
theorem run_clean (clean : seven ∉ front) (looking : place = .opened ∨ place = .inner) :
    search.run place front = front ∧ search.after place front = place.behind front := by
  induction front generalizing place with
  | nil => exact ⟨rfl, rfl⟩
  | cons byte front ih =>
      rw [List.mem_cons, not_or] at clean
      have other : byte ≠ seven := fun same => clean.1 same.symm
      have next : place.next byte front = if byte = space then .opened else .inner := by
        rcases looking with rfl | rfl
        · simp [Place.next, other]
        · simp [Place.next, other]
      have looks : place.next byte front = .opened ∨ place.next byte front = .inner := by
        rw [next]
        exact ite_eq_or_eq ..
      have stays : place.next byte front ≠ .dropped := by
        rcases looks with same | same
        · simp [same]
        · simp [same]
      obtain ⟨runEq, afterEq⟩ := ih clean.2 looks
      constructor
      · rw [run_cons, Place.write_of_ne stays, runEq, List.singleton_append]
      · rw [after_cons, afterEq, next, Place.behind, Place.behind, List.getLast?_cons]
        cases front.getLast? with
        | none | some => rfl

/-- The search at the first `7`. -/
theorem run_seven (first : seven ∉ front) :
    search.run .opened (front ++ seven :: back) =
      front ++ search.run (if Starts front then .opened else .inner) (seven :: back) := by
  obtain ⟨runEq, afterEq⟩ : search.run .opened front = front ∧
      search.after .opened front = Place.behind .opened front := run_clean first (.inl rfl)
  have behind : Place.behind .opened front = if Starts front then .opened else .inner := by
    cases front using List.reverseRecOn with
    | nil => rfl
    | append_singleton front byte => simp [Place.behind, Starts]
  rw [(blind_of_clean first).run_append, runEq, afterEq, behind]

/-- A `7` inside a word stays, and the search goes on behind it as at the beginning. -/
theorem run_inner_seven : search.run .inner (seven :: back) = seven :: search.run .opened back := by
  simp [Transducer.run, search, Place.write, Place.next]

/-- A word that begins with `7`. -/
theorem run_opened_seven (isWord : ∀ byte ∈ word, endsWord byte = false) (ends : WordEnds after) :
    search.run .opened (seven :: (word ++ after)) =
      (if isAddress (seven :: word) then boguscoinAddress else seven :: word) ++
        (after.take 1 ++ search.run .opened (after.drop 1)) := by
  have next : Place.next .opened seven (word ++ after) =
      if isAddress (seven :: word) then .dropped else .kept := by
    simp [Place.next, walk_word isWord ends]
  have written : Place.write .opened seven (word ++ after) =
      if isAddress (seven :: word) then boguscoinAddress else [seven] := by
    simp only [Place.write, next, if_true]
    split <;> rfl
  rw [run_cons, next, written, (blind_of_wordEnds ends).run_append]
  split
  · rw [(run_dropped isWord).1, (run_dropped isWord).2, run_behind ends (.inr rfl)]
    rfl
  · rw [(run_kept isWord).1, (run_kept isWord).2, run_behind ends (.inl rfl)]
    simp

/-- Less than 26 bytes stay as they are. -/
theorem run_few (few : rest.length < 26) (stays : place ≠ .dropped) :
    search.run place rest = rest := by
  induction rest generalizing place with
  | nil => rfl
  | cons byte rest ih =>
      have short : isAddress (walk (byte :: rest) 0) = false := by
        by_contra address
        have long := isAddress_length (Bool.not_eq_false _ ▸ address)
        have within := (List.takeWhile_sublist (fun byte => !endsWord byte)
          (l := byte :: rest)).length_le
        rw [walk, List.drop_zero] at long
        omega
      have next : place.next byte rest ≠ .dropped := by
        cases place with
        | opened =>
            simp only [Place.next, short]
            split
            · simp
            · split <;> simp
        | inner | kept =>
            simp only [Place.next]
            split <;> simp
        | dropped => exact absurd rfl stays
      rw [List.length_cons] at few
      rw [run_cons, Place.write_of_ne next, ih (by omega) next, List.singleton_append]

/-- What the search makes of a message is what the machine writes. -/
theorem Rewrites.eq_run {cslice result : Bytes} (rewrites : Rewrites start cslice result) :
    result = search.run .opened cslice := by
  induction rewrites with
  | clean noSeven => exact (run_clean noSeven (.inl rfl)).1.symm
  | @short _ front back first few =>
      rw [run_seven first]
      split
      · rw [run_few (by simpa using few) (by simp)]
      · rw [run_few (by simpa using few) (by simp)]
  | inside first _ notStart _ ih => rw [run_seven first, if_neg notStart, run_inner_seven, ih]
  | skipped first _ starts isWord ends noAddress _ ih =>
      rw [run_seven first, if_pos starts, run_opened_seven isWord ends, ← ih, noAddress]
      rfl
  | replaced first starts isWord ends address _ _ ih =>
      rw [run_seven first, if_pos starts, run_opened_seven isWord ends, ← ih, address]
      rfl

/-! ### A second search -/

theorem wordEnds_take_one (ends : WordEnds after) {out : Bytes} (nothing : after = [] → out = []) :
    WordEnds (after.take 1 ++ out) ∧ (after.take 1 ++ out).take 1 = after.take 1 ∧
      (after.take 1 ++ out).drop 1 = out := by
  cases after with
  | nil => simp [nothing rfl, ends]
  | cons byte after => exact ⟨fun other head => ends other head, rfl, rfl⟩

/-- Nothing is made of nothing. -/
theorem Rewrites.nothing {out : Bytes} (rewrites : Rewrites start (after.drop 1) out)
    (empty : after = []) : out = [] := by
  subst empty
  exact rewrites.few (by simp)

/-- With the new addresses the message still fits into the buffer. -/
theorem Rewrites.within {cslice result : Bytes} (rewrites : Rewrites start cslice result)
    (room : start + cslice.length ≤ 1024) : start + result.length ≤ 1024 := by
  induction rewrites with
  | clean | short => exact room
  | inside _ _ _ _ ih =>
      simp only [List.length_append, List.length_cons] at room ih ⊢
      omega
  | @skipped _ _ _ after _ _ _ _ _ _ _ rest ih =>
      cases after with
      | nil => simpa [rest.nothing rfl] using room
      | cons =>
          simp at room ih ⊢
          omega
  | @replaced _ _ _ after _ _ _ _ _ _ fits rest ih =>
      cases after with
      | nil => simpa [rest.nothing rfl] using fits
      | cons =>
          simp [boguscoinAddress_length] at fits ih ⊢
          omega

theorem boguscoinAddress_eq : boguscoinAddress = seven :: boguscoinAddress.tail := by decide

theorem boguscoinAddress_isWord : ∀ byte ∈ boguscoinAddress, endsWord byte = false := by
  decide +kernel

theorem boguscoinAddress_isAddress : isAddress (seven :: boguscoinAddress.tail) = true := by
  decide

/-- The new address has the form of an address, so that it is found again, and replaced by
itself. -/
theorem Rewrites.again {cslice result : Bytes} (rewrites : Rewrites start cslice result)
    (room : start + result.length ≤ 1024) : Rewrites start result result := by
  induction rewrites with
  | clean noSeven => exact .clean noSeven
  | short first few => exact .short first few
  | inside first _ notStart _ ih =>
      refine .pass_inside first notStart (ih ?_)
      simp only [List.length_append, List.length_cons] at room
      omega
  | @skipped start front word after out first _ starts isWord ends noAddress rest ih =>
      obtain ⟨wordEnds, takeEq, dropEq⟩ := wordEnds_take_one ends rest.nothing
      have later : Rewrites (start + (front.length + 1) + (word.length + 1))
          ((after.take 1 ++ out).drop 1) out := by
        rw [dropEq]
        cases after with
        | nil => exact rest.nothing rfl ▸ .clean (by simp)
        | cons =>
            refine ih ?_
            simp at room ⊢
            omega
      have passed := Rewrites.pass_word first starts isWord wordEnds noAddress later
      rwa [takeEq] at passed
  | @replaced start front word after out first starts isWord ends address fits rest ih =>
      obtain ⟨wordEnds, takeEq, dropEq⟩ := wordEnds_take_one ends rest.nothing
      have later : Rewrites (start + (front.length + 1) + 27)
          ((after.take 1 ++ out).drop 1) out := by
        rw [dropEq]
        cases after with
        | nil => exact rest.nothing rfl ▸ .clean (by simp)
        | cons =>
            refine ih ?_
            simp [boguscoinAddress_length] at room ⊢
            omega
      have replaced := Rewrites.replaced first starts
        (fun byte member => boguscoinAddress_isWord byte (List.mem_of_mem_tail member)) wordEnds
        boguscoinAddress_isAddress (by simpa using room) later
      rwa [takeEq, ← List.cons_append, ← boguscoinAddress_eq] at replaced

/-- A rewritten message is rewritten to itself, and there is always room for this. -/
theorem findAndReplace_idempotent (msg out : U8BoundArray)
    (done : findAndReplaceBoguscoinAddress msg = some out) :
    findAndReplaceBoguscoinAddress out = some out := by
  have rewrites : Rewrites 0 msg.items out.items := findAndReplace_iff.mp (by rw [done]; rfl)
  have again := rewrites.again (by simpa using out.fits)
  obtain ⟨other, otherDone, items⟩ := Option.map_eq_some_iff.mp (findAndReplace_iff.mpr again)
  obtain rfl : other = out := by
    cases other
    cases out
    cases items
    rfl
  exact otherDone

theorem findAndReplace_idempotent_lines :
    findAndReplaceBoguscoinAddress
        ⟨ascii "to 7YWHMfk9JZe0LM0g1ZauHuiSxhI\nx7 \n", by decide⟩ =
      some ⟨ascii "to 7YWHMfk9JZe0LM0g1ZauHuiSxhI\nx7 \n", by decide⟩ :=
  findAndReplace_idempotent ⟨ascii "to 7F1u3wSD5RbOHQmupo9nx4TnhQ\nx7 \n", by decide⟩ _
    (by decide +kernel)

end NetworkExercises.MobInTheMiddle
