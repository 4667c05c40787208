/-
Module: NetworkExercises.SpeedDaemon.Proofs.DecodeTurn
Purpose: What one turn of the decoder does, as a function of the bytes that
  are left in the buffer.
Main exports: decodePlate_eq, decodeWantHeartbeat_eq, decodeIAmCamera_eq,
  decodeIAmDispatcher_eq
-/
import NetworkExercises.SpeedDaemon.Decode

namespace NetworkExercises.SpeedDaemon

open Lib Checked

variable {buf view : Bytes} {start : Nat}

/-- The bytes left are those behind `start`. -/
theorem length_of_view (viewEq : buf.drop start = view) :
    view.length = buf.length - start := by
  rw [← viewEq, List.length_drop]

theorem length_eq_of_view (viewEq : buf.drop start = view) (left : 0 < view.length) :
    buf.length = start + view.length := by
  have := length_of_view viewEq
  omega

/-- A plate without letters is refused. -/
theorem decodePlate_zero (viewEq : buf.drop start = view) (lengthByte : view[1]? = some 0)
    (long : 7 ≤ view.length) (bound : start + 2 < 2 ^ 16) :
    decodePlate buf start = fail .emptyPlate := by
  have total := length_of_view viewEq
  rw [decodePlate, if_neg (by omega), fitsIn_of_lt (by omega), ok_bind, byteAt_offset, viewEq,
    byteAt_of_getElem? lengthByte, ok_bind, if_pos rfl]

/-- A `Plate` turn waits for all of its `6 + platelen` bytes. -/
theorem decodePlate_eq {platelen : UInt8} (viewEq : buf.drop start = view)
    (lengthByte : view[1]? = some platelen) (nonempty : platelen ≠ 0)
    (bound : start + 6 + platelen.toNat < 2 ^ 16) :
    decodePlate buf start =
      if view.length < 6 + platelen.toNat then .ok .stop
      else .ok (.take (.plate ⟨(view.drop 2).take platelen.toNat,
        readU32 ((view.drop (2 + platelen.toNat)).take 4)⟩)
        (6 + platelen.toNat)) := by
  have two : 1 < view.length := (List.getElem?_eq_some_iff.mp lengthByte).1
  have total := length_eq_of_view viewEq (by omega)
  have positive : 1 ≤ platelen.toNat := by
    by_contra zero
    exact nonempty (UInt8.toNat_inj.mp (by simpa using zero))
  unfold decodePlate
  by_cases short : view.length < 7
  · rw [if_pos (by omega), if_pos (by omega)]
  rw [if_neg (by omega), fitsIn_of_lt (by omega), ok_bind, byteAt_offset, viewEq,
    byteAt_of_getElem? lengthByte, ok_bind, if_neg nonempty,
    fitsIn_of_lt (by omega), ok_bind, fitsIn_of_lt (by omega), ok_bind]
  by_cases plateCut : view.length < 2 + platelen.toNat
  · rw [if_pos (by omega), if_pos (by omega)]
  rw [if_neg (by omega), slice_width (by omega), ok_bind,
    fitsIn_of_lt (by omega), ok_bind]
  by_cases timestampCut : view.length < 6 + platelen.toNat
  · rw [if_pos (by omega), if_pos timestampCut]
  rw [if_neg (by omega), if_neg timestampCut, slice_width (by omega),
    ok_bind, subtract_of_le (by omega), ok_bind, ← viewEq, List.drop_drop,
    List.drop_drop, ← Nat.add_assoc]
  congr 2
  omega

/-- A `WantHeartbeat` turn waits for five bytes. -/
theorem decodeWantHeartbeat_eq (viewEq : buf.drop start = view)
    (left : 0 < view.length) (bound : start + 5 < 2 ^ 16) :
    decodeWantHeartbeat buf start =
      if view.length < 5 then .ok .stop
      else .ok (.take (.wantHeartbeat (readU32 ((view.drop 1).take 4))) 5) := by
  have total := length_eq_of_view viewEq left
  unfold decodeWantHeartbeat
  by_cases short : view.length < 3
  · rw [if_pos (by omega), if_pos (by omega)]
  rw [if_neg (by omega), fitsIn_of_lt (by omega), ok_bind, fitsIn_of_lt (by omega),
    ok_bind]
  by_cases intervalCut : view.length < 5
  · rw [if_pos (by omega), if_pos intervalCut]
  rw [if_neg (by omega), if_neg intervalCut, slice_width (by omega),
    ok_bind, subtract_of_le (by omega), ok_bind, ← viewEq, List.drop_drop]
  congr 2
  omega

/-- An `IAmCamera` turn waits for seven bytes. -/
theorem decodeIAmCamera_eq (viewEq : buf.drop start = view)
    (left : 0 < view.length) (bound : start + 7 < 2 ^ 16) :
    decodeIAmCamera buf start =
      if view.length < 7 then .ok .stop
      else .ok (.take (.camera ⟨readU16 ((view.drop 1).take 2),
        readU16 ((view.drop 3).take 2), readU16 ((view.drop 5).take 2)⟩) 7) := by
  have total := length_eq_of_view viewEq left
  unfold decodeIAmCamera
  by_cases short : view.length < 7
  · rw [if_pos (by omega), if_pos short]
  rw [if_neg (by omega), if_neg short, fitsIn_of_lt (by omega), ok_bind,
    fitsIn_of_lt (by omega), ok_bind, slice_width (by omega), ok_bind,
    fitsIn_of_lt (by omega), ok_bind, slice_width (by omega), ok_bind,
    fitsIn_of_lt (by omega), ok_bind, slice_width (by omega), ok_bind,
    subtract_of_le (by omega), ok_bind, ← viewEq, List.drop_drop, List.drop_drop,
    List.drop_drop]
  congr 2
  omega

/-! ### The dispatcher's roads -/

/-- The bytes of a dispatcher's roads. -/
def roadBytes (roads : List UInt16) : Bytes :=
  roads.flatMap fun road => bigEndian 2 road.toNat

@[simp] theorem roadBytes_cons (road : UInt16) (roads : List UInt16) :
    roadBytes (road :: roads) = bigEndian 2 road.toNat ++ roadBytes roads := rfl

@[simp] theorem roadBytes_length (roads : List UInt16) :
    (roadBytes roads).length = 2 * roads.length := by
  induction roads with
  | nil => rfl
  | cons road roads ih =>
      simp only [roadBytes_cons, List.length_append, bigEndian_length, ih,
        List.length_cons]
      omega

/-- Roads that have arrived whole are read back in order. -/
theorem readRoads_roadBytes {roads : List UInt16} {after : Bytes}
    (viewEq : buf.drop start = roadBytes roads ++ after)
    (bound : start + 2 * roads.length < 2 ^ 16) :
    readRoads buf roads.length start = .ok roads := by
  induction roads generalizing start with
  | nil => rfl
  | cons road roads ih =>
      have viewLength := length_of_view viewEq
      simp only [List.length_append, roadBytes_length, List.length_cons] at viewLength
      simp only [List.length_cons] at bound
      have taken : (buf.drop start).take 2 = bigEndian 2 road.toNat := by
        rw [viewEq, roadBytes_cons, List.append_assoc, List.take_left' (by simp)]
      have behind : buf.drop (start + 2) = roadBytes roads ++ after := by
        rw [← List.drop_drop, viewEq, roadBytes_cons, List.append_assoc,
          List.drop_left' (by simp)]
      rw [List.length_cons, readRoads, fitsIn_of_lt (by omega), ok_bind,
        slice_width (by omega), ok_bind, taken, ih behind (by omega), ok_bind,
        readU16, uint16_bigEndian]

/-- Reading past the end of the buffer traps. -/
theorem readRoads_short {remaining : Nat} (positive : 0 < remaining)
    (short : buf.length < start + 2 * remaining)
    (bound : start + 2 * remaining < 2 ^ 16) :
    readRoads buf remaining start = trap := by
  induction remaining generalizing start with
  | zero => omega
  | succ remaining ih =>
      rw [readRoads, fitsIn_of_lt (by omega), ok_bind]
      by_cases cut : buf.length < start + 2
      · rw [slice_of_gt cut, trap_bind]
      · rw [slice_width (by omega), ok_bind,
          ih (by omega) (by omega) (by omega), trap_bind]

/-- As many roads are read as are asked for. -/
theorem readRoads_length {remaining : Nat} {roads : List UInt16}
    (read : readRoads buf remaining start = .ok roads) :
    roads.length = remaining := by
  induction remaining generalizing start roads with
  | zero =>
      cases read
      rfl
  | succ remaining ih =>
      rw [readRoads] at read
      obtain ⟨roadsend, -, read⟩ := bind_eq_ok.mp read
      obtain ⟨road, -, read⟩ := bind_eq_ok.mp read
      obtain ⟨others, readOthers, read⟩ := bind_eq_ok.mp read
      cases read
      simp [ih readOthers]

/-- A dispatcher turn in full: it wants four bytes, computes the lengths at
eight bits, compares one of them with the whole buffer, and traps when the
roads run past the end or the message begins behind its own length. -/
theorem decodeIAmDispatcher_eq {numroads : UInt8} (viewEq : buf.drop start = view)
    (lengthByte : view[1]? = some numroads) (bound : start + 512 < 2 ^ 16) :
    decodeIAmDispatcher buf start =
      if view.length < 4 then .ok .stop
      else if 127 < numroads.toNat then trap
      else if buf.length < 2 * numroads.toNat + 1 then .ok .stop
      else readRoads buf numroads.toNat (start + 2) >>= fun roads =>
        if 126 < numroads.toNat ∨ 2 * numroads.toNat + 2 < start then trap
        else .ok (.take (.dispatcher roads) (2 * numroads.toNat + 2 - start)) := by
  have two : 1 < view.length := (List.getElem?_eq_some_iff.mp lengthByte).1
  have total := length_eq_of_view viewEq (by omega)
  unfold decodeIAmDispatcher
  by_cases short : view.length < 4
  · rw [if_pos (by omega), if_pos short]
  rw [if_neg (by omega), if_neg short, fitsIn_of_lt (by omega), ok_bind,
    byteAt_offset, viewEq, byteAt_of_getElem? lengthByte, ok_bind]
  by_cases large : 127 < numroads.toNat
  · rw [fitsIn_of_ge (by omega), trap_bind, if_pos large]
  rw [if_neg large, fitsIn_of_lt (by omega), ok_bind, fitsIn_of_lt (by omega), ok_bind]
  by_cases roadsCut : buf.length < 2 * numroads.toNat + 1
  · rw [if_pos (by omega), if_pos roadsCut]
  rw [if_neg (by omega), if_neg roadsCut, fitsIn_of_lt (by omega), ok_bind]
  cases readRoads buf numroads.toNat (start + 2) with
  | error fault => rfl
  | ok roads =>
      rw [ok_bind, ok_bind]
      by_cases tooMany : 126 < numroads.toNat
      · rw [fitsIn_of_ge (by omega), trap_bind, if_pos (.inl tooMany)]
      rw [fitsIn_of_lt (by omega), ok_bind]
      by_cases behind : 2 * numroads.toNat + 2 < start
      · rw [subtract, if_neg (by omega), trap_bind, if_pos (.inr behind)]
      · rw [subtract_of_le (by omega), ok_bind, if_neg (by omega)]
        congr 2
        omega

end NetworkExercises.SpeedDaemon
