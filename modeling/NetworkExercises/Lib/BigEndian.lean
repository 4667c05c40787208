/-
Module: NetworkExercises.Lib.BigEndian
Purpose: Bytes, and fixed-width big-endian integers as lists of them with their round trip.
Main exports: Bytes, ascii, bigEndian, ofBigEndian, ofBigEndian_bigEndian, bigEndian_ofBigEndian
-/
import Mathlib.Tactic

namespace NetworkExercises.Lib

/-- Octets in the order they travel. -/
abbrev Bytes := List UInt8

/-- The bytes of an ASCII text. -/
def ascii (text : String) : Bytes := text.toList.map fun char => UInt8.ofNat char.toNat

/-- The `width` low bytes of a number, most significant first. -/
def bigEndian : (width value : Nat) → Bytes
  | 0, _ => []
  | width + 1, value => bigEndian width (value / 256) ++ [UInt8.ofNat value]

/-- The number that a list of bytes spells, most significant first. -/
def ofBigEndian (bytes : Bytes) : Nat :=
  bytes.foldl (fun value byte => value * 256 + byte.toNat) 0

@[simp] theorem bigEndian_length (width value : Nat) :
    (bigEndian width value).length = width := by
  induction width generalizing value with
  | zero => rfl
  | succ width ih => simp [bigEndian, ih]

theorem ofBigEndian_concat (bytes : Bytes) (byte : UInt8) :
    ofBigEndian (bytes ++ [byte]) = ofBigEndian bytes * 256 + byte.toNat := by
  simp [ofBigEndian, List.foldl_append]

/-- Writing a number and reading it back keeps what fits the width. -/
theorem ofBigEndian_bigEndian (width value : Nat) :
    ofBigEndian (bigEndian width value) = value % 256 ^ width := by
  induction width generalizing value with
  | zero => simp [bigEndian, ofBigEndian, Nat.mod_one]
  | succ width ih =>
      have lowByte : (UInt8.ofNat value).toNat = value % 256 := by simp
      have digits : value % 256 ^ (width + 1) =
          value % 256 + 256 * (value / 256 % 256 ^ width) := by
        rw [pow_succ', Nat.mod_mul]
      rw [bigEndian, ofBigEndian_concat, ih, lowByte, digits]
      ring

theorem ofBigEndian_lt (bytes : Bytes) : ofBigEndian bytes < 256 ^ bytes.length := by
  induction bytes using List.reverseRecOn with
  | nil => simp [ofBigEndian]
  | append_singleton bytes byte ih =>
      have low := byte.toNat_lt
      rw [ofBigEndian_concat, List.length_append, List.length_singleton, pow_succ]
      omega

/-- Reading bytes as a number and writing it at their width gives them back. -/
theorem bigEndian_ofBigEndian (bytes : Bytes) :
    bigEndian bytes.length (ofBigEndian bytes) = bytes := by
  induction bytes using List.reverseRecOn with
  | nil => rfl
  | append_singleton bytes byte ih =>
      have low := byte.toNat_lt
      have high : (ofBigEndian bytes * 256 + byte.toNat) / 256 = ofBigEndian bytes := by omega
      have last : UInt8.ofNat (ofBigEndian bytes * 256 + byte.toNat) = byte := by
        apply UInt8.toNat_inj.mp
        rw [UInt8.toNat_ofNat']
        omega
      rw [ofBigEndian_concat, List.length_append, List.length_singleton, bigEndian, high, last, ih]

/-- Two bytes are the encoding of the 16-bit number that they spell. -/
theorem bigEndian_uint16 {bytes : Bytes} (two : bytes.length = 2) :
    bigEndian 2 (UInt16.ofNat (ofBigEndian bytes)).toNat = bytes := by
  have bound := ofBigEndian_lt bytes
  have whole := bigEndian_ofBigEndian bytes
  rw [two] at bound whole
  rw [UInt16.toNat_ofNat_of_lt' bound, whole]

/-- Four bytes are the encoding of the 32-bit number that they spell. -/
theorem bigEndian_uint32 {bytes : Bytes} (four : bytes.length = 4) :
    bigEndian 4 (UInt32.ofNat (ofBigEndian bytes)).toNat = bytes := by
  have bound := ofBigEndian_lt bytes
  have whole := bigEndian_ofBigEndian bytes
  rw [four] at bound whole
  rw [UInt32.toNat_ofNat_of_lt' bound, whole]

/-- A 16-bit field survives the wire. -/
theorem uint16_bigEndian (value : UInt16) :
    UInt16.ofNat (ofBigEndian (bigEndian 2 value.toNat)) = value := by
  have bound := value.toNat_lt
  rw [ofBigEndian_bigEndian, Nat.mod_eq_of_lt (by omega), UInt16.ofNat_toNat]

/-- A 32-bit field survives the wire. -/
theorem uint32_bigEndian (value : UInt32) :
    UInt32.ofNat (ofBigEndian (bigEndian 4 value.toNat)) = value := by
  have bound := value.toNat_lt
  rw [ofBigEndian_bigEndian, Nat.mod_eq_of_lt (by omega), UInt32.ofNat_toNat]

end NetworkExercises.Lib
