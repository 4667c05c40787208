/-
Module: NetworkExercises.MobInTheMiddle.Boguscoin
Purpose: `find_and_replace_boguscoin_address` of `5-mob-in-the-middle/main.zig`.
Main exports: findAndReplaceBoguscoinAddress
-/
import NetworkExercises.Lib.BigEndian
import NetworkExercises.Lib.Checked

namespace NetworkExercises.MobInTheMiddle

open Lib

/-- `u8boundarray`. -/
abbrev U8BoundArray := BoundedArray UInt8 1024

/-- `boguscoin_start`. -/
def seven : UInt8 := 55

def space : UInt8 := 32

/-- `needle`. -/
def newline : UInt8 := 10

/-- `boguscoin_address`. -/
def boguscoinAddress : Bytes :=
  "7YWHMfk9JZe0LM0g1ZauHuiSxhI".toList.map fun char => UInt8.ofNat char.toNat

/-- `std.ascii.isAlphanumeric`. -/
def isAlphanumeric (byte : UInt8) : Bool :=
  (48 ≤ byte && byte ≤ 57) || (65 ≤ byte && byte ≤ 90) || (97 ≤ byte && byte ≤ 122)

/-- The end of a word. -/
def endsWord (byte : UInt8) : Bool := byte == space || byte == newline

/-- The bytes that the walk passes from index `idx` on. -/
def walk (cslice : Bytes) (idx : Nat) : Bytes :=
  (cslice.drop idx).takeWhile fun byte => !endsWord byte

/-- The word has the form of an address: `boguscoin_min_len` is 26, `boguscoin_max_len`
is 35. -/
def isAddress (word : Bytes) : Bool :=
  word.all isAlphanumeric && 26 ≤ word.length && word.length ≤ 35

/-- The `while` loop, from `start` on.  `fuel` is a bound on the turns that are left. -/
def replaceLoop (fuel start : Nat) (msg : U8BoundArray) : Option U8BoundArray :=
  match fuel with
  | 0 => some msg
  | fuel + 1 =>
      if start < msg.items.length then
        let cslice := msg.items.drop start
        match cslice.findIdx? (· == seven) with
        | none => some msg
        | some idx =>
            let start := start + (idx + 1)
            if idx + 26 > cslice.length then some msg
            else if idx ≠ 0 ∧ cslice[idx - 1]? ≠ some space then replaceLoop fuel start msg
            else
              let len := (walk cslice idx).length
              if isAddress (walk cslice idx) then
                -- The place of the new address is that of the old one, one before `start`.
                match msg.replaceRange (start - 1) len boguscoinAddress with
                | none => none
                | some msg => replaceLoop fuel (start + boguscoinAddress.length) msg
              else replaceLoop fuel (start + len) msg
      else some msg

/-- `find_and_replace_boguscoin_address`; `none` is the error `Overflow`.  Every turn of
the loop moves `start` on towards the end of the message. -/
def findAndReplaceBoguscoinAddress (msg : U8BoundArray) : Option U8BoundArray :=
  if msg.items.length = 0 then some msg else replaceLoop msg.items.length 0 msg

end NetworkExercises.MobInTheMiddle
