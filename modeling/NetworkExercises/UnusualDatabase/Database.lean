/-
Module: NetworkExercises.UnusualDatabase.Database
Purpose: The key-value store of `4-unusual-database/main.zig`, and one turn of the loop that
  answers datagrams from it.
Main exports: Database, Database.insert, Database.retrieve, serve
-/
import NetworkExercises.Lib.BigEndian
import NetworkExercises.Lib.Checked

namespace NetworkExercises.UnusualDatabase

open Lib

/-! ### The store -/

inductive DatabaseError where
  | attemptedToInsertReservedKey
  | keyLengthExceeded
  | valueLengthExceeded
deriving DecidableEq, Repr

def maxKeyLength : Nat := 1024

/-- `version_key`. -/
def versionKey : Bytes := ascii "version"

/-- `version_value`. -/
def versionValue : Bytes := ascii "ReinaldoKeyValueStore1.0"

/-- `empty`, which stands for an empty key or value in the store. -/
def empty : Bytes := ascii "ReinaldoMolina204355E=2G5x~uVlHie=C"

/-- `Database`; the hash map is a map on byte strings. -/
structure Database where
  store : Bytes → Option Bytes

namespace Database

def init : Database := ⟨Function.update (fun _ => none) versionKey (some versionValue)⟩

def insert (self : Database) (key value : Bytes) : Except DatabaseError Database :=
  if key.length > maxKeyLength then .error .keyLengthExceeded
  else if value.length > maxKeyLength then .error .valueLengthExceeded
  else if key = versionKey then .error .attemptedToInsertReservedKey
  else
    let k := if key.length = 0 then empty else key
    let v := if value.length = 0 then empty else value
    .ok ⟨Function.update self.store k (some v)⟩

def retrieve (self : Database) (key : Bytes) : Except DatabaseError (Option Bytes) :=
  if key.length > maxKeyLength then .error .keyLengthExceeded
  else
    let k := if key.length = 0 then empty else key
    match self.store k with
    | none => .ok none
    | some r => if r = empty then .ok (some []) else .ok (some r)

end Database

/-! ### The loop -/

/-- `needle`. -/
def equals : UInt8 := 61

/-- The cleared `msg_buffer` with the format `{s}={s}` written into it, piece by piece. -/
def formatResponse (resp val : Bytes) : Option (BoundedArray UInt8 1024) := do
  let buffer ← BoundedArray.clear.appendSlice resp
  let buffer ← buffer.appendSlice [equals]
  buffer.appendSlice val

/-- One turn of the loop of `main`: the store after it, and the datagram that is sent.
`recvfrom` cuts a datagram to the size of `buff`; every error is only logged. -/
def serve (db : Database) (datagram : Bytes) : Database × Option Bytes :=
  let resp := datagram.take 1024
  match resp.findIdx? (· == equals) with
  | some idx =>
      match db.insert (resp.take idx) (resp.drop (idx + 1)) with
      | .error _ => (db, none)
      | .ok db => (db, none)
  | none =>
      match db.retrieve resp with
      | .error _ => (db, none)
      | .ok none => (db, none)
      | .ok (some val) => (db, (formatResponse resp val).map BoundedArray.items)

end NetworkExercises.UnusualDatabase
