/-
Module: NetworkExercises.PrimeTime.Json
Purpose: What the two servers of exercise 1 share: the JSON values that a request is
  parsed to, trial division on 64-bit numbers, and the response to a good request.
Main exports: Json, Json.get, isPrime, formatResponse
-/
import NetworkExercises.Lib.BigEndian

namespace NetworkExercises.PrimeTime

open Lib

/-! ### JSON -/

/-- A JSON value.  A number is an integer of 64 bits, or kept as it was written. -/
inductive Json where
  | null
  | bool (value : Bool)
  | integer (value : Int64)
  | float (text : Bytes)
  | numberString (text : Bytes)
  | string (text : Bytes)
  | array (items : List Json)
  | object (fields : List (Bytes × Json))

/-- The field of an object with a given name. -/
def Json.get (fields : List (Bytes × Json)) (name : Bytes) : Option Json :=
  (fields.find? fun field => field.1 == name).map Prod.snd

/-! ### Primes -/

/-- The loop `while (i * i <= number)`, from `i` on; there is no result when the product
leaves the range of an `i64`. -/
def isPrimeLoop (number : Int) : (turns : Nat) → (i : Int) → Option Bool
  | 0, _ => some true
  | turns + 1, i =>
      if 2 ^ 63 ≤ i * i then none
      else if number < i * i then some true
      else if number % i = 0 then some false
      else isPrimeLoop number turns (i + 1)

/-- `is_prime`.  There are always enough turns: `i` stays below the number. -/
def isPrime (number : Int64) : Option Bool :=
  if number.toInt ≤ 1 then some false
  else isPrimeLoop number.toInt number.toInt.toNat 2

/-- The response that says whether a number is prime; both servers format the same text. -/
def formatResponse (prime : Bool) : Bytes :=
  ascii "\x7b\"method\":\"isPrime\",\"prime\":" ++ ascii (if prime then "true" else "false") ++
    ascii "\x7d\n"

end NetworkExercises.PrimeTime
