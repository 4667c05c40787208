/-
Module: NetworkExercises.PrimeTime.Proofs.Validation
Purpose: The two servers of exercise 1 find the same requests malformed, and test the same
  numbers for primality, except where a method only begins with the name that is asked for.
Main exports: Json.Fits, Agree, Prolonged, Zig.checkRequest_of_requestNumber,
  validators_agree_iff
-/
import NetworkExercises.PrimeTime.C
import NetworkExercises.PrimeTime.Zig

namespace NetworkExercises.PrimeTime

open Lib

/-- Every integer of a JSON value has 64 bits. -/
inductive Json.Fits : Json → Prop where
  | null : Fits .null
  | bool (value : Bool) : Fits (.bool value)
  | integer (value : Int64) : Fits (.integer value)
  | float (text : Bytes) : Fits (.float text)
  | string (text : Bytes) : Fits (.string text)
  | array {items : List Json} (inside : ∀ item ∈ items, Fits item) : Fits (.array items)
  | object {fields : List (Bytes × Json)} (inside : ∀ field ∈ fields, Fits field.2) :
      Fits (.object fields)

/-- Both find a request malformed, or neither does; then the numbers are both prime, or
neither is. -/
structure Agree (parseC : C.Parser) (parseZig : Zig.Parser) (request : C.IsPrimeRequest)
    (req : Bytes) : Prop where
  malformed : (C.isPrimeRequestMalformed parseC request req).1 = true ↔
    ∃ error, Zig.parseRequest parseZig req = .error error
  primality : (C.isPrimeRequestMalformed parseC request req).1 = false →
    ∀ number, Zig.parseRequest parseZig req = .ok number →
      isPrime (C.isPrimeRequestMalformed parseC request req).2.number = isPrime number

/-- The method is longer than `isPrime`, with which it begins, and the number is one. -/
def Prolonged : Json → Prop
  | .object fields =>
      (∃ method, Json.get fields (ascii "method") = some (.string method) ∧
        C.isPrimeMethod method = true ∧ method ≠ ascii "isPrime") ∧
      ((∃ text, Json.get fields (ascii "number") = some (.float text)) ∨
        ∃ number, Json.get fields (ascii "number") = some (.integer number))
  | _ => False

variable {json : Json} {fields : List (Bytes × Json)} {name : Bytes}

/-! ### One field -/

theorem Json.Fits.get {value : Json} (fits : Json.Fits (.object fields))
    (found : Json.get fields name = some value) : value.Fits := by
  obtain ⟨field, search, rfl⟩ := Option.map_eq_some_iff.mp found
  cases fits with
  | object inside => exact inside field (List.mem_of_find?_eq_some search)

/-- `isPrime` itself is accepted by the comparison of seven bytes. -/
theorem isPrimeMethod_self : C.isPrimeMethod (ascii "isPrime") = true := by decide

/-- The number that both servers take from a field. -/
def numbers : Option Json → Option (Int64 × Int64)
  | some (.float _) => some (-1, 0)
  | some (.integer number) => some (number, number)
  | _ => none

/-- The numbers of a float are different, and neither is prime. -/
theorem isPrime_numbers {value : Option Json} {first second : Int64}
    (read : numbers value = some (first, second)) : isPrime first = isPrime second := by
  unfold numbers at read
  split at read
  · cases read
    rfl
  · cases read
    rfl
  · cases read

/-! ### Both checks -/

/-- The C check of an object with a method that begins as it should. -/
theorem requestNumber_eq {method : Bytes}
    (asked : Json.get fields (ascii "method") = some (.string method))
    (begins : C.isPrimeMethod method = true) :
    C.requestNumber (.object fields) =
      (numbers (Json.get fields (ascii "number"))).map Prod.fst := by
  simp only [C.requestNumber, C.jsonObjectObjectGet, asked, begins, if_true]
  cases number : Json.get fields (ascii "number") with
  | none => rfl
  | some value => cases value <;> rfl

/-- The Zig check of an object with the right method. -/
theorem checkRequest_eq (fits : Json.Fits (.object fields))
    (asked : Json.get fields (ascii "method") = some (.string (ascii "isPrime"))) :
    Zig.checkRequest (.object fields) =
      match numbers (Json.get fields (ascii "number")) with
      | some both => .ok both.2
      | none =>
          if (Json.get fields (ascii "number")).isNone then .error .missingNumber
          else .error .invalidNumber := by
  simp only [Zig.checkRequest, asked]
  cases number : Json.get fields (ascii "number") with
  | none => rfl
  | some value =>
      cases fits.get number <;> rfl

/-- Every other object is rejected by the Zig check. -/
theorem checkRequest_rejects
    (asked : Json.get fields (ascii "method") ≠ some (.string (ascii "isPrime"))) :
    ∃ error, Zig.checkRequest (.object fields) = .error error := by
  simp only [Zig.checkRequest]
  cases found : Json.get fields (ascii "method") with
  | none => exact ⟨_, rfl⟩
  | some value =>
      cases value with
      | string method =>
          have other : method ≠ ascii "isPrime" := by
            rintro rfl
            exact asked found
          simp only [if_pos other]
          split
          · exact ⟨_, rfl⟩
          · exact ⟨_, rfl⟩
      | _ => exact ⟨_, rfl⟩

/-- The C check rejects an object whose method begins otherwise. -/
theorem requestNumber_rejects
    (others : ∀ method, Json.get fields (ascii "method") = some (.string method) →
      C.isPrimeMethod method = false) : C.requestNumber (.object fields) = none := by
  simp only [C.requestNumber, C.jsonObjectObjectGet]
  cases found : Json.get fields (ascii "method") with
  | none => rfl
  | some value =>
      cases value with
      | string method =>
          dsimp only
          rw [others method found]
          rfl
      | _ => rfl

/-- Both checks have the same outcome for a value. -/
structure SameOutcome (json : Json) : Prop where
  malformed : C.requestNumber json = none ↔ ∃ error, Zig.checkRequest json = .error error
  primality : ∀ first second, C.requestNumber json = some first →
    Zig.checkRequest json = .ok second → isPrime first = isPrime second

/-- A value that both checks reject. -/
theorem sameOutcome_of_rejected (first : C.requestNumber json = none)
    (second : ∃ error, Zig.checkRequest json = .error error) : SameOutcome json where
  malformed := iff_of_true first second
  primality := fun number _ accepted => by rw [first] at accepted; cases accepted

/-- With the right method, what counts is the number. -/
theorem sameOutcome_of_asked (fits : Json.Fits (.object fields))
    (asked : Json.get fields (ascii "method") = some (.string (ascii "isPrime"))) :
    SameOutcome (.object fields) := by
  have first := requestNumber_eq asked isPrimeMethod_self
  have second := checkRequest_eq fits asked
  cases read : numbers (Json.get fields (ascii "number")) with
  | none =>
      rw [read] at first second
      refine sameOutcome_of_rejected first ?_
      rw [second]
      dsimp only
      split
      · exact ⟨_, rfl⟩
      · exact ⟨_, rfl⟩
  | some both =>
      rw [read] at first second
      constructor
      · rw [first, second]
        simp
      · intro c z firstEq secondEq
        rw [first] at firstEq
        rw [second] at secondEq
        cases firstEq
        cases secondEq
        exact isPrime_numbers read

/-- The checks have different outcomes for prolonged methods only. -/
theorem sameOutcome_iff (fits : json.Fits) : SameOutcome json ↔ ¬ Prolonged json := by
  cases json with
  | object fields =>
      by_cases asked : Json.get fields (ascii "method") = some (.string (ascii "isPrime"))
      · apply iff_of_true (sameOutcome_of_asked fits asked)
        rintro ⟨⟨method, found, -, other⟩, -⟩
        rw [asked] at found
        cases found
        exact other rfl
      have rejects := checkRequest_rejects asked
      by_cases begun : ∃ method, Json.get fields (ascii "method") = some (.string method) ∧
          C.isPrimeMethod method = true
      · obtain ⟨method, found, begins⟩ := begun
        have first := requestNumber_eq found begins
        have other : method ≠ ascii "isPrime" := by
          rintro rfl
          exact asked found
        cases read : numbers (Json.get fields (ascii "number")) with
        | none =>
            rw [read] at first
            apply iff_of_true (sameOutcome_of_rejected first rejects)
            rintro ⟨-, ⟨text, isFloat⟩ | ⟨number, isInteger⟩⟩
            · rw [isFloat] at read
              cases read
            · rw [isInteger] at read
              cases read
        | some both =>
            rw [read] at first
            have differ : ¬ SameOutcome (.object fields) := by
              intro same
              have none_ := same.malformed.mpr rejects
              rw [first] at none_
              cases none_
            refine iff_of_false differ (not_not.mpr ⟨⟨method, found, begins, other⟩, ?_⟩)
            unfold numbers at read
            split at read
            · next text isFloat => exact .inl ⟨text, isFloat⟩
            · next number isInteger => exact .inr ⟨number, isInteger⟩
            · cases read
      · have first : C.requestNumber (.object fields) = none := by
          apply requestNumber_rejects
          intro method found
          by_contra begins
          exact begun ⟨method, found, Bool.eq_true_of_not_eq_false begins⟩
        apply iff_of_true (sameOutcome_of_rejected first rejects)
        rintro ⟨⟨method, found, begins, -⟩, -⟩
        exact begun ⟨method, found, begins⟩
  | _ => exact iff_of_true (sameOutcome_of_rejected rfl ⟨_, rfl⟩) id

/-! ### Both validators -/

variable {parseC : C.Parser} {parseZig : Zig.Parser} {request : C.IsPrimeRequest} {req : Bytes}

/-- The C validator on a value, `null` included. -/
theorem isPrimeRequestMalformed_eq (parsed : parseC req = some json) :
    C.isPrimeRequestMalformed parseC request req =
      match C.requestNumber json with
      | none => (true, { request with isMalformed := true })
      | some number => (false, { request with isMalformed := false, number := number }) := by
  rw [C.isPrimeRequestMalformed, parsed]
  cases json <;> rfl

theorem malformed_iff (parsed : parseC req = some json) :
    (C.isPrimeRequestMalformed parseC request req).1 = true ↔ C.requestNumber json = none := by
  rw [isPrimeRequestMalformed_eq parsed]
  cases C.requestNumber json <;> simp

theorem number_eq (request : C.IsPrimeRequest) {number : Int64} (parsed : parseC req = some json)
    (accepted : C.requestNumber json = some number) :
    (C.isPrimeRequestMalformed parseC request req).2.number = number := by
  rw [isPrimeRequestMalformed_eq parsed, accepted]

/-- The Zig validator on a value. -/
theorem parseRequest_eq (text : req ≠ []) (parsed : parseZig req = .ok json) :
    Zig.parseRequest parseZig req = (Zig.checkRequest json).mapError .request := by
  rw [Zig.parseRequest, if_neg (mt List.length_eq_zero_iff.mp text), parsed]

theorem error_iff (text : req ≠ []) (parsed : parseZig req = .ok json) :
    (∃ error, Zig.parseRequest parseZig req = .error error) ↔
      ∃ error, Zig.checkRequest json = .error error := by
  rw [parseRequest_eq text parsed]
  cases Zig.checkRequest json <;> simp [Except.mapError]

theorem ok_iff {number : Int64} (text : req ≠ []) (parsed : parseZig req = .ok json) :
    Zig.parseRequest parseZig req = .ok number ↔ Zig.checkRequest json = .ok number := by
  rw [parseRequest_eq text parsed]
  cases Zig.checkRequest json <;> simp [Except.mapError]

/-- On the same JSON value the validators agree, unless its method is a longer text that
begins with the right one. -/
theorem validators_agree_iff (parseC : C.Parser) (parseZig : Zig.Parser)
    (request : C.IsPrimeRequest) {req : Bytes} (text : req ≠ []) (json : Json)
    (fits : json.Fits) (parsedC : parseC req = some json) (parsedZig : parseZig req = .ok json) :
    Agree parseC parseZig request req ↔ ¬ Prolonged json := by
  rw [← sameOutcome_iff fits]
  constructor
  · rintro ⟨malformed, primality⟩
    rw [malformed_iff parsedC, error_iff text parsedZig] at malformed
    refine ⟨malformed, fun first second accepted checked => ?_⟩
    have wellFormed : (C.isPrimeRequestMalformed parseC request req).1 = false := by
      rw [← Bool.not_eq_true, malformed_iff parsedC, accepted]
      exact Option.some_ne_none first
    rw [← number_eq request parsedC accepted]
    exact primality wellFormed second ((ok_iff text parsedZig).mpr checked)
  · rintro ⟨malformed, primality⟩
    constructor
    · rw [malformed_iff parsedC, error_iff text parsedZig]
      exact malformed
    · intro wellFormed second checked
      rw [← Bool.not_eq_true, malformed_iff parsedC] at wellFormed
      obtain ⟨first, accepted⟩ := Option.ne_none_iff_exists'.mp wellFormed
      rw [number_eq request parsedC accepted]
      exact primality first second accepted ((ok_iff text parsedZig).mp checked)

section Requests

/-- A request about a number that is no integer. -/
def askFloat : Json :=
  .object [(ascii "method", .string (ascii "isPrime")), (ascii "number", .float (ascii "4.5"))]

/-- A request with a method that begins as it should. -/
def askProlonged : Json :=
  .object [(ascii "method", .string (ascii "isPrimes")), (ascii "number", .integer 7)]

theorem askFloat_fits : askFloat.Fits := by
  apply Json.Fits.object
  intro field member
  simp only [List.mem_cons, List.not_mem_nil, or_false] at member
  rcases member with rfl | rfl
  · exact .string _
  · exact .float _

theorem askProlonged_fits : askProlonged.Fits := by
  apply Json.Fits.object
  intro field member
  simp only [List.mem_cons, List.not_mem_nil, or_false] at member
  rcases member with rfl | rfl
  · exact .string _
  · exact .integer _

theorem validators_agree_iff_float :
    Agree (fun _ => some askFloat) (fun _ => .ok askFloat) ⟨false, false, 0⟩ [0] := by
  refine (validators_agree_iff (fun _ => some askFloat) (fun _ => .ok askFloat) _
    (by decide) askFloat askFloat_fits rfl rfl).mpr ?_
  rintro ⟨⟨method, found, -, other⟩, -⟩
  have same : some (Json.string (ascii "isPrime")) = some (Json.string method) := found
  cases same
  exact other rfl

/-- The C server takes the prolonged method for the right one. -/
theorem not_validators_agree :
    ¬ ∀ (parseC : C.Parser) (parseZig : Zig.Parser) (request : C.IsPrimeRequest) (req : Bytes)
        (json : Json),
      req ≠ [] → json.Fits → parseC req = some json → parseZig req = .ok json →
        Agree parseC parseZig request req := by
  intro always
  have agree := always (fun _ => some askProlonged) (fun _ => .ok askProlonged)
    ⟨false, false, 0⟩ [0] askProlonged (by decide) askProlonged_fits rfl rfl
  have malformed := agree.malformed.mpr ⟨.request .invalidMethod, rfl⟩
  cases malformed

end Requests

end NetworkExercises.PrimeTime
