/-
Module: NetworkExercises.SpeedDaemon.Proofs.Calendar
Purpose: The date of a timestamp and its text stand for the day, counted in
  whole multiples of 86400 seconds.
Main exports: initUnix_onDay, formatDate_initUnix_eq_iff
-/
import NetworkExercises.SpeedDaemon.Time

namespace NetworkExercises.SpeedDaemon.Time

/-! ### Counting days -/

/-- Days between 1 January 1970 and the first day of a year. -/
def daysToYear (year : Nat) : Nat := ∑ past ∈ Finset.Ico 1970 year, daysInYear past

/-- Days between the first day of a year and the first day of a month. -/
def daysToMonth (year month : Nat) : Nat :=
  ∑ past ∈ Finset.range month, daysInMonth year past

/-- Days between 1 January 1970 and a date. -/
def DateTime.dayNumber (date : DateTime) : Nat :=
  daysToYear date.years + daysToMonth date.years date.months + date.days

/-- What the assertions at the end of `addDays` ask for. -/
def DateTime.Valid (date : DateTime) : Prop :=
  date.months < 12 ∧ date.days < daysInMonth date.years date.months

@[simp] theorem daysToYear_epoch : daysToYear 1970 = 0 := rfl

@[simp] theorem daysToMonth_zero (year : Nat) : daysToMonth year 0 = 0 := rfl

theorem daysToYear_succ {year : Nat} (past : 1970 ≤ year) :
    daysToYear (year + 1) = daysToYear year + daysInYear year :=
  Finset.sum_Ico_succ_top past _

theorem daysToMonth_succ (year month : Nat) :
    daysToMonth year (month + 1) = daysToMonth year month + daysInMonth year month :=
  Finset.sum_range_succ _ _

/-- The twelve months fill the year. -/
theorem daysToMonth_twelve (year : Nat) : daysToMonth year 12 = daysInYear year := by
  unfold daysInYear
  cases leap : isLeapYear year <;>
    simp [daysToMonth, Finset.sum_range_succ, daysInMonth, leap]

/-! ### The loops of `addDays` -/

/-- The first loop keeps the day it counts to and ends inside a year. -/
theorem skipYears_spec {years : Nat} (input : Nat) (past : 1970 ≤ years) :
    1970 ≤ (skipYears years input).1 ∧
      daysToYear (skipYears years input).1 + (skipYears years input).2 =
        daysToYear years + input ∧
      (skipYears years input).2 < daysInYear (skipYears years input).1 := by
  fun_induction skipYears years input with
  | case1 years input whole ih =>
      obtain ⟨later, count, inside⟩ := ih (by omega)
      rw [daysToYear_succ past] at count
      exact ⟨later, by omega, inside⟩
  | case2 years input short => exact ⟨past, rfl, by simpa using short⟩

/-- The second loop stays in the year and ends inside a month. -/
theorem skipMonths_spec {years input : Nat} (months : Nat) (month : months < 12)
    (inside : daysToMonth years months + input < daysInYear years) :
    ∃ months' rest, skipMonths years months input = (years, months', rest) ∧
      months' < 12 ∧ rest < daysInMonth years months' ∧
      daysToMonth years months' + rest = daysToMonth years months + input := by
  fun_induction skipMonths years months input with
  | case1 years months input whole last ih =>
      -- The last month does not fit into what is left of the year.
      have full := daysToMonth_twelve years
      rw [← last, daysToMonth_succ] at full
      omega
  | case2 years months input whole early ih =>
      have step := daysToMonth_succ years months
      obtain ⟨months', rest, skipped, bound, short, count⟩ := ih (by omega) (by omega)
      exact ⟨months', rest, skipped, bound, short, by omega⟩
  | case3 years months input short =>
      exact ⟨months, input, rfl, month, by omega, rfl⟩

/-- The year, month and day of the month that the loops reach from the epoch. -/
def civil (count : Nat) : Nat × Nat × Nat :=
  skipMonths (skipYears 1970 count).1 0 (skipYears 1970 count).2

/-- The date lies `count` days after the epoch. -/
def DateTime.OnDay (date : DateTime) (count : Nat) : Prop :=
  (date.years, date.months, date.days) = civil count

theorem DateTime.OnDay.dayNumber_valid {date : DateTime} {count : Nat}
    (onDay : date.OnDay count) : date.dayNumber = count ∧ date.Valid := by
  obtain ⟨-, yearCount, insideYear⟩ := skipYears_spec count (le_refl 1970)
  obtain ⟨month, rest, skipped, bound, short, monthCount⟩ :=
    skipMonths_spec 0 (by omega) (by simpa using insideYear)
  rw [DateTime.OnDay, civil, skipped] at onDay
  simp only [Prod.mk.injEq] at onDay
  obtain ⟨yearEq, monthEq, dayEq⟩ := onDay
  simp only [daysToYear_epoch, daysToMonth_zero] at yearCount monthCount
  simp only [DateTime.dayNumber, DateTime.Valid, yearEq, monthEq, dayEq]
  exact ⟨by omega, bound, short⟩

/-- `self` is a time of the first day of the epoch. -/
def DateTime.FirstDay (self : DateTime) : Prop :=
  self.years = 1970 ∧ self.months = 0 ∧ self.days = 0

/-- The last block of `addDays` finds a day inside the month and only stores it. -/
theorem addRest_inside {self : DateTime} {input : Nat} (first : self.days = 0)
    (month : self.months < 12) (inside : input < daysInMonth self.years self.months) :
    addRest self input = { self with days := input } := by
  simp [addRest, wrapMonth, first, Nat.not_lt.mpr inside.le, inside.ne, month.ne]

theorem addDays_onDay {self : DateTime} (count : Nat) (first : self.FirstDay) :
    (addDays self count).OnDay count := by
  obtain ⟨years, months, days⟩ := first
  obtain ⟨-, -, insideYear⟩ := skipYears_spec count (le_refl 1970)
  obtain ⟨month, rest, skipped, bound, short, -⟩ :=
    skipMonths_spec 0 (by omega) (by simpa using insideYear)
  by_cases zero : count = 0
  · subst zero
    rw [addDays, if_pos rfl, DateTime.OnDay, years, months, days]
    decide +kernel
  · have result : addDays self count = addRest
        { self with years := (skipYears 1970 count).1, months := month } rest := by
      simp only [addDays, if_neg zero, years, months, skipped]
    rw [result, addRest_inside (by exact days) bound short, DateTime.OnDay, civil, skipped]

/-- Carrying hours over keeps the first day and counts the whole days. -/
theorem addHours_onDay {self : DateTime} (count : Nat) (first : self.FirstDay) :
    (addHours self count).OnDay (count / 24) := by
  unfold addHours
  split
  · next zero =>
    subst zero
    exact addDays_onDay 0 first
  · exact addDays_onDay _ first

theorem addMins_onDay {self : DateTime} (count : Nat) (first : self.FirstDay) :
    (addMins self count).OnDay (count / 60 / 24) := by
  unfold addMins
  split
  · next zero =>
    subst zero
    exact addHours_onDay 0 first
  · exact addHours_onDay _ first

/-- `initUnix` gives the date of the day that the timestamp lies in. -/
theorem initUnix_onDay (unix : Nat) : (initUnix unix).OnDay (unix / 86400) := by
  have days : unix / 60 / 60 / 24 = unix / 86400 := by omega
  unfold initUnix addSecs
  split
  · next zero =>
    subst zero
    exact addMins_onDay 0 ⟨rfl, rfl, rfl⟩
  · rw [← days]
    exact addMins_onDay _ ⟨rfl, rfl, rfl⟩

/-! ### The text of a date -/

/-- The zeros in front do not change the number that the digits spell. -/
theorem padded_value (width value : Nat) :
    Nat.ofDigitChars 10 (padded width value) 0 = value := by
  rw [padded, List.leftpad, Nat.ofDigitChars_append, Nat.ofDigitChars_replicate_zero,
    Nat.mul_zero, Nat.ofDigitChars_ten_toDigits]

theorem padded_injective (width : Nat) : Function.Injective (padded width) := by
  intro left right same
  rw [← padded_value width left, same, padded_value]

/-- Two digits are enough for a month or a day of the month. -/
theorem padded_two_length {value : Nat} (small : value < 100) :
    (padded 2 value).length = 2 := by
  have short : (Nat.toDigits 10 value).length ≤ 2 :=
    (Nat.length_toDigits_le_iff (by omega) (by omega)).mpr (by omega)
  simp only [padded, List.leftpad, List.length_append, List.length_replicate]
  omega

theorem daysInMonth_le (year month : Nat) : daysInMonth year month ≤ 31 := by
  unfold daysInMonth
  by_cases small : month < 12
  · interval_cases month <;> cases isLeapYear year <;> decide
  · dsimp only
    split <;> rw [List.getD_eq_getElem?_getD, List.getElem?_eq_none (by simp; omega)] <;>
      decide

/-- Valid dates with the same text have the same month, day and year. -/
theorem formatDate_inj {left right : DateTime} (leftValid : left.Valid)
    (rightValid : right.Valid) (same : formatDate left = formatDate right) :
    left.months = right.months ∧ left.days = right.days ∧ left.years = right.years := by
  have leftDays := daysInMonth_le left.years left.months
  have rightDays := daysInMonth_le right.years right.months
  obtain ⟨leftMonth, leftDay⟩ := leftValid
  obtain ⟨rightMonth, rightDay⟩ := rightValid
  unfold formatDate at same
  obtain ⟨monthEq, same⟩ := List.append_inj same (by
    rw [padded_two_length (by omega), padded_two_length (by omega)])
  obtain ⟨-, same⟩ := List.cons.inj same
  obtain ⟨dayEq, same⟩ := List.append_inj same (by
    rw [padded_two_length (by omega), padded_two_length (by omega)])
  obtain ⟨-, yearEq⟩ := List.cons.inj same
  have := padded_injective _ monthEq
  have := padded_injective _ dayEq
  have := padded_injective _ yearEq
  omega

/-- Two timestamps have the same text exactly when they lie in the same day. -/
theorem formatDate_initUnix_eq_iff (left right : Nat) :
    formatDate (initUnix left) = formatDate (initUnix right) ↔
      left / 86400 = right / 86400 := by
  have leftDay := initUnix_onDay left
  have rightDay := initUnix_onDay right
  constructor
  · intro same
    obtain ⟨leftNumber, leftValid⟩ := leftDay.dayNumber_valid
    obtain ⟨rightNumber, rightValid⟩ := rightDay.dayNumber_valid
    obtain ⟨months, days, years⟩ := formatDate_inj leftValid rightValid same
    rw [← leftNumber, ← rightNumber, DateTime.dayNumber, DateTime.dayNumber, months,
      days, years]
  · intro same
    rw [DateTime.OnDay, same, ← rightDay] at leftDay
    simp only [Prod.mk.injEq] at leftDay
    obtain ⟨years, months, days⟩ := leftDay
    rw [formatDate, formatDate, months, days, years]

/-- A year costs at least one day. -/
theorem year_le (year : Nat) : year ≤ 1970 + daysToYear year := by
  induction year with
  | zero => omega
  | succ year ih =>
      by_cases past : 1970 ≤ year
      · have := daysInYear_pos year
        rw [daysToYear_succ past]
        omega
      · omega

theorem padded_length_le {width digits value : Nat} (enough : width ≤ digits)
    (positive : 0 < digits) (small : value < 10 ^ digits) :
    (padded width value).length ≤ digits := by
  have short : (Nat.toDigits 10 value).length ≤ digits :=
    (Nat.length_toDigits_le_iff (by omega) positive).mpr small
  simp only [padded, List.leftpad, List.length_append, List.length_replicate]
  omega

/-- The text of a 32-bit timestamp's date is short. -/
theorem formatDate_initUnix_length {unix : Nat} (bound : unix < 2 ^ 32) :
    (formatDate (initUnix unix)).length ≤ 16 := by
  obtain ⟨number, month, day⟩ := (initUnix_onDay unix).dayNumber_valid
  have days := daysInMonth_le (initUnix unix).years (initUnix unix).months
  have early := year_le (initUnix unix).years
  rw [DateTime.dayNumber] at number
  have year : (padded 4 (initUnix unix).years).length ≤ 5 :=
    padded_length_le (by omega) (by omega) (by omega)
  simp only [formatDate, List.length_append, List.length_cons,
    padded_two_length (show (initUnix unix).months + 1 < 100 by omega),
    padded_two_length (show (initUnix unix).days + 1 < 100 by omega)]
  omega

end NetworkExercises.SpeedDaemon.Time
