/-
Module: NetworkExercises.SpeedDaemon.Time
Purpose: The vendored `6-speed-daemon/time.zig`: the part that the ticket logic uses,
  `initUnix` and the format "MM/DD/YYYY", and the way back from a date to a count.
Main exports: DateTime, initUnix, formatDate, DateTimeMs, initUnixMs, init, toUnixMilli, weekday
-/
import Mathlib.Tactic

namespace NetworkExercises.SpeedDaemon.Time

structure DateTime where
  seconds : Nat
  minutes : Nat
  hours : Nat
  days : Nat
  months : Nat
  years : Nat
deriving DecidableEq, Repr

/-- `epoch_unix`; days and months count from zero. -/
def epochUnix : DateTime :=
  { seconds := 0, minutes := 0, hours := 0, days := 0, months := 0, years := 1970 }

def isLeapYear (year : Nat) : Bool :=
  let ret := false
  let ret := if year % 4 = 0 then true else ret
  let ret := if year % 100 = 0 then false else ret
  if year % 400 = 0 then true else ret

def daysInYear (year : Nat) : Nat := if isLeapYear year then 366 else 365

/-- `daysInMonth`; the program indexes its tables only with months below 12. -/
def daysInMonth (year month : Nat) : Nat :=
  let norm := [31, 28, 31, 30, 31, 30, 31, 31, 30, 31, 30, 31]
  let leap := [31, 29, 31, 30, 31, 30, 31, 31, 30, 31, 30, 31]
  let monthDays := if isLeapYear year then leap else norm
  monthDays.getD month 31

theorem daysInYear_pos (year : Nat) : 0 < daysInYear year := by
  unfold daysInYear
  split <;> omega

theorem daysInMonth_pos (year month : Nat) : 0 < daysInMonth year month := by
  unfold daysInMonth
  by_cases small : month < 12
  · interval_cases month <;> cases isLeapYear year <;> decide
  · have outside : ∀ table : List Nat, table.length = 12 → table.getD month 31 = 31 := by
      intro table length
      rw [List.getD_eq_getElem?_getD, List.getElem?_eq_none (by omega), Option.getD_none]
    dsimp only
    split <;> rw [outside _ rfl] <;> decide

/-- The first loop of `addDays`: whole years. -/
def skipYears (years input : Nat) : Nat × Nat :=
  if daysInYear years ≤ input then
    skipYears (years + 1) (input - daysInYear years)
  else (years, input)
termination_by input
decreasing_by
  have := daysInYear_pos years
  omega

/-- The second loop of `addDays`: whole months. -/
def skipMonths (years months input : Nat) : Nat × Nat × Nat :=
  if daysInMonth years months ≤ input then
    if months + 1 = 12 then
      skipMonths (years + 1) 0 (input - daysInMonth years months)
    else skipMonths years (months + 1) (input - daysInMonth years months)
  else (years, months, input)
termination_by input
decreasing_by
  all_goals
    have := daysInMonth_pos years months
    omega

/-- The wrap at the end of `addDays`. -/
def wrapMonth (date : DateTime) : DateTime :=
  if date.months = 12 then { date with years := date.years + 1, months := 0 } else date

/-- The last block of `addDays`: the days that are left. -/
def addRest (date : DateTime) (input : Nat) : DateTime :=
  let monthLen := daysInMonth date.years date.months
  let (date, input) :=
    if monthLen < date.days + input then
      ({ date with months := date.months + 1, days := 0 },
        input - (monthLen - date.days))
    else (date, input)
  let date := { date with days := date.days + input }
  let date :=
    if date.days = daysInMonth date.years date.months then
      { date with months := date.months + 1, days := 0 }
    else date
  wrapMonth date

def addDays (self : DateTime) (count : Nat) : DateTime :=
  if count = 0 then self
  else
    let (years, input) := skipYears self.years count
    let (years, months, input) := skipMonths years self.months input
    addRest { self with years := years, months := months } input

def addHours (self : DateTime) (count : Nat) : DateTime :=
  if count = 0 then self
  else addDays { self with hours := self.hours + count % 24 } (count / 24)

def addMins (self : DateTime) (count : Nat) : DateTime :=
  if count = 0 then self
  else addHours { self with minutes := self.minutes + count % 60 } (count / 60)

def addSecs (self : DateTime) (count : Nat) : DateTime :=
  if count = 0 then self
  else addMins { self with seconds := self.seconds + count % 60 } (count / 60)

def initUnix (unix : Nat) : DateTime := addSecs epochUnix unix

/-- The specifier `{:0>width}`. -/
def padded (width value : Nat) : List Char :=
  (Nat.toDigits 10 value).leftpad width '0'

/-- `std.fmt` with the format "MM/DD/YYYY". -/
def formatDate (date : DateTime) : List Char :=
  padded 2 (date.months + 1) ++ '/' :: (padded 2 (date.days + 1) ++
    '/' :: padded 4 date.years)

/-- 1 July 2021, from the tests of `logic.zig`. -/
example : formatDate (initUnix 1625097600) = "07/01/2021".toList := by
  decide +kernel

/-! ### Years and months -/

/-- `addMonths`. -/
def addMonths (self : DateTime) (count : Nat) : DateTime :=
  (fun result => addDays result (daysInMonth result.years result.months))^[count] self

/-- `addYears`. -/
def addYears (self : DateTime) (count : Nat) : DateTime :=
  (fun result => addDays result (daysInYear result.years))^[count] self

/-- `init`; the caller asserts that the year is not before the epoch. -/
def init (year month day hr min sec : Nat) : DateTime :=
  addSecs (addMins (addHours (addDays (addMonths (addYears epochUnix
    (year - epochUnix.years)) month) day) hr) min) sec

/-! ### From dates to counts -/

/-- A date with its milliseconds; `initUnix` leaves them at zero. -/
structure DateTimeMs extends DateTime where
  ms : Nat
deriving DecidableEq, Repr

def addMs (self : DateTimeMs) (count : Nat) : DateTimeMs :=
  if count = 0 then self
  else { addSecs self.toDateTime (count / 1000) with ms := self.ms + count % 1000 }

def initUnixMs (unix : Nat) : DateTimeMs := addMs { epochUnix with ms := 0 } unix

/-- `daysSinceEpoch`; the first sum counts the years from zero. -/
def daysSinceEpoch (self : DateTime) : Nat :=
  self.days + ∑ i ∈ Finset.range (self.years - epochUnix.years), daysInYear i +
    ∑ i ∈ Finset.range self.months, daysInMonth self.years i

def toUnixMilli (self : DateTimeMs) : Nat :=
  self.ms + self.seconds * 1000 + self.minutes * 60000 + self.hours * 3600000 +
    daysSinceEpoch self.toDateTime * 86400000

def toUnix (self : DateTimeMs) : Nat := toUnixMilli self / 1000

inductive WeekDay where
  | Sun | Mon | Tue | Wed | Thu | Fri | Sat
deriving DecidableEq, Repr

/-- `WeekDay.next`. -/
def WeekDay.next : WeekDay → WeekDay
  | .Sun => .Mon
  | .Mon => .Tue
  | .Tue => .Wed
  | .Wed => .Thu
  | .Thu => .Fri
  | .Fri => .Sat
  | .Sat => .Sun

/-- `weekday`; the epoch was a Thursday. -/
def weekday (self : DateTime) : WeekDay := WeekDay.next^[daysSinceEpoch self % 7] .Thu

end NetworkExercises.SpeedDaemon.Time
