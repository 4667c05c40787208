/-
Module: NetworkExercises.SpeedDaemon.Proofs.UnixTime
Purpose: `initUnix` against the Gregorian calendar: it gives the one date with that count of
  seconds, `init` gives the same dates, and `toUnixMilli` is its inverse in some years only.
Main exports: DateTime.Exists, DateTime.unixSeconds, initUnix_exact, init_eq_initUnix,
  toUnixMilli_initUnixMs_iff
-/
import NetworkExercises.Lib.Periods
import NetworkExercises.SpeedDaemon.Proofs.Calendar

namespace NetworkExercises.SpeedDaemon.Time

open Lib.Periods

variable {date other : DateTime} {count unix year month : Nat}

/-! ### The Gregorian calendar -/

/-- The leap years before a year: one in four, but no whole century, except one in four. -/
def leapYearsBefore (year : Nat) : Nat := (year + 3) / 4 - (year + 99) / 100 + (year + 399) / 400

/-- The days of a common year in front of a month. -/
def monthStarts : List Nat := [0, 31, 59, 90, 120, 151, 181, 212, 243, 273, 304, 334]

/-- The days from 1 January 1970 to a date. -/
def DateTime.gregorianDay (date : DateTime) : Nat :=
  365 * (date.years - 1970) + (leapYearsBefore date.years - leapYearsBefore 1970) +
    monthStarts.getD date.months 0 +
    (if 2 ≤ date.months ∧ isLeapYear date.years then 1 else 0) + date.days

/-- The seconds from the epoch to a date. -/
def DateTime.unixSeconds (date : DateTime) : Nat :=
  ((date.gregorianDay * 24 + date.hours) * 60 + date.minutes) * 60 + date.seconds

/-- A date of the calendar from 1970 on, and a time of the day. -/
structure DateTime.Exists (date : DateTime) : Prop where
  seconds : date.seconds < 60
  minutes : date.minutes < 60
  hours : date.hours < 24
  valid : date.Valid
  years : 1970 ≤ date.years

/-- The fields of a date, the greatest unit first. -/
def DateTime.fields (date : DateTime) : List Nat :=
  [date.years, date.months, date.days, date.hours, date.minutes, date.seconds]

theorem isLeapYear_iff (year : Nat) :
    isLeapYear year = true ↔ year % 4 = 0 ∧ year % 100 ≠ 0 ∨ year % 400 = 0 := by
  unfold isLeapYear
  dsimp only
  split_ifs <;> simp <;> omega

theorem leapYearsBefore_succ (year : Nat) :
    leapYearsBefore (year + 1) = leapYearsBefore year + if isLeapYear year then 1 else 0 := by
  have leap := isLeapYear_iff year
  have fourths : (year + 1 + 3) / 4 = (year + 3) / 4 + if year % 4 = 0 then 1 else 0 := by
    split <;> omega
  have centuries : (year + 1 + 99) / 100 = (year + 99) / 100 +
      if year % 100 = 0 then 1 else 0 := by
    split <;> omega
  have fourthCenturies : (year + 1 + 399) / 400 = (year + 399) / 400 +
      if year % 400 = 0 then 1 else 0 := by
    split <;> omega
  have fewer : (year + 99) / 100 ≤ (year + 3) / 4 := by omega
  rw [leapYearsBefore, leapYearsBefore, fourths, centuries, fourthCenturies, if_congr leap rfl rfl]
  split_ifs <;> omega

/-- The years before a year, each with 365 days and a leap day where it has one. -/
theorem sum_daysInYear (year : Nat) :
    ∑ past ∈ Finset.range year, daysInYear past = 365 * year + leapYearsBefore year := by
  induction year with
  | zero => rfl
  | succ year ih =>
      rw [Finset.sum_range_succ, ih, leapYearsBefore_succ, daysInYear]
      split <;> omega

theorem daysToYear_add (past : 1970 ≤ year) :
    daysToYear year + (365 * 1970 + leapYearsBefore 1970) = 365 * year + leapYearsBefore year := by
  rw [← sum_daysInYear, ← sum_daysInYear, daysToYear, Nat.add_comm,
    Finset.sum_range_add_sum_Ico _ past]

theorem daysToMonth_eq (year : Nat) (inside : month < 12) :
    daysToMonth year month =
      monthStarts.getD month 0 + if 2 ≤ month ∧ isLeapYear year then 1 else 0 := by
  interval_cases month <;> cases leap : isLeapYear year <;>
    simp [daysToMonth, Finset.sum_range_succ, daysInMonth, leap, monthStarts]

/-- The sums over the years and the months count the days of the calendar. -/
theorem dayNumber_eq_gregorianDay (inside : date.months < 12) (past : 1970 ≤ date.years) :
    date.dayNumber = date.gregorianDay := by
  have years := daysToYear_add past
  have epoch : leapYearsBefore 1970 = 478 := rfl
  have enough : 478 ≤ leapYearsBefore date.years := by
    unfold leapYearsBefore
    omega
  rw [DateTime.dayNumber, DateTime.gregorianDay, daysToMonth_eq _ inside]
  omega

/-! ### The order of the dates -/

/-- A date as a place in its year, and the year's as one since the epoch. -/
theorem dayNumber_eq_position (date : DateTime) :
    date.dayNumber = position (fun past => daysInYear (1970 + past)) (date.years - 1970)
      (position (daysInMonth date.years) date.months date.days) := by
  have years : daysToYear date.years =
      before (fun past => daysInYear (1970 + past)) (date.years - 1970) :=
    Finset.sum_Ico_eq_sum_range _ _ _
  rw [DateTime.dayNumber, years, Nat.add_assoc]
  rfl

/-- A place of a valid date is inside of its year. -/
theorem DateTime.Valid.inside (valid : date.Valid) :
    position (daysInMonth date.years) date.months date.days < daysInYear date.years := by
  obtain ⟨month, day⟩ := valid
  rw [← daysToMonth_twelve]
  exact (position_lt_of_lt day (show date.months < 12 from month)).trans_eq
    (Nat.add_zero (before (daysInMonth date.years) 12))

theorem dayNumber_lt_iff (exists_ : date.Exists) (exists' : other.Exists) :
    date.dayNumber < other.dayNumber ↔ date.years < other.years ∨
      date.years = other.years ∧ (date.months < other.months ∨
        date.months = other.months ∧ date.days < other.days) := by
  have past := exists_.years
  have past' := exists'.years
  rw [dayNumber_eq_position, dayNumber_eq_position, position_lt_iff
    (by rw [Nat.add_sub_cancel' past]; exact exists_.valid.inside)
    (by rw [Nat.add_sub_cancel' past']; exact exists'.valid.inside)]
  apply or_congr (by omega)
  rw [show date.years - 1970 = other.years - 1970 ↔ date.years = other.years by omega]
  apply and_congr_right
  intro same
  rw [← same]
  exact position_lt_iff exists_.valid.2 (same ▸ exists'.valid.2)

/-- One second is of one date only, and dates are in the order of their seconds. -/
theorem fields_lt_iff (exists_ : date.Exists) (exists' : other.Exists) :
    date.fields < other.fields ↔ date.unixSeconds < other.unixSeconds := by
  have days := dayNumber_lt_iff exists_ exists'
  have daysBack := dayNumber_lt_iff exists' exists_
  rw [dayNumber_eq_gregorianDay exists_.valid.1 exists_.years,
    dayNumber_eq_gregorianDay exists'.valid.1 exists'.years] at days daysBack
  obtain ⟨seconds, minutes, hours, -, -⟩ := exists_
  obtain ⟨seconds', minutes', hours', -, -⟩ := exists'
  simp only [DateTime.fields, DateTime.unixSeconds, List.cons_lt_cons_iff, List.lt_irrefl,
    and_false, or_false]
  omega

theorem DateTime.Exists.eq_of_unixSeconds (exists_ : date.Exists) (exists' : other.Exists)
    (same : date.unixSeconds = other.unixSeconds) : date = other := by
  have notBelow := mt (fields_lt_iff exists_ exists').mp same.not_lt
  have notAbove := mt (fields_lt_iff exists' exists_).mp same.not_gt
  have fields : date.fields = other.fields :=
    List.le_antisymm (List.not_lt.mp notAbove) (List.not_lt.mp notBelow)
  simp only [DateTime.fields, List.cons.injEq, and_true] at fields
  obtain ⟨years, months, days, hours, minutes, seconds⟩ := fields
  cases date
  cases other
  simp_all

/-! ### `initUnix` -/

/-- The hours, the minutes and the seconds of a date. -/
def DateTime.timeOfDay (date : DateTime) : Nat × Nat × Nat :=
  (date.hours, date.minutes, date.seconds)

theorem addRest_timeOfDay (self : DateTime) (input : Nat) :
    (addRest self input).timeOfDay = self.timeOfDay := by
  simp only [addRest, wrapMonth, DateTime.timeOfDay]
  split_ifs <;> rfl

theorem addDays_timeOfDay (self : DateTime) (count : Nat) :
    (addDays self count).timeOfDay = self.timeOfDay := by
  unfold addDays
  split
  · rfl
  · exact addRest_timeOfDay _ _

theorem addHours_timeOfDay (self : DateTime) (count : Nat) :
    (addHours self count).timeOfDay = (self.hours + count % 24, self.minutes, self.seconds) := by
  unfold addHours
  split
  · next zero =>
    subst zero
    rfl
  · exact addDays_timeOfDay _ _

theorem addMins_timeOfDay (self : DateTime) (count : Nat) :
    (addMins self count).timeOfDay =
      (self.hours + count / 60 % 24, self.minutes + count % 60, self.seconds) := by
  unfold addMins
  split
  · next zero =>
    subst zero
    rfl
  · exact addHours_timeOfDay _ _

theorem initUnix_timeOfDay (unix : Nat) :
    (initUnix unix).timeOfDay = (unix / 60 / 60 % 24, unix / 60 % 60, unix % 60) := by
  unfold initUnix addSecs
  split
  · next zero =>
    subst zero
    rfl
  · rw [addMins_timeOfDay]
    simp [epochUnix]

theorem DateTime.OnDay.years (onDay : date.OnDay count) : 1970 ≤ date.years := by
  obtain ⟨later, -, insideYear⟩ := skipYears_spec count (le_refl 1970)
  obtain ⟨month, rest, skipped, -⟩ := skipMonths_spec 0 (by omega) (by simpa using insideYear)
  rw [DateTime.OnDay, civil, skipped, Prod.mk.injEq] at onDay
  exact onDay.1 ▸ later

theorem initUnix_exists (unix : Nat) : (initUnix unix).Exists := by
  have time := initUnix_timeOfDay unix
  simp only [DateTime.timeOfDay, Prod.mk.injEq] at time
  obtain ⟨hours, minutes, seconds⟩ := time
  have onDay := initUnix_onDay unix
  exact ⟨by omega, by omega, by omega, onDay.dayNumber_valid.2, onDay.years⟩

theorem initUnix_unixSeconds (unix : Nat) : (initUnix unix).unixSeconds = unix := by
  have time := initUnix_timeOfDay unix
  simp only [DateTime.timeOfDay, Prod.mk.injEq] at time
  obtain ⟨hours, minutes, seconds⟩ := time
  have exists_ := initUnix_exists unix
  have number := (initUnix_onDay unix).dayNumber_valid.1
  rw [dayNumber_eq_gregorianDay exists_.valid.1 exists_.years] at number
  rw [DateTime.unixSeconds, number, hours, minutes, seconds]
  omega

/-- `initUnix` gives the one date of the calendar with that count of seconds, and later
timestamps have later dates. -/
theorem initUnix_exact (unix : Nat) :
    (∀ date, initUnix unix = date ↔ date.Exists ∧ date.unixSeconds = unix) ∧
      ∀ later, (initUnix unix).fields < (initUnix later).fields ↔ unix < later := by
  refine ⟨fun date => ⟨?_, ?_⟩, fun later => ?_⟩
  · rintro rfl
    exact ⟨initUnix_exists unix, initUnix_unixSeconds unix⟩
  · rintro ⟨exists_, seconds⟩
    apply (initUnix_exists unix).eq_of_unixSeconds exists_
    rw [initUnix_unixSeconds, seconds]
  · rw [fields_lt_iff (initUnix_exists unix) (initUnix_exists later), initUnix_unixSeconds,
      initUnix_unixSeconds]

/-- The year of a 32-bit timestamp fits its field. -/
theorem initUnix_years (small : unix < 2 ^ 32) : (initUnix unix).years ≤ 2106 := by
  have exists_ := initUnix_exists unix
  have seconds := initUnix_unixSeconds unix
  have leaps : (initUnix unix).years ≤ 2106 ∨
      leapYearsBefore 2107 ≤ leapYearsBefore (initUnix unix).years := by
    by_cases late : (initUnix unix).years ≤ 2106
    · exact .inl late
    · right
      have := monotone_nat_of_le_succ (f := leapYearsBefore)
        (fun year => by rw [leapYearsBefore_succ]; exact Nat.le_add_right _ _)
      exact this (by omega)
  have bound : leapYearsBefore 2107 = 511 := rfl
  have epoch : leapYearsBefore 1970 = 478 := rfl
  rw [DateTime.unixSeconds, DateTime.gregorianDay] at seconds
  omega

/-! ### `init` -/

/-- Midnight of the first day of a month. -/
def firstOf (year month : Nat) : DateTime := { epochUnix with years := year, months := month }

/-- From the first day of a year its length leads to the next one. -/
theorem addDays_year (year : Nat) : addDays (firstOf year 0) (daysInYear year) =
    firstOf (year + 1) 0 := by
  have positive := daysInYear_pos year
  have years : skipYears year (daysInYear year) = (year + 1, 0) := by
    rw [skipYears, if_pos le_rfl, Nat.sub_self, skipYears,
      if_neg (Nat.not_le.mpr (daysInYear_pos _))]
  have months : skipMonths (year + 1) 0 0 = (year + 1, 0, 0) := by
    rw [skipMonths, if_neg (Nat.not_le.mpr (daysInMonth_pos _ _))]
  simp only [addDays, firstOf, epochUnix, if_neg positive.ne', years, months]
  exact addRest_inside rfl (by simp) (daysInMonth_pos _ _)

theorem addYears_epoch (count : Nat) : addYears epochUnix count = firstOf (1970 + count) 0 := by
  induction count with
  | zero => rfl
  | succ count ih =>
      rw [addYears, Function.iterate_succ_apply', ← addYears, ih]
      exact addDays_year _

/-- Fewer days than a month has stay in the month. -/
theorem addDays_inside {days : Nat} (inside : month < 12) (short : days < daysInMonth year month) :
    addDays (firstOf year month) days = { firstOf year month with days := days } := by
  have enough : ¬ daysInYear year ≤ days := by
    have := daysInMonth_le year month
    unfold daysInYear
    split <;> omega
  have years : skipYears year days = (year, days) := by rw [skipYears, if_neg enough]
  have months : skipMonths year month days = (year, month, days) := by
    rw [skipMonths, if_neg (Nat.not_le.mpr short)]
  unfold addDays
  split
  · next zero =>
    subst zero
    rfl
  · simp only [firstOf, epochUnix, years, months]
    exact addRest_inside rfl inside short

/-- From the first day of a month its length leads to the next one. -/
theorem addDays_month (early : month + 1 < 12) :
    addDays (firstOf year month) (daysInMonth year month) = firstOf year (month + 1) := by
  have positive := daysInMonth_pos year month
  have enough : ¬ daysInYear year ≤ daysInMonth year month := by
    have := daysInMonth_le year month
    unfold daysInYear
    split <;> omega
  have years : skipYears year (daysInMonth year month) = (year, daysInMonth year month) := by
    rw [skipYears, if_neg enough]
  have months : skipMonths year month (daysInMonth year month) = (year, month + 1, 0) := by
    rw [skipMonths, if_pos le_rfl, if_neg early.ne, Nat.sub_self, skipMonths,
      if_neg (Nat.not_le.mpr (daysInMonth_pos _ _))]
  simp only [addDays, firstOf, epochUnix, if_neg positive.ne', years, months]
  exact addRest_inside rfl early (daysInMonth_pos _ _)

theorem addMonths_first (inside : month < 12) :
    addMonths (firstOf year 0) month = firstOf year month := by
  induction month with
  | zero => rfl
  | succ month ih =>
      rw [addMonths, Function.iterate_succ_apply', ← addMonths, ih (by omega)]
      exact addDays_month inside

/-- Hours, minutes and seconds of one day leave the day alone. -/
theorem addTime_inside {self : DateTime} {hr min sec : Nat} (midnight : self.timeOfDay = (0, 0, 0))
    (hours : hr < 24) (minutes : min < 60) (seconds : sec < 60) :
    addSecs (addMins (addHours self hr) min) sec =
      { self with hours := hr, minutes := min, seconds := sec } := by
  obtain ⟨s, m, h, days, months, years⟩ := self
  simp only [DateTime.timeOfDay, Prod.mk.injEq] at midnight
  obtain ⟨rfl, rfl, rfl⟩ := midnight
  simp only [addSecs, addMins, addHours, addDays, Nat.div_eq_of_lt hours, Nat.div_eq_of_lt minutes,
    Nat.div_eq_of_lt seconds, Nat.mod_eq_of_lt hours, Nat.mod_eq_of_lt minutes,
    Nat.mod_eq_of_lt seconds, if_true]
  split_ifs <;> simp_all

/-- Year by year and month by month, `init` finds the date that `initUnix` counts to. -/
theorem init_eq_initUnix (exists_ : date.Exists) :
    init date.years date.months date.days date.hours date.minutes date.seconds = date ∧
      initUnix date.unixSeconds = date := by
  have past := exists_.years
  obtain ⟨seconds, minutes, hours, ⟨month, day⟩, -⟩ := id exists_
  refine ⟨?_, (initUnix_exists _).eq_of_unixSeconds exists_ (initUnix_unixSeconds _)⟩
  rw [init, addYears_epoch, show 1970 + (date.years - epochUnix.years) = date.years from
    Nat.add_sub_cancel' past, addMonths_first month, addDays_inside month day,
    addTime_inside rfl hours minutes seconds]
  rfl

theorem init_eq_initUnix_leapDay : init 2024 1 28 23 59 59 = initUnix 1709251199 := by
  have leapDay : DateTime.Exists ⟨59, 59, 23, 28, 1, 2024⟩ := by
    refine ⟨by decide, by decide, by decide, ⟨by decide, by decide⟩, by decide⟩
  obtain ⟨counted, found⟩ := init_eq_initUnix leapDay
  rw [counted, ← found]
  rfl

/-! ### Back to a count -/

/-- As many of the years from the epoch to a year are leap years as of the first years of
the calendar. -/
def LeapYearsAgree (year : Nat) : Prop :=
  leapYearsBefore (year - 1970) = leapYearsBefore year - leapYearsBefore 1970

instance (year : Nat) : Decidable (LeapYearsAgree year) :=
  inferInstanceAs (Decidable (leapYearsBefore (year - 1970) = _))

theorem addMs_epoch (unix : Nat) :
    initUnixMs unix = { initUnix (unix / 1000) with ms := unix % 1000 } := by
  unfold initUnixMs addMs
  split
  · next zero =>
    subst zero
    rfl
  · rw [Nat.zero_add]
    rfl

/-- `daysSinceEpoch` counts the leap days of the wrong years. -/
theorem daysSinceEpoch_eq (exists_ : date.Exists) :
    daysSinceEpoch date + (leapYearsBefore date.years - leapYearsBefore 1970) =
      date.gregorianDay + leapYearsBefore (date.years - 1970) := by
  have months : ∑ i ∈ Finset.range date.months, daysInMonth date.years i = _ :=
    daysToMonth_eq date.years exists_.valid.1
  rw [daysSinceEpoch, DateTime.gregorianDay, sum_daysInYear, months]
  simp only [epochUnix]
  omega

/-- It is never wrong by a whole week. -/
theorem leapYears_apart (past : 1970 ≤ year) :
    leapYearsBefore (year - 1970) ≤ leapYearsBefore year - leapYearsBefore 1970 + 3 ∧
      leapYearsBefore year - leapYearsBefore 1970 ≤ leapYearsBefore (year - 1970) + 3 := by
  obtain ⟨behind, rfl⟩ := Nat.exists_eq_add_of_le past
  have epoch : leapYearsBefore 1970 = 478 := rfl
  have fourths : (1970 + behind + 3) / 4 ≤ (behind + 3) / 4 + 493 := by omega
  have fourths' : (behind + 3) / 4 + 492 ≤ (1970 + behind + 3) / 4 := by omega
  have centuries : (1970 + behind + 99) / 100 ≤ (behind + 99) / 100 + 20 := by omega
  have centuries' : (behind + 99) / 100 + 19 ≤ (1970 + behind + 99) / 100 := by omega
  have fourthCenturies : (1970 + behind + 399) / 400 ≤ (behind + 399) / 400 + 5 := by omega
  have fourthCenturies' : (behind + 399) / 400 + 4 ≤ (1970 + behind + 399) / 400 := by omega
  have fewer : (behind + 99) / 100 ≤ (behind + 3) / 4 := by omega
  rw [Nat.add_sub_cancel_left, epoch, leapYearsBefore, leapYearsBefore]
  omega

theorem next_iterate_eq_iff (one other : Nat) :
    WeekDay.next^[one] .Thu = WeekDay.next^[other] .Thu ↔ one % 7 = other % 7 := by
  have week : WeekDay.next^[7] = id := by
    funext day
    cases day <;> rfl
  have within (count : Nat) : WeekDay.next^[count] .Thu = WeekDay.next^[count % 7] .Thu := by
    conv_lhs => rw [← Nat.mod_add_div count 7]
    rw [Function.iterate_add_apply, Function.iterate_mul, week, Function.iterate_id, id]
  have inj : ∀ a < 7, ∀ b < 7, WeekDay.next^[a] .Thu = WeekDay.next^[b] .Thu → a = b := by decide
  rw [within one, within other]
  exact ⟨inj _ (Nat.mod_lt _ (by omega)) _ (Nat.mod_lt _ (by omega)), fun same => by rw [same]⟩

/-- Back from a date, `toUnixMilli` gives the count that the date came from, and `weekday` the
day of the week, exactly in the years in which the leap years agree. -/
theorem toUnixMilli_initUnixMs_iff (unix : Nat) :
    (toUnixMilli (initUnixMs unix) = unix ↔ LeapYearsAgree (initUnixMs unix).years) ∧
      (weekday (initUnixMs unix).toDateTime = WeekDay.next^[unix / 86400000] .Thu ↔
        LeapYearsAgree (initUnixMs unix).years) := by
  have exists_ := initUnix_exists (unix / 1000)
  have seconds := initUnix_unixSeconds (unix / 1000)
  have days := daysSinceEpoch_eq exists_
  have apart := leapYears_apart exists_.years
  obtain ⟨s, m, h, -, -⟩ := id exists_
  rw [DateTime.unixSeconds] at seconds
  rw [addMs_epoch]
  simp only [toUnixMilli, weekday, next_iterate_eq_iff, LeapYearsAgree]
  constructor <;> omega

/-- A year later `toUnix` is a day ahead. -/
example : toUnix (initUnixMs (365 * 86400 * 1000)) = 366 * 86400 := by decide +kernel

end NetworkExercises.SpeedDaemon.Time
