import FluentSql.Number.Decimal

/-!
# Dates and times of day

Days of the proleptic Gregorian calendar from year 1 to year 9999, and times
of day to the second.

* `Date`, `TimeOfDay` and `DateTime` hold fields that were checked on reading.
* `Moment` is what all three can be asked for, and `Moment.format` fills a
  pattern of percent directives with it.
* `Moment.ofSeconds` turns a count of seconds into a date and a time.
-/

namespace FluentSql

open Number

/-- Whether a year has a twenty-ninth of February. -/
def isLeapYear (year : Nat) : Bool :=
  year % 4 == 0 && (year % 100 != 0 || year % 400 == 0)

/-- The number of days of a month, the first month being 1. -/
def daysInMonth (year month : Nat) : Nat :=
  if month = 2 then (if isLeapYear year then 29 else 28)
  else if month = 4 ∨ month = 6 ∨ month = 9 ∨ month = 11 then 30
  else 31

/-- A day of the calendar. -/
structure Date where
  /-- The year, from 1 to 9999. -/
  year : Nat
  /-- The month, from 1 to 12. -/
  month : Nat
  /-- The day of the month, from 1. -/
  day : Nat
deriving DecidableEq

/-- A time of day to the second. -/
structure TimeOfDay where
  /-- The hour, below 24. -/
  hour : Nat
  /-- The minute, below 60. -/
  minute : Nat
  /-- The second, below 60. -/
  second : Nat
deriving DecidableEq

/-- A day with a time. -/
structure DateTime where
  /-- The day. -/
  date : Date
  /-- The time. -/
  time : TimeOfDay
deriving DecidableEq

namespace Date

/-- The day with these fields, if there is one. -/
def ofFields? (year month day : Int) : Option Date :=
  if 1 ≤ year ∧ year ≤ 9999 ∧ 1 ≤ month ∧ month ≤ 12 ∧ 1 ≤ day ∧
      day ≤ daysInMonth year.toNat month.toNat then
    some ⟨year.toNat, month.toNat, day.toNat⟩
  else none

/-- The day as `YYYY-MM-DD`. -/
def iso (d : Date) : String :=
  natPadded 4 d.year ++ "-" ++ natPadded 2 d.month ++ "-" ++ natPadded 2 d.day

end Date

namespace TimeOfDay

/-- The time with these fields, if there is one. -/
def ofFields? (hour minute second : Int) : Option TimeOfDay :=
  if 0 ≤ hour ∧ hour < 24 ∧ 0 ≤ minute ∧ minute < 60 ∧ 0 ≤ second ∧ second < 60 then
    some ⟨hour.toNat, minute.toNat, second.toNat⟩
  else none

/-- The time as `HH:MM:SS`. -/
def iso (t : TimeOfDay) : String :=
  natPadded 2 t.hour ++ ":" ++ natPadded 2 t.minute ++ ":" ++ natPadded 2 t.second

end TimeOfDay

/-- A day of any year and a time of day. -/
structure Moment where
  /-- The year; a mere time of day lies on the first of January 1900. -/
  year : Int := 1900
  /-- The month, from 1 to 12. -/
  month : Nat := 1
  /-- The day of the month, from 1. -/
  day : Nat := 1
  /-- The time; a mere day starts at midnight. -/
  time : TimeOfDay := ⟨0, 0, 0⟩

namespace Moment

/-- The start of a day. -/
def ofDate (d : Date) : Moment where
  year := d.year
  month := d.month
  day := d.day

/-- A day with a time. -/
def ofDateTime (d : DateTime) : Moment :=
  { ofDate d.date with time := d.time }

/-- Fills in the directive with this letter.  A year is written without leading zeros. -/
def field (m : Moment) : Char → List Char
  | 'Y' => (intText m.year).toList
  | 'm' => padLeft 2 (natDigits m.month)
  | 'd' => padLeft 2 (natDigits m.day)
  | 'H' => padLeft 2 (natDigits m.time.hour)
  | 'M' => padLeft 2 (natDigits m.time.minute)
  | 'S' => padLeft 2 (natDigits m.time.second)
  | c => ['%', c]

/-- Fills in every directive of a pattern. -/
def fill (m : Moment) : List Char → List Char
  | [] => []
  | '%' :: c :: rest => m.field c ++ m.fill rest
  | c :: rest => c :: m.fill rest

/-- The text of the moment in a pattern. -/
def format (m : Moment) (pattern : String) : String :=
  String.ofList (m.fill pattern.toList)

/-- Takes whole years off a number of days, starting from `year`. -/
def yearOf : (fuel year days : Nat) → Nat × Nat
  | 0, year, days => (year, days)
  | fuel + 1, year, days =>
    let length := if isLeapYear year then 366 else 365
    if length ≤ days then yearOf fuel (year + 1) (days - length) else (year, days)

/-- Takes whole months off a number of days within a year, starting from `month`. -/
def monthOf (year : Nat) : (fuel month days : Nat) → Nat × Nat
  | 0, month, days => (month, days)
  | fuel + 1, month, days =>
    if daysInMonth year month ≤ days then
      monthOf year fuel (month + 1) (days - daysInMonth year month)
    else (month, days)

/-- The number of days from the start of year 1 to the start of 1970. -/
def daysBefore1970 : Int := 719162

/-- The number of days of four hundred years, after which the calendar repeats itself. -/
def daysOfCycle : Int := 146097

/-- The moment that many seconds after the start of 1970, in universal time, or before it if
negative. -/
def ofSeconds (seconds : Int) : Moment :=
  let days := seconds.fdiv 86400 + daysBefore1970
  let (year, dayOfYear) := yearOf 400 1 (days.fmod daysOfCycle).toNat
  let (month, day) := monthOf year 12 1 dayOfYear
  let rest := (seconds.fmod 86400).toNat
  { year := 400 * days.fdiv daysOfCycle + year
    month
    day := day + 1
    time := ⟨rest / 3600, rest / 60 % 60, rest % 60⟩ }

end Moment

end FluentSql
