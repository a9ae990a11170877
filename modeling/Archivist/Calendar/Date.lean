/-!
# Dates

Days of the proleptic Gregorian calendar from 1 January −262143 to 31 December 262142. A `Date`
is a valid combination of year, month and day; its `dayNumber` counts the days of the calendar,
day 1 being 1 January of year 1, and orders the dates. `Date.shift` moves along that count and
fails where the calendar ends.
-/

namespace Archivist

namespace Calendar

/-- The first year of the calendar. -/
def firstYear : Int := -262143

/-- The last year of the calendar. -/
def lastYear : Int := 262142

/-- Years with a twenty-ninth of February. -/
def isLeap (year : Int) : Bool :=
  year.fmod 4 = 0 && (year.fmod 100 ≠ 0 || year.fmod 400 = 0)

/-- The number of days of a month; no month outside 1 to 12 has any. -/
def daysInMonth (year : Int) : Nat → Nat
  | 1 | 3 | 5 | 7 | 8 | 10 | 12 => 31
  | 4 | 6 | 9 | 11 => 30
  | 2 => if isLeap year then 29 else 28
  | _ => 0

/-- The days between 1 January of year 1 and 1 January of the given year. -/
def daysBeforeYear (year : Int) : Int :=
  let y := year - 1
  365 * y + y.fdiv 4 - y.fdiv 100 + y.fdiv 400

/-- The days of a year before the first of the given month. -/
def daysBeforeMonth (year : Int) : Nat → Nat
  | 0 | 1 => 0
  | month + 1 => daysBeforeMonth year month + daysInMonth year month

/-- Whether year, month and day name a day of the calendar. -/
def Valid (year : Int) (month day : Nat) : Prop :=
  firstYear ≤ year ∧ year ≤ lastYear ∧ 1 ≤ day ∧ day ≤ daysInMonth year month

instance (year : Int) (month day : Nat) : Decidable (Valid year month day) :=
  inferInstanceAs (Decidable (_ ∧ _))

end Calendar

/-- A day of the calendar. -/
structure Date where
  year : Int
  month : Nat
  day : Nat
  valid : Calendar.Valid year month day
  deriving DecidableEq

namespace Date

open Calendar

/-- The day with these numbers, if there is one. -/
def ofParts? (year : Int) (month day : Nat) : Option Date :=
  if h : Valid year month day then some ⟨year, month, day, h⟩ else none

/-- The position of a day in the count of all days. -/
def dayNumber (d : Date) : Int :=
  daysBeforeYear d.year + daysBeforeMonth d.year d.month + d.day

instance : LE Date := ⟨fun a b => a.dayNumber ≤ b.dayNumber⟩

instance : LT Date := ⟨fun a b => a.dayNumber < b.dayNumber⟩

instance (a b : Date) : Decidable (a ≤ b) := inferInstanceAs (Decidable (a.dayNumber ≤ b.dayNumber))

instance (a b : Date) : Decidable (a < b) := inferInstanceAs (Decidable (a.dayNumber < b.dayNumber))

/-- The year in which the `n`-th day lies: an estimate, off by at most one, is put right. -/
def yearOfDay (n : Int) : Int :=
  let guess := (400 * (n - 1)).fdiv 146097 + 1
  if n ≤ daysBeforeYear guess then guess - 1
  else if daysBeforeYear (guess + 1) < n then guess + 1
  else guess

/-- The month and the day of the month of the `n`-th day of a year, looking from `month` on. -/
def monthOfDay (year : Int) (n : Nat) (month : Nat) : Nat → Nat × Nat
  | 0 => (month, n)
  | left + 1 =>
    if n ≤ daysInMonth year month then (month, n)
    else monthOfDay year (n - daysInMonth year month) (month + 1) left

/-- The `n`-th day of the calendar's count, unless it lies outside the calendar. -/
def ofDayNumber? (n : Int) : Option Date :=
  let year := yearOfDay n
  let (month, day) := monthOfDay year (n - daysBeforeYear year).toNat 1 11
  ofParts? year month day

/-- The day that many days later, or earlier for a negative number. -/
def shift (d : Date) (days : Int) : Option Date := ofDayNumber? (d.dayNumber + days)

/-- The earliest of some days. -/
def earliest : List Date → Option Date
  | [] => none
  | d :: rest => some (rest.foldl (fun a b => if b < a then b else a) d)

/-- The latest of some days. -/
def latest : List Date → Option Date
  | [] => none
  | d :: rest => some (rest.foldl (fun a b => if a < b then b else a) d)

/-- The first and the last day of a month. -/
def boundsOfMonth? (year : Int) (month : Nat) : Option (Date × Date) := do
  let first ← ofParts? year month 1
  let last ← ofParts? year month (daysInMonth year month)
  some (first, last)

/-- The first and the last day of a year. -/
def boundsOfYear? (year : Int) : Option (Date × Date) := do
  let first ← ofParts? year 1 1
  let last ← ofParts? year 12 31
  some (first, last)

end Date

end Archivist
