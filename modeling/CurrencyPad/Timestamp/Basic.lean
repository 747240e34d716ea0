/-
CurrencyPad.Timestamp.Basic — points in time, in UTC.

A timestamp is a date of the Gregorian calendar and a time of day down to
the nanosecond. A second of 60 is a leap second.
-/

namespace CurrencyPad

/-- A date and a time of day, in UTC. -/
structure Timestamp where
  year : Int
  month : Nat
  day : Nat
  hour : Nat
  minute : Nat
  second : Nat
  nanosecond : Nat
deriving DecidableEq, Inhabited

namespace Timestamp

/-! ## 1. The calendar -/

def isLeapYear (year : Int) : Bool :=
  year % 4 == 0 && (year % 100 != 0 || year % 400 == 0)

def daysInMonth (year : Int) : Nat → Nat
  | 2 => if isLeapYear year then 29 else 28
  | 4 | 6 | 9 | 11 => 30
  | _ => 31

/-- The years that a timestamp may have. -/
def isYear (year : Int) : Bool := decide (-262143 ≤ year ∧ year ≤ 262142)

/-- Every part is within its range. -/
def isValid (t : Timestamp) : Bool :=
  isYear t.year && decide (1 ≤ t.month ∧ t.month ≤ 12) &&
  decide (1 ≤ t.day ∧ t.day ≤ daysInMonth t.year t.month) &&
  decide (t.hour ≤ 23 ∧ t.minute ≤ 59 ∧ t.second ≤ 60 ∧ t.nanosecond ≤ 999999999)

/-! ## 2. Moving by less than a day -/

/-- The same time on the next day. -/
def nextDay (t : Timestamp) : Timestamp :=
  if t.day < daysInMonth t.year t.month then { t with day := t.day + 1 }
  else if t.month < 12 then { t with month := t.month + 1, day := 1 }
  else { t with year := t.year + 1, month := 1, day := 1 }

/-- The same time on the day before. -/
def previousDay (t : Timestamp) : Timestamp :=
  if 1 < t.day then { t with day := t.day - 1 }
  else if 1 < t.month then
    { t with month := t.month - 1, day := daysInMonth t.year (t.month - 1) }
  else { t with year := t.year - 1, month := 12, day := 31 }

/-- The time some minutes earlier or later, by less than a day. -/
def addMinutes (t : Timestamp) (minutes : Int) : Timestamp :=
  let total : Int := t.hour * 60 + t.minute + minutes
  let ofDay := (total % 1440).toNat
  let moved := { t with hour := ofDay / 60, minute := ofDay % 60 }
  if total < 0 then moved.previousDay
  else if 1440 ≤ total then moved.nextDay
  else moved

end Timestamp
end CurrencyPad
