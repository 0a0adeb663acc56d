/-!
# Dates and times of day

Clock readings are whole seconds since the first second of 1970, and people read them as a date and
a time of day in universal time.  The calendar is the Gregorian one, carried back as if it had
always been in use.

## Why the year begins in March

A leap day is the awkward part of a calendar, and it becomes harmless as the *last* day of a year.
So days are counted from the first of March of year zero, and the count comes apart into 400-year
cycles, centuries, four-year cycles, years and days by division alone, except that the last century
of a cycle and the last year of a four-year cycle may be one day longer.  In a year that begins in
March, the month of a day is one division as well: any five months in a row, from March on and again
from August on, have 153 days.

The calendar ends with the year 9999, which is the last one of four digits, and a count of seconds
is a signed number of 64 bits.  A reading that is beyond either is shown as the number it is.
-/

namespace TagRental
namespace Calendar

/-- A day of the calendar. -/
structure Date where
  year : Nat
  month : Nat
  day : Nat
  deriving Repr, DecidableEq

/-- A second of the calendar. -/
structure Moment where
  date : Date
  hour : Nat
  minute : Nat
  second : Nat
  deriving Repr, DecidableEq

/-- Has the year a leap day? -/
def isLeapYear (year : Nat) : Bool := year % 4 == 0 && (year % 100 != 0 || year % 400 == 0)

/-- The number of days of a month. -/
def monthLength (year month : Nat) : Nat :=
  if month = 2 then if isLeapYear year then 29 else 28
  else if month = 4 ∨ month = 6 ∨ month = 9 ∨ month = 11 then 30
  else 31

/-- The days from the first of March of year zero to the first of January of 1970. -/
def epochDay : Nat := 719468

/-- The seconds of a day. -/
def secondsPerDay : Nat := 86400

/-- A year that begins in March, and a day of it counted from zero. -/
structure MarchDay where
  year : Nat
  day : Nat
  deriving Repr, DecidableEq

/-- The year of a day counted from the first of March of year zero. -/
def MarchDay.ofDay (n : Nat) : MarchDay :=
  let cycle := n / 146097
  let inCycle := n % 146097
  let century := min (inCycle / 36524) 3
  let inCentury := inCycle - century * 36524
  let quad := inCentury / 1461
  let inQuad := inCentury % 1461
  let year := min (inQuad / 365) 3
  ⟨cycle * 400 + century * 100 + quad * 4 + year, inQuad - year * 365⟩

/-- The date of a day of a year that begins in March.  January and February belong to the year after
it. -/
def MarchDay.date (d : MarchDay) : Date :=
  let month := (5 * d.day + 2) / 153
  let day := d.day - (153 * month + 2) / 5 + 1
  if month < 10 then ⟨d.year, month + 3, day⟩ else ⟨d.year + 1, month - 9, day⟩

/-- The date of a day counted from the first of January of 1970. -/
def Date.ofDay (n : Nat) : Date := (MarchDay.ofDay (n + epochDay)).date

/-- The moment so many seconds after the first second of 1970. -/
def Moment.ofSeconds (n : Nat) : Moment :=
  let s := n % secondsPerDay
  ⟨.ofDay (n / secondsPerDay), s / 3600, s / 60 % 60, s % 60⟩

/-- The digits of a number, with zeros in front up to a width. -/
def paddedChars (width n : Nat) : List Char :=
  let ds := Nat.toDigits 10 n
  List.replicate (width - ds.length) '0' ++ ds

/-- The characters of a date. -/
def Date.chars (d : Date) : List Char :=
  paddedChars 4 d.year ++ '-' :: paddedChars 2 d.month ++ '-' :: paddedChars 2 d.day

/-- The characters of a moment: date, time of day, and the mark of universal time. -/
def Moment.chars (m : Moment) : List Char :=
  m.date.chars ++ 'T' :: paddedChars 2 m.hour ++ ':' :: paddedChars 2 m.minute ++
    ':' :: paddedChars 2 m.second ++ ['Z']

/-- The largest signed number of 64 bits. -/
def lastSigned : Nat := 9223372036854775807

/-- The last second of the year 9999. -/
def lastSecond : Nat := 253402300799

/-- A clock reading as a signed number of 64 bits, if it is one. -/
def signed? (seconds : UInt64) : Option Nat :=
  if seconds.toNat ≤ lastSigned then some seconds.toNat else none

/-- The moment so many seconds after the first second of 1970, if the calendar goes that far. -/
def Moment.ofSeconds? (n : Nat) : Option Moment :=
  if n ≤ lastSecond then some (.ofSeconds n) else none

/-- A moment in writing.  A year of more than four digits cannot be written. -/
def Moment.text? (m : Moment) : Option String :=
  if m.date.year ≤ 9999 then some (String.ofList m.chars) else none

/-- A clock reading as people read it: a date and a time of day, or the number itself where there is
none. -/
def timestamp (seconds : UInt64) : String :=
  (((signed? seconds).bind Moment.ofSeconds?).bind Moment.text?).getD (toString seconds)

example : Date.ofDay 0 = ⟨1970, 1, 1⟩ ∧ Date.ofDay 11016 = ⟨2000, 2, 29⟩ := by decide

end Calendar
end TagRental
