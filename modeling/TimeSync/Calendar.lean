/-!
# Calendar dates

A count of days is turned into a date of the Gregorian calendar, which repeats
every 400 years.  Times are written as dates with microseconds.
-/

namespace TimeSync.Calendar

structure Date where
  year : Int
  month : Nat
  day : Nat
deriving DecidableEq

def daysPerCycle : Nat := 146097

/-- The date `days` days after the first of January 1970.  Years are counted from
March on, so that the leap day is the last of its year. -/
def ofDays (days : Int) : Date :=
  let shifted := days + 719468
  let cycle := shifted / daysPerCycle
  let day := (shifted % daysPerCycle).toNat
  let year := (day - day / 1460 + day / 36524 - day / 146096) / 365
  let dayOfYear := day - (365 * year + year / 4 - year / 100)
  let month := (5 * dayOfYear + 2) / 153
  let january : Nat := if month < 10 then 0 else 1
  { year := cycle * 400 + year + january
    month := if month < 10 then month + 3 else month - 9
    day := dayOfYear - (153 * month + 2) / 5 + 1 }

def firstYear : Int := -262143

def lastYear : Int := 262142

/-- Digits of a number, at least `width` of them. -/
def padded (width number : Nat) : String :=
  let digits := Nat.toDigits 10 number
  String.ofList (List.replicate (width - digits.length) '0' ++ digits)

/-- A year of four digits, with a sign where there are more or it is before the
year zero. -/
def yearText (year : Int) : String :=
  if year < 0 then
    "-" ++ padded 4 year.natAbs
  else if 9999 < year then
    "+" ++ padded 4 year.natAbs
  else
    padded 4 year.natAbs

/-- A time in microseconds since 1970; beyond the years that are written, the count
itself. -/
def text (micros : Int) : String :=
  let seconds := micros / 1000000
  let date := ofDays (seconds / 86400)
  if firstYear ≤ date.year ∧ date.year ≤ lastYear then
    let second := (seconds % 86400).toNat
    yearText date.year ++ "-" ++ padded 2 date.month ++ "-" ++ padded 2 date.day ++ " "
      ++ padded 2 (second / 3600) ++ ":" ++ padded 2 (second / 60 % 60) ++ ":"
      ++ padded 2 (second % 60) ++ "." ++ padded 6 (micros % 1000000).toNat ++ " UTC"
  else
    s!"{micros}us"

end TimeSync.Calendar
