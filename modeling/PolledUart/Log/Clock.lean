/-!
# Times

A number that counts a unit of time is shown as seconds with a fraction, as a time of day
behind the days that have passed, or as a date.
-/

namespace PolledUart.Log

/-- A unit of time. -/
inductive TimeUnit where
  | second
  | millisecond
  | microsecond
deriving Repr, DecidableEq

/-- How many of the unit make a second. -/
def TimeUnit.perSecond : TimeUnit → Nat
  | .second => 1
  | .millisecond => 1000
  | .microsecond => 1000000

/-- A number in decimal, filled up with zeros to a width. -/
def filled (width n : Nat) : String :=
  let digits := Nat.toDigits 10 n
  String.ofList (List.replicate (width - digits.length) '0' ++ digits)

/-- What a count has beyond whole seconds, behind a point. -/
def TimeUnit.showFraction (unit : TimeUnit) (n : Nat) : String :=
  match unit with
  | .second => ""
  | .millisecond => "." ++ filled 3 (n % unit.perSecond)
  | .microsecond => "." ++ filled 6 (n % unit.perSecond)

/-- A count in seconds. -/
def TimeUnit.showSeconds (unit : TimeUnit) (n : Nat) : String :=
  toString (n / unit.perSecond) ++ unit.showFraction n

/-- The time of day after so many seconds. -/
def showTimeOfDay (seconds : Nat) : String :=
  filled 2 (seconds / 3600 % 24) ++ ":" ++ filled 2 (seconds / 60 % 60) ++ ":"
    ++ filled 2 (seconds % 60)

/-- The number of seconds in a day. -/
def secondsPerDay : Nat := 86400

/-- A count as a time of day, behind the number of days if there are any. -/
def TimeUnit.showClock (unit : TimeUnit) (n : Nat) : String :=
  let seconds := n / unit.perSecond
  let days := seconds / secondsPerDay
  (if days = 0 then "" else toString days ++ ":") ++ showTimeOfDay seconds ++ unit.showFraction n

/-- A day of the calendar. -/
structure Date where
  year : Nat
  month : Nat
  day : Nat
deriving Repr, DecidableEq

/-- The date so many days after the first of January 1970. Years are counted from the first of
March, so that the day that not every year has is the last one; the calendar repeats every
146097 days, and in it every five months from March on have 153 days. -/
def Date.ofDays (days : Nat) : Date :=
  let day := (days + 719468) % 146097
  let year := (day - day / 1460 + day / 36524 - day / 146096) / 365
  let dayOfYear := day - (365 * year + year / 4 - year / 100)
  let month := (5 * dayOfYear + 2) / 153
  { year := year + 400 * ((days + 719468) / 146097) + (if month < 10 then 0 else 1)
    month := if month < 10 then month + 3 else month - 9
    day := dayOfYear - (153 * month + 2) / 5 + 1 }

/-- The last year of the calendar. -/
def Date.lastYear : Nat := 999999

/-- A year: in four digits, or in as many as it takes behind a sign. -/
def showYear (year : Nat) : String :=
  if year < 10000 then filled 4 year else "+" ++ toString year

/-- A count since the first of January 1970 as a date and time, if the calendar goes so far. -/
def TimeUnit.showDate? (unit : TimeUnit) (n : Nat) : Option String :=
  let seconds := n / unit.perSecond
  let date := Date.ofDays (seconds / secondsPerDay)
  if date.year ≤ Date.lastYear then
    some (showYear date.year ++ "-" ++ filled 2 date.month ++ "-" ++ filled 2 date.day ++ "T"
      ++ showTimeOfDay seconds ++ unit.showFraction n ++ "Z")
  else none

end PolledUart.Log
