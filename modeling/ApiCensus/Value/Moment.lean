import ApiCensus.Number.Rounding

/-!
# Dates and times

Calendar values of a configuration file.  A time may carry its distance from
universal time, counted in minutes to the east.
-/

namespace ApiCensus

/-- A calendar date, or a time of a calendar day. -/
inductive Moment
  | date (year month day : Nat)
  | time (year month day hour minute second micro : Nat) (offset : Option Int)
deriving DecidableEq, Repr

namespace Moment

/-- The number with at least `width` digits. -/
def padded (width value : Nat) : String :=
  let digits := Number.digits value
  String.ofList (List.replicate (width - digits.length) '0' ++ digits)

/-- The text of a date. -/
def dateText (year month day : Nat) : String :=
  padded 4 year ++ "-" ++ padded 2 month ++ "-" ++ padded 2 day

/-- The text of an offset from universal time. -/
def offsetText (offset : Int) : String :=
  let minutes := offset.natAbs
  (if offset < 0 then "-" else "+") ++ padded 2 (minutes / 60) ++ ":" ++ padded 2 (minutes % 60)

/-- The text of a date or time. -/
def text : Moment → String
  | .date year month day => dateText year month day
  | .time year month day hour minute second micro offset =>
      dateText year month day ++ " " ++ padded 2 hour ++ ":" ++ padded 2 minute ++ ":" ++
        padded 2 second ++ (if micro = 0 then "" else "." ++ padded 6 micro) ++
        (offset.map offsetText).getD ""

/-- Whether a year has a leap day. -/
def isLeap (year : Nat) : Bool :=
  year % 4 = 0 && (year % 100 != 0 || year % 400 = 0)

/-- The number of days of a month. -/
def daysInMonth (year month : Nat) : Nat :=
  if month = 2 then (if isLeap year then 29 else 28)
  else if month = 4 || month = 6 || month = 9 || month = 11 then 30 else 31

/-- The number of days before the first day of a year, from year 1 on. -/
def daysBeforeYear (year : Nat) : Nat :=
  let past := year - 1
  past * 365 + past / 4 - past / 100 + past / 400

/-- The number of a day, from the first day of year 1 on. -/
def dayNumber (year month day : Nat) : Nat :=
  let months := (List.range (month - 1)).map fun earlier => daysInMonth year (earlier + 1)
  daysBeforeYear year + months.foldl (· + ·) 0 + day

/-- Microseconds from the start of year 1 on, in universal time where the offset
is known. -/
def position : Moment → Int
  | .date year month day => dayNumber year month day
  | .time year month day hour minute second micro offset =>
      let seconds := dayNumber year month day * 86400 + hour * 3600 + minute * 60 + second
      (seconds * 1000000 + micro : Nat) - offset.getD 0 * 60000000

/-- Dates, times without an offset and times with one are three kinds; moments of
different kinds have no order. -/
def kind : Moment → Nat
  | .date .. => 0
  | .time _ _ _ _ _ _ _ none => 1
  | .time _ _ _ _ _ _ _ (some _) => 2

/-- Why numbers are no date or time. -/
inductive RangeError
  | year (number : Nat)
  | month
  | day
  | hour
  | minute
  | second
  | offset (span : Int)
deriving DecidableEq, Repr

/-- A span of minutes, written in days and seconds of which only the days can be
negative. -/
def spanText (minutes : Int) : String :=
  let seconds := minutes % 1440 * 60
  let days := toString (minutes / 1440)
  "datetime.timedelta(days=" ++ days ++
    (if seconds = 0 then "" else ", seconds=" ++ toString seconds) ++ ")"

/-- The wording of a range error. -/
def RangeError.message : RangeError → String
  | .year number => s!"year {number} is out of range"
  | .month => "month must be in 1..12"
  | .day => "day is out of range for month"
  | .hour => "hour must be in 0..23"
  | .minute => "minute must be in 0..59"
  | .second => "second must be in 0..59"
  | .offset span =>
      "offset must be a timedelta strictly between -timedelta(hours=24) and " ++
        s!"timedelta(hours=24), not {spanText span}."

/-- The date of a year, month and day, if there is one. -/
def ofDate (year month day : Nat) : Except RangeError Moment := do
  if year = 0 then throw (.year year)
  if month = 0 || month > 12 then throw .month
  if day = 0 || day > daysInMonth year month then throw .day
  return .date year month day

/-- The time of a day, if there is one. The offset is looked at first. -/
def ofTime (year month day hour minute second micro : Nat) (offset : Option Int) :
    Except RangeError Moment := do
  if let some minutes := offset then
    if minutes.natAbs ≥ 1440 then throw (.offset minutes)
  let _ ← ofDate year month day
  if hour > 23 then throw .hour
  if minute > 59 then throw .minute
  if second > 59 then throw .second
  return .time year month day hour minute second micro offset

end Moment

end ApiCensus
