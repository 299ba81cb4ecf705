/-!
# The calendar

The days of the months in the calendar of today, which is also used for the years before it.
-/

namespace CodeSurvey

/-- The number of days of a month. -/
def daysOf (year month : Nat) : Nat :=
  if month = 2 then
    if year % 4 = 0 ∧ (year % 100 ≠ 0 ∨ year % 400 = 0) then 29 else 28
  else if month = 4 ∨ month = 6 ∨ month = 9 ∨ month = 11 then 30 else 31

/-- What keeps a time from being one of the calendar. -/
inductive TimeProblem where
  | year (n : Nat)
  | month
  | day
  | hour
  | minute
  | second
  /-- The offset from universal time, in seconds, is a day or more. -/
  | offset (seconds : Int)

/-- What is wrong with a date, the year first. The calendar starts with year 1. -/
def dateProblem? (year month day : Nat) : Option TimeProblem :=
  if year = 0 then some (.year year)
  else if month = 0 ∨ 12 < month then some .month
  else if day = 0 ∨ daysOf year month < day then some .day
  else none

/-- What is wrong with a time of day. -/
def clockProblem? (hour minute second : Nat) : Option TimeProblem :=
  if 23 < hour then some .hour
  else if 59 < minute then some .minute
  else if 59 < second then some .second
  else none

/-- A duration in days and seconds of a day. -/
def durationText (seconds : Int) : String :=
  let days := seconds.fdiv 86400
  let rest := seconds.fmod 86400
  let parts := (if days = 0 then [] else ["days=" ++ toString days]) ++
    (if rest = 0 then [] else ["seconds=" ++ toString rest])
  "datetime.timedelta(" ++ String.intercalate ", " parts ++ ")"

def TimeProblem.message : TimeProblem → String
  | year n => "year " ++ toString n ++ " is out of range"
  | month => "month must be in 1..12"
  | day => "day is out of range for month"
  | hour => "hour must be in 0..23"
  | minute => "minute must be in 0..59"
  | second => "second must be in 0..59"
  | offset seconds =>
    "offset must be a timedelta strictly between -timedelta(hours=24) and timedelta(hours=24), " ++
      "not " ++ durationText seconds ++ "."

end CodeSurvey
