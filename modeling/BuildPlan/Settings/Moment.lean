/-
  BuildPlan.Settings.Moment
  ─────────────────────────
  **DATES AND TIMES OF DAY.**

  Dates of the Gregorian calendar from year 1 to 9999, times of day to the
  microsecond, and the two together with or without an offset from universal
  time.  What is no date of the calendar cannot be made.

  On its own a moment is written as clocks and calendars write it.  In the listing
  of an array or a table it is written by its numbers:

      date          2024-01-02                   Date(2024, 1, 2)
      time          07:32:00                     Time(7, 32)
      both          2024-01-02 07:32:00          DateTime(2024, 1, 2, 7, 32)
      with offset   2024-01-02 07:32:00+00:00    DateTime(2024, 1, 2, 7, 32, tzinfo=...)
-/
import BuildPlan.Text.Blank
import BuildPlan.Text.Quoted

namespace BuildPlan.Settings

/-! ## §1. The calendar. -/

/-- Whether a year has a 29th of February. -/
def isLeap (year : Nat) : Bool := year % 4 = 0 ∧ (year % 100 ≠ 0 ∨ year % 400 = 0)

/-- The number of days of a month; no month beyond the twelfth has any. -/
def daysIn (year month : Nat) : Nat :=
  if month = 2 then (if isLeap year then 29 else 28)
  else if month ∈ [4, 6, 9, 11] then 30
  else if 1 ≤ month ∧ month ≤ 12 then 31
  else 0

/-- A day of the calendar. -/
structure Date where
  year : Nat
  /-- The month, from one. -/
  month : Nat
  /-- The day of the month, from one. -/
  day : Nat
  /-- The year has four digits and is not zero. -/
  year_range : 1 ≤ year ∧ year ≤ 9999
  day_range : 1 ≤ day ∧ day ≤ daysIn year month
deriving DecidableEq, Repr

/-- The date with the given numbers, if there is one. -/
def Date.of? (year month day : Nat) : Option Date :=
  if h : (1 ≤ year ∧ year ≤ 9999) ∧ 1 ≤ day ∧ day ≤ daysIn year month then
    some ⟨year, month, day, h.1, h.2⟩
  else none

/-- A time of day. -/
structure Time where
  hour : Nat
  minute : Nat
  second : Nat
  micro : Nat
  /-- No number runs over. -/
  range : hour < 24 ∧ minute < 60 ∧ second < 60 ∧ micro < 1000000
deriving DecidableEq, Repr

/-- The time with the given numbers, if there is one. -/
def Time.of? (hour minute second micro : Nat) : Option Time :=
  if h : hour < 24 ∧ minute < 60 ∧ second < 60 ∧ micro < 1000000 then
    some ⟨hour, minute, second, micro, h⟩
  else none

/-- How far local time is from universal time, and in which of the three ways that is said. -/
inductive Offset where
  /-- Not at all, said by a letter. -/
  | universal
  /-- So many minutes ahead, said by a plus sign. -/
  | ahead (minutes : Nat)
  /-- So many minutes behind, said by a minus sign. -/
  | behind (minutes : Nat)
deriving DecidableEq, Repr

/-- The minutes that local time is ahead of universal time. -/
def Offset.minutes : Offset → Int
  | universal => 0
  | ahead minutes => minutes
  | behind minutes => -minutes

/-- A date, a time of day, or both. -/
inductive Moment where
  | date (d : Date)
  | time (t : Time)
  /-- Both, with the offset of the time, if known. -/
  | dateTime (d : Date) (t : Time) (offset : Option Offset)
deriving DecidableEq, Repr

/-! ## §2. The text of a moment. -/

/-- The number in at least so many digits. -/
def padded (width n : Nat) : String :=
  let ds := Nat.toDigits 10 n
  String.ofList (List.replicate (width - ds.length) '0' ++ ds)

/-- Year, month and day, joined by hyphens. -/
def Date.text (d : Date) : String :=
  padded 4 d.year ++ "-" ++ padded 2 d.month ++ "-" ++ padded 2 d.day

/-- Hour, minute and second, joined by colons; six more digits unless they are all zero. -/
def Time.text (t : Time) : String :=
  padded 2 t.hour ++ ":" ++ padded 2 t.minute ++ ":" ++ padded 2 t.second
    ++ (if t.micro = 0 then "" else "." ++ padded 6 t.micro)

/-- Hours and minutes, joined by a colon. -/
def hoursText (minutes : Nat) : String := padded 2 (minutes / 60) ++ ":" ++ padded 2 (minutes % 60)

/-- Sign, hours and minutes of an offset; no distance at all counts as ahead. -/
def Offset.text (o : Offset) : String :=
  (if o.minutes < 0 then "-" else "+") ++ hoursText o.minutes.natAbs

/-- The moment as text, a blank between date and time. -/
def Moment.text : Moment → String
  | date d => d.text
  | time t => t.text
  | dateTime d t offset => d.text ++ " " ++ t.text ++ (offset.map Offset.text).getD ""

/-- Every moment is written as something. -/
theorem Moment.text_ne_empty (m : Moment) : m.text ≠ "" := by
  cases m with
  | date d => simp [Moment.text, Date.text]
  | time t => simp [Moment.text, Time.text]
  | dateTime d t offset => simp [Moment.text]

/-! ## §3. A moment in a listing. -/

/-- A name and what it is applied to, in brackets. -/
def applied (name : String) (arguments : List String) : String :=
  name ++ "(" ++ Text.joined ", " arguments ++ ")"

/-- Year, month and day. -/
def Date.numbers (d : Date) : List Nat := [d.year, d.month, d.day]

/-- Hour and minute, and then what is left up to the last number that is not zero. -/
def Time.numbers (t : Time) : List Nat :=
  if t.micro ≠ 0 then [t.hour, t.minute, t.second, t.micro]
  else if t.second ≠ 0 then [t.hour, t.minute, t.second]
  else [t.hour, t.minute]

/-- The offset as it was said. -/
def Offset.name : Offset → String
  | universal => "UTC"
  | ahead minutes => "+" ++ hoursText minutes
  | behind minutes => "-" ++ hoursText minutes

/-- Minutes as a length of time: seconds that are not negative, counted back from a day if the
minutes are negative. -/
def durationListed (minutes : Int) : String :=
  applied "datetime.timedelta" <|
    if minutes < 0 then ["days=-1", "seconds=" ++ toString (86400 + 60 * minutes)]
    else if minutes = 0 then ["0"]
    else ["seconds=" ++ toString (60 * minutes)]

/-- The offset in a listing: the length of time and how it was said. -/
def Offset.listed (o : Offset) : String :=
  applied "datetime.timezone" [durationListed o.minutes, Text.quoted o.name]

/-- The moment in a listing. -/
def Moment.listed : Moment → String
  | date d => applied "Date" (d.numbers.map toString)
  | time t => applied "Time" (t.numbers.map toString)
  | dateTime d t offset =>
    applied "DateTime" <|
      (d.numbers ++ t.numbers).map toString
        ++ (offset.map fun o => "tzinfo=" ++ o.listed).toList

end BuildPlan.Settings
