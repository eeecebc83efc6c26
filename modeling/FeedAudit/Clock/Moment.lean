/-!
# Moments and calendar dates

A moment is counted in seconds and nanoseconds from the start of the year 1970 in universal time,
and shown in the local time of the clock that told it, by the Gregorian calendar, which is extended
to all years. The calendar repeats after 400 years, and a year is counted from March so that the
leap day comes last.
-/

namespace FeedAudit

/-- A point in time, as a clock tells it. -/
structure Moment where
  seconds : Int
  nanos : Nat
  /-- The seconds by which the local time of the clock is ahead of universal time. -/
  offset : Int
  deriving DecidableEq, Repr, Inhabited

/-- A calendar date. -/
structure Date where
  year : Int
  month : Nat
  day : Nat
  deriving DecidableEq, Repr, Inhabited

/-- The date that is `days` after the first of January 1970. -/
def Date.ofDays (days : Int) : Date :=
  let shifted := days + 719468
  let cycle := shifted / 146097
  let dayOfCycle := (shifted % 146097).toNat
  let yearOfCycle :=
    (dayOfCycle - dayOfCycle / 1460 + dayOfCycle / 36524 - dayOfCycle / 146096) / 365
  let dayOfYear := dayOfCycle - (365 * yearOfCycle + yearOfCycle / 4 - yearOfCycle / 100)
  let monthFromMarch := (5 * dayOfYear + 2) / 153
  let day := dayOfYear - (153 * monthFromMarch + 2) / 5 + 1
  let month := if monthFromMarch < 10 then monthFromMarch + 3 else monthFromMarch - 9
  ⟨yearOfCycle + cycle * 400 + (if month ≤ 2 then 1 else 0), month, day⟩

/-! ## Text -/

/-- A number with zeros in front up to a width. -/
def padded (width n : Nat) : String :=
  let digits := toString n
  String.ofList (List.replicate (width - digits.length) '0') ++ digits

/-- A year has four digits; one that needs more, or lies before the year zero, has a sign. -/
def yearText (year : Int) : String :=
  if 0 ≤ year ∧ year ≤ 9999 then padded 4 year.toNat
  else (if year < 0 then "-" else "+") ++ padded 4 year.natAbs

namespace Moment

/-- The seconds since the start of the year 1970 in local time. -/
def localSeconds (m : Moment) : Int := m.seconds + m.offset

/-- The date in local time. -/
def date (m : Moment) : Date := Date.ofDays (m.localSeconds / 86400)

/-- The seconds since midnight in local time. -/
def secondOfDay (m : Moment) : Nat := (m.localSeconds % 86400).toNat

def hour (m : Moment) : Nat := m.secondOfDay / 3600

def minute (m : Moment) : Nat := m.secondOfDay / 60 % 60

def second (m : Moment) : Nat := m.secondOfDay % 60

/-- Date and time with the given separators within the date, between date and time, and within the
time, to the minute. -/
def toMinute (m : Moment) (inDate between inTime : String) : String :=
  let d := m.date
  yearText d.year ++ inDate ++ padded 2 d.month ++ inDate ++ padded 2 d.day ++ between ++
    padded 2 m.hour ++ inTime ++ padded 2 m.minute

/-- Date and time as logs and reports show them. -/
def text (m : Moment) : String := m.toMinute "-" " " ":" ++ ":" ++ padded 2 m.second

/-- The minute as file names show it. -/
def stamp (m : Moment) : String := m.toMinute "_" "_" "_"

/-- The nanoseconds from one moment to another, none when that is earlier; where their clocks stand
does not matter. -/
def nanosUntil (start finish : Moment) : Nat :=
  ((finish.seconds - start.seconds) * 1000000000 + (finish.nanos - start.nanos : Int)).toNat

end Moment

end FeedAudit
