/-! # The calendar

Days, and moments on them.  A moment is told by a local clock; how far that clock is ahead of
universal time may be known or not.  Moments of which one has a known lead and the other has none
are never the same, and neither comes before the other.
-/

namespace VirtualLooper

/-- A number with zeros in front, if it has fewer than so many digits. -/
def padded (width n : Nat) : String :=
  let digits := Nat.toDigits 10 n
  String.ofList (List.replicate (width - digits.length) '0' ++ digits)

inductive TimePart
  /-- A lead over universal time, in minutes. -/
  | lead (minutes : Int)
  | year (n : Nat)
  | month
  | day
  | hour
  | minute
  | second
  deriving DecidableEq, Repr

structure Date where
  year : Nat
  month : Nat
  day : Nat
  deriving DecidableEq, Repr

namespace Date

def isLeap (year : Nat) : Bool := year % 4 = 0 && (year % 100 ≠ 0 || year % 400 = 0)

/-- The number of days of each month in a year without a leap day; months count from one. -/
def monthLengths : List Nat := [0, 31, 28, 31, 30, 31, 30, 31, 31, 30, 31, 30, 31]

def daysIn (year month : Nat) : Nat :=
  if month = 2 && isLeap year then 29 else monthLengths[month]?.getD 0

def fault? (d : Date) : Option TimePart :=
  if d.year = 0 then some (.year d.year)
  else if d.month = 0 || 12 < d.month then some .month
  else if d.day = 0 || daysIn d.year d.month < d.day then some .day
  else none

def leapDays (year : Nat) : Nat := year / 4 - year / 100 + year / 400

/-- The number of days from the beginning of the calendar. -/
def number (d : Date) : Nat :=
  365 * (d.year - 1) + leapDays (d.year - 1) +
    (List.range d.month).foldl (fun n month => n + daysIn d.year month) 0 + d.day

def text (d : Date) : String := padded 4 d.year ++ "-" ++ padded 2 d.month ++ "-" ++ padded 2 d.day

def parts (d : Date) : List Nat := [d.year, d.month, d.day]

def written (d : Date) : String :=
  "datetime.date(" ++ ", ".intercalate (d.parts.map toString) ++ ")"

end Date

structure Moment where
  date : Date
  hour : Nat
  minute : Nat
  second : Nat
  microsecond : Nat
  /-- By how many minutes the clock is ahead of universal time, where that is known. -/
  lead : Option Int
  deriving DecidableEq, Repr

namespace Moment

def minutesPerDay : Nat := 24 * 60

def perMinute : Nat := 60 * 1000000

/-- What is out of range in a moment.  The lead over universal time is less than a day. -/
def fault? (m : Moment) : Option TimePart :=
  match m.lead.filter fun minutes => minutesPerDay ≤ minutes.natAbs with
  | some minutes => some (.lead minutes)
  | none =>
    m.date.fault?.or <|
      if 24 ≤ m.hour then some .hour
      else if 60 ≤ m.minute then some .minute
      else if 60 ≤ m.second then some .second
      else none

def reading (m : Moment) : Nat :=
  (m.date.number * minutesPerDay + m.hour * 60 + m.minute) * perMinute + m.second * 1000000 +
    m.microsecond

/-- The microseconds that a clock of universal time has counted, as far as the lead is known. -/
def universal (m : Moment) : Int := m.reading - m.lead.getD 0 * perMinute

/-- Is the lead known of both moments, or of neither? -/
def comparable (m n : Moment) : Bool := m.lead.isSome = n.lead.isSome

def same (m n : Moment) : Bool := comparable m n && m.universal = n.universal

/-- Does a moment come before another one with which it can be compared? -/
def before (m n : Moment) : Bool := m.universal < n.universal

def spanWritten (minutes : Int) : String :=
  let days := minutes / minutesPerDay
  let seconds := minutes % minutesPerDay * 60
  let parts :=
    (if days = 0 then [] else ["days=" ++ toString days]) ++
      if seconds = 0 then [] else ["seconds=" ++ toString seconds]
  "datetime.timedelta(" ++ (if parts.isEmpty then "0" else ", ".intercalate parts) ++ ")"

def leadText (minutes : Int) : String :=
  (if minutes < 0 then "-" else "+") ++ padded 2 (minutes.natAbs / 60) ++ ":" ++
    padded 2 (minutes.natAbs % 60)

def text (m : Moment) : String :=
  m.date.text ++ " " ++ padded 2 m.hour ++ ":" ++ padded 2 m.minute ++ ":" ++ padded 2 m.second ++
    (if m.microsecond = 0 then "" else "." ++ padded 6 m.microsecond) ++
    m.lead.elim "" leadText

def leadWritten (minutes : Int) : String :=
  if minutes = 0 then "datetime.timezone.utc"
  else "datetime.timezone(" ++ spanWritten minutes ++ ")"

/-- The parts of a moment, as numbers.  Seconds and their fractions are left out at the end where
they are zero. -/
def parts (m : Moment) : List Nat :=
  m.date.parts ++ [m.hour, m.minute] ++
    if m.microsecond ≠ 0 then [m.second, m.microsecond]
    else if m.second ≠ 0 then [m.second] else []

def written (m : Moment) : String :=
  "datetime.datetime(" ++ ", ".intercalate (m.parts.map toString) ++
    (m.lead.elim "" fun minutes => ", tzinfo=" ++ leadWritten minutes) ++ ")"

end Moment

end VirtualLooper
