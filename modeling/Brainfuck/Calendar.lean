/-
Dates and times of day, as a configuration file can spell them.
-/

namespace Brainfuck

/-- a day of the Gregorian calendar -/
structure Date where
  year : Nat
  month : Nat
  day : Nat
deriving DecidableEq, Repr

/-- a moment: a day, a time of day, and the offset from universal time in minutes, if one is given -/
structure Moment where
  date : Date
  hour : Nat
  minute : Nat
  second : Nat
  microsecond : Nat
  offset : Option Int
deriving DecidableEq, Repr

namespace Date

def isLeap (year : Nat) : Bool := year % 4 = 0 && (year % 100 != 0 || year % 400 = 0)

def daysInMonth (year month : Nat) : Nat :=
  if month = 2 then if isLeap year then 29 else 28
  else if month = 4 || month = 6 || month = 9 || month = 11 then 30
  else 31

/-- a day that exists, or why it does not -/
def of (year month day : Nat) : Except String Date :=
  if year < 1 || 9999 < year then .error s!"year {year} is out of range"
  else if month < 1 || 12 < month then .error "month must be in 1..12"
  else if day < 1 || daysInMonth year month < day then .error "day is out of range for month"
  else .ok ⟨year, month, day⟩

/-- the days from the first day of the calendar on -/
def ordinal (d : Date) : Nat :=
  let years := d.year - 1
  let months := (List.range (d.month - 1)).map fun m => daysInMonth d.year (m + 1)
  365 * years + years / 4 - years / 100 + years / 400 + months.foldl (· + ·) 0 + d.day

def text (d : Date) : String := s!"datetime.date({d.year}, {d.month}, {d.day})"

end Date

namespace Moment

/-- a length of time in seconds: whole days, which may be negative, and the seconds of the last one -/
def duration (seconds : Int) : String :=
  let days := seconds.fdiv 86400
  let rest := seconds.fmod 86400
  let parts :=
    (if days = 0 then [] else [s!"days={days}"]) ++ (if rest = 0 then [] else [s!"seconds={rest}"])
  "datetime.timedelta(" ++ (if parts.isEmpty then "0" else ", ".intercalate parts) ++ ")"

/-- a moment that exists, or why it does not -/
def of (year month day hour minute second microsecond : Nat) (offset : Option Int) : Except String Moment := do
  if let some minutes := offset then
    if minutes ≤ -1440 || 1440 ≤ minutes then
      throw ("offset must be a timedelta strictly between -timedelta(hours=24) and timedelta(hours=24), not " ++
        duration (minutes * 60) ++ ".")
  let date ← Date.of year month day
  if 23 < hour then throw "hour must be in 0..23"
  if 59 < minute then throw "minute must be in 0..59"
  if 59 < second then throw "second must be in 0..59"
  return ⟨date, hour, minute, second, microsecond, offset⟩

/-- the microseconds from the first day of the calendar on, by the moment's own clock -/
def localTime (m : Moment) : Int :=
  (((m.date.ordinal * 24 + m.hour) * 60 + m.minute) * 60 + m.second) * 1000000 + m.microsecond

/-- the microseconds from the first day of the calendar on, in universal time if the offset is known -/
def instant (m : Moment) : Int := m.localTime - m.offset.getD 0 * 60000000

/-- two moments that are the same; one with an offset differs from one without -/
def same (m n : Moment) : Bool := m.offset.isSome == n.offset.isSome && m.instant == n.instant

/-- zero seconds and microseconds at the end are left out -/
def text (m : Moment) : String :=
  let fields := [m.date.year, m.date.month, m.date.day, m.hour, m.minute] ++
    (if m.microsecond != 0 then [m.second, m.microsecond] else if m.second != 0 then [m.second] else [])
  let zone := match m.offset with
    | none => []
    | some 0 => ["tzinfo=datetime.timezone.utc"]
    | some minutes => [s!"tzinfo=datetime.timezone({duration (minutes * 60)})"]
  "datetime.datetime(" ++ ", ".intercalate (fields.map toString ++ zone) ++ ")"

end Moment

end Brainfuck
