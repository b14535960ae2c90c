/-!
# CrudScaffold.Calendar.Moment — moments of the calendar, to the second

A moment is a day of the Gregorian calendar and a second of that day.  `next` is the following second; the calendar
ends with the last second of the year 9999.  `stamp` is the text under which migrations are filed: from the year 1000
on, later moments have greater stamps.
-/

namespace CrudScaffold.Calendar

/-- A moment: the second is counted from midnight. -/
structure Moment where
  year : Nat
  month : Nat
  day : Nat
  second : Nat
  deriving DecidableEq, Repr

/-- A year with a 29th of February. -/
def isLeap (year : Nat) : Bool := year % 4 = 0 && (year % 100 ≠ 0 || year % 400 = 0)

/-- The number of days of a month. -/
def daysIn (year month : Nat) : Nat :=
  if month = 2 then (if isLeap year then 29 else 28)
  else if month = 4 ∨ month = 6 ∨ month = 9 ∨ month = 11 then 30
  else 31

/-- The number of seconds of a day. -/
def daySeconds : Nat := 86400

/-- The last year of the calendar. -/
def lastYear : Nat := 9999

namespace Moment

/-- The moment is one of the calendar. -/
def isValid (m : Moment) : Bool :=
  1 ≤ m.year && m.year ≤ lastYear && 1 ≤ m.month && m.month ≤ 12 && 1 ≤ m.day && m.day ≤ daysIn m.year m.month &&
    m.second < daySeconds

/-- The moment one second later, if the calendar has one. -/
def next (m : Moment) : Option Moment :=
  if m.second + 1 < daySeconds then some { m with second := m.second + 1 }
  else if m.day < daysIn m.year m.month then some ⟨m.year, m.month, m.day + 1, 0⟩
  else if m.month < 12 then some ⟨m.year, m.month + 1, 1, 0⟩
  else if m.year < lastYear then some ⟨m.year + 1, 1, 1, 0⟩
  else none

/-- `a` is earlier than `b`. -/
def earlier (a b : Moment) : Bool :=
  a.year < b.year || (a.year = b.year && (a.month < b.month || (a.month = b.month &&
    (a.day < b.day || (a.day = b.day && a.second < b.second)))))

/-- A number with at least two digits. -/
def two (n : Nat) : String := if n < 10 then "0" ++ toString n else toString n

/-- A number with at least four digits. -/
def four (n : Nat) : String :=
  let digits := toString n
  String.ofList (List.replicate (4 - digits.length) '0') ++ digits

/-- The time of day, with `mark` between its parts. -/
def clockText (m : Moment) (mark : String) : String :=
  two (m.second / 3600) ++ mark ++ two (m.second / 60 % 60) ++ mark ++ two (m.second % 60)

/-- The text under which a migration of this moment is filed. -/
def stamp (m : Moment) : String :=
  toString m.year ++ "_" ++ two m.month ++ "_" ++ two m.day ++ "_" ++ m.clockText ""

/-- The moment in a manifest, in universal time. -/
def exportText (m : Moment) : String :=
  toString m.year ++ "-" ++ two m.month ++ "-" ++ two m.day ++ "T" ++ m.clockText ":" ++ "+0000"

end Moment

end CrudScaffold.Calendar
