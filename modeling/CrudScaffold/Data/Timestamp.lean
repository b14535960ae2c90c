import CrudScaffold.Calendar.Moment

/-!
# CrudScaffold.Data.Timestamp — days and moments in a settings file

A timestamp is a day of the calendar, with or without a time of day; the time may name its distance from universal
time.  What is written need not exist: `fault?` tells what is wrong with a timestamp.  Two timestamps are the same if
they name the same day, or the same moment (`same`).
-/

namespace CrudScaffold.Data

open CrudScaffold.Calendar

/-- A time of day; `offset` is the number of minutes by which its zone is ahead of universal time. -/
structure ClockTime where
  hour : Nat
  minute : Nat
  second : Nat
  micro : Nat
  offset : Option Int
  deriving DecidableEq, Repr

/-- A day, with or without a time of day. -/
structure Timestamp where
  year : Nat
  month : Nat
  day : Nat
  time : Option ClockTime
  deriving DecidableEq, Repr

/-- Why a timestamp names nothing. -/
inductive TimestampFault where
  /-- The zone is a day or more away from universal time. -/
  | offset (minutes : Int)
  | year (number : Nat)
  | month
  | day
  | hour
  | minute
  | second
  deriving DecidableEq, Repr

/-- A span of minutes, as it is shown: whole days, rounded down, and the seconds beyond them. -/
def displayMinutes (minutes : Int) : String :=
  let seconds := minutes * 60
  let days := Int.fdiv seconds daySeconds
  let beyond := Int.fmod seconds daySeconds
  let parts := (if days = 0 then [] else [s!"days={days}"]) ++ if beyond = 0 then [] else [s!"seconds={beyond}"]
  let shown := if parts.isEmpty then "0" else ", ".intercalate parts
  s!"datetime.timedelta({shown})"

/-- The wording of a fault. -/
def TimestampFault.message : TimestampFault → String
  | .offset minutes =>
    "offset must be a timedelta strictly between -timedelta(hours=24) and timedelta(hours=24), not " ++
      displayMinutes minutes ++ "."
  | .year number => s!"year {number} is out of range"
  | .month => "month must be in 1..12"
  | .day => "day is out of range for month"
  | .hour => "hour must be in 0..23"
  | .minute => "minute must be in 0..59"
  | .second => "second must be in 0..59"

/-- What is wrong with a time of day, its zone apart. -/
def ClockTime.fault? (t : ClockTime) : Option TimestampFault :=
  if 23 < t.hour then some .hour
  else if 59 < t.minute then some .minute
  else if 59 < t.second then some .second
  else none

/-- What is wrong with the zone of a time of day. -/
def ClockTime.zoneFault? (t : ClockTime) : Option TimestampFault :=
  t.offset.bind fun minutes => if minutes.natAbs < 24 * 60 then none else some (.offset minutes)

namespace Timestamp

/-- What is wrong with the day. -/
def dayFault? (t : Timestamp) : Option TimestampFault :=
  if t.year = 0 ∨ lastYear < t.year then some (.year t.year)
  else if t.month = 0 ∨ 12 < t.month then some .month
  else if t.day = 0 ∨ daysIn t.year t.month < t.day then some .day
  else none

/-- What is wrong with a timestamp: the zone is looked at first, then the day, then the time. -/
def fault? (t : Timestamp) : Option TimestampFault :=
  (t.time.bind ClockTime.zoneFault?).or (t.dayFault?.or (t.time.bind ClockTime.fault?))

/-- The number of days from the first day of the calendar to the day. -/
def dayNumber (t : Timestamp) : Nat :=
  let past := t.year - 1
  let before := ((List.range (t.month - 1)).map fun m => daysIn t.year (m + 1)).foldr (· + ·) 0
  365 * past + past / 4 - past / 100 + past / 400 + before + (t.day - 1)

/-- The number of microseconds from the first day of the calendar, in universal time, to a time of the day. -/
def instant (t : Timestamp) (time : ClockTime) (offset : Int) : Int :=
  let minutes : Int := t.dayNumber * 1440 + time.hour * 60 + time.minute - offset
  (minutes * 60 + time.second) * 1000000 + time.micro

/-- Two timestamps are the same.  A time with a zone is never the same as one without. -/
def same (a b : Timestamp) : Bool :=
  match a.time, b.time with
  | some s, some t => match s.offset, t.offset with
    | some x, some y => a.instant s x == b.instant t y
    | _, _ => a == b
  | _, _ => a == b

/-- A number with at least six digits. -/
def six (n : Nat) : String :=
  let digits := toString n
  String.ofList (List.replicate (6 - digits.length) '0') ++ digits

/-- A timestamp as plain text: the day, the time of day, and the distance from universal time. -/
def text (t : Timestamp) : String :=
  let day := Moment.four t.year ++ "-" ++ Moment.two t.month ++ "-" ++ Moment.two t.day
  match t.time with
  | none => day
  | some c =>
    let micro := if c.micro = 0 then "" else "." ++ six c.micro
    let zone := match c.offset with
      | none => ""
      | some offset =>
        (if offset < 0 then "-" else "+") ++ Moment.two (offset.natAbs / 60) ++ ":" ++ Moment.two (offset.natAbs % 60)
    day ++ " " ++ Moment.two c.hour ++ ":" ++ Moment.two c.minute ++ ":" ++ Moment.two c.second ++ micro ++ zone

/-- A zone, as it is shown. -/
def displayZone (offset : Int) : String :=
  if offset = 0 then "datetime.timezone.utc" else "datetime.timezone(" ++ displayMinutes offset ++ ")"

/-- A timestamp, as it is shown: seconds and microseconds only as far as they are needed. -/
def display (t : Timestamp) : String :=
  let parts (numbers : List Nat) : String := ", ".intercalate (numbers.map toString)
  match t.time with
  | none => "datetime.date(" ++ parts [t.year, t.month, t.day] ++ ")"
  | some c =>
    let seconds := if c.micro ≠ 0 then [c.second, c.micro] else if c.second ≠ 0 then [c.second] else []
    let zone := match c.offset with
      | some offset => ", tzinfo=" ++ displayZone offset
      | none => ""
    "datetime.datetime(" ++ parts ([t.year, t.month, t.day, c.hour, c.minute] ++ seconds) ++ zone ++ ")"

end Timestamp

end CrudScaffold.Data
