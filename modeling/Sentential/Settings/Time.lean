/-!
# Dates and times

A document may hold a date or a time where a setting belongs. Both are of the calendar with its
leap years, and a time may be given with its distance from the time zone of reference. The
message that refuses one shows its parts from the year on; of a time it leaves out the fraction
of a second, and with it the second, if they are zero.
-/

namespace Sentential

/-- The year has a twenty-ninth of February. -/
def isLeapYear (year : Nat) : Bool := year % 4 = 0 && (year % 100 != 0 || year % 400 = 0)

/-- The number of days of a month. -/
def daysOfMonth (year month : Nat) : Nat :=
  if month = 2 then if isLeapYear year then 29 else 28
  else if month = 4 ∨ month = 6 ∨ month = 9 ∨ month = 11 then 30
  else 31

/-- A day of the calendar. -/
structure Date where
  year : Nat
  month : Nat
  day : Nat
  year_mem : 1 ≤ year ∧ year ≤ 9999
  month_mem : 1 ≤ month ∧ month ≤ 12
  day_mem : 1 ≤ day ∧ day ≤ daysOfMonth year month
  deriving DecidableEq, Repr

/-- A time on a day, to the millionth of a second. -/
structure Moment where
  date : Date
  hour : Nat
  minute : Nat
  second : Nat
  millionths : Nat
  /-- The time zone, as minutes to the east of the zone of reference. -/
  zone : Option Int
  hour_lt : hour < 24
  minute_lt : minute < 60
  second_lt : second < 60
  millionths_lt : millionths < 1000000
  zone_lt : ∀ z ∈ zone, z.natAbs < 1440
  deriving DecidableEq, Repr

namespace Date

/-- The day with these numbers, if there is one. -/
def ofNumbers? (year month day : Nat) : Option Date :=
  if h : (1 ≤ year ∧ year ≤ 9999) ∧ (1 ≤ month ∧ month ≤ 12) ∧ 1 ≤ day ∧ day ≤ daysOfMonth year month then
    some ⟨year, month, day, h.1, h.2.1, h.2.2⟩
  else none

/-- The numbers of a day. -/
def numbers (d : Date) : List Nat := [d.year, d.month, d.day]

/-- The number of days before this one, counted from the first day of year 1. -/
def daysBefore (d : Date) : Nat :=
  let y := d.year - 1
  let months := (List.range' 1 (d.month - 1)).map (daysOfMonth d.year)
  365 * y + y / 4 - y / 100 + y / 400 + months.foldl (· + ·) 0 + (d.day - 1)

/-- The text of a day in messages. -/
def text (d : Date) : String := "datetime.date(" ++ ", ".intercalate (d.numbers.map toString) ++ ")"

end Date

namespace Moment

/-- The time with these numbers, if there is one. -/
def ofNumbers? (date : Date) (hour minute second millionths : Nat) (zone : Option Int) : Option Moment :=
  if h : hour < 24 ∧ minute < 60 ∧ second < 60 ∧ millionths < 1000000 ∧ ∀ z ∈ zone, z.natAbs < 1440 then
    some ⟨date, hour, minute, second, millionths, zone, h.1, h.2.1, h.2.2.1, h.2.2.2.1, h.2.2.2.2⟩
  else none

/-- The numbers of a time that messages show. -/
def numbers (m : Moment) : List Nat :=
  m.date.numbers ++ [m.hour, m.minute] ++
    if m.millionths ≠ 0 then [m.second, m.millionths]
    else if m.second ≠ 0 then [m.second]
    else []

/-- The text of a time zone in messages. A zone to the west counts from the day before. -/
def zoneText (minutes : Int) : String :=
  if minutes = 0 then "datetime.timezone.utc"
  else
    let distance :=
      if 0 < minutes then "seconds=" ++ toString (60 * minutes)
      else "days=-1, seconds=" ++ toString (86400 + 60 * minutes)
    "datetime.timezone(datetime.timedelta(" ++ distance ++ "))"

/-- The text of a time in messages. -/
def text (m : Moment) : String :=
  let zone := (m.zone.map fun z => "tzinfo=" ++ zoneText z).toList
  "datetime.datetime(" ++ ", ".intercalate (m.numbers.map toString ++ zone) ++ ")"

/-- The millionths of a second from the start of year 1, in the zone of reference. -/
def instant (m : Moment) (zone : Int) : Int :=
  let minutes := (24 * m.date.daysBefore + m.hour) * 60 + m.minute - zone
  (minutes * 60 + m.second) * 1000000 + m.millionths

/-- Two times are the same: with zones, if they are the same in the zone of reference, and otherwise if they
are given alike. -/
def same (a b : Moment) : Bool :=
  match a.zone, b.zone with
  | some y, some z => a.instant y == b.instant z
  | _, _ => a == b

end Moment

end Sentential
