import Formula.Number.Power
import Formula.Text.Digits

/-!
# Dates and times of day

A `DateTime` is a day of the proleptic Gregorian calendar and a wall-clock time without time zone. A
time may lie in a leap second, which is the second after 59 with nanoseconds from `10 ^ 9` on.

Two texts are made of a date and time: month, day and year without padding, and the ISO form. Both
leave out the time at midnight, but they judge midnight differently: the first looks at the
nanoseconds too, the second at whole seconds only.
-/

namespace Formula

open NaturalPower

/-- Whether a year has a 29 February. -/
def isLeapYear (year : Int) : Bool := year % 4 == 0 && (year % 100 != 0 || year % 400 == 0)

/-- The number of days of a month. -/
def daysInMonth (year : Int) (month : Nat) : Nat :=
  if month = 2 then (if isLeapYear year then 29 else 28)
  else if month = 4 ∨ month = 6 ∨ month = 9 ∨ month = 11 then 30
  else 31

/-- A day of the proleptic Gregorian calendar. -/
structure Date where
  year : Int
  month : Nat
  day : Nat
  valid : 1 ≤ month ∧ month ≤ 12 ∧ 1 ≤ day ∧ day ≤ daysInMonth year month
  deriving DecidableEq

/-- A time of day with nanoseconds; those from `10 ^ 9` on are the leap second after 59. -/
structure TimeOfDay where
  hour : Nat
  minute : Nat
  second : Nat
  nanosecond : Nat
  valid : hour < 24 ∧ minute < 60 ∧ second < 60 ∧
    (nanosecond < 10 ^ (9 : Nat) ∨ second = 59 ∧ nanosecond < 2 * 10 ^ (9 : Nat))
  deriving DecidableEq

/-- A day and a time of day. -/
structure DateTime where
  date : Date
  time : TimeOfDay
  deriving DecidableEq

/-- The day with the given fields, if the calendar has it. -/
def Date.ofFields? (year : Int) (month day : Nat) : Option Date :=
  if h : _ then some ⟨year, month, day, h⟩ else none

/-- The time with the given fields, if the clock shows it. -/
def TimeOfDay.ofFields? (hour minute second nanosecond : Nat) : Option TimeOfDay :=
  if h : _ then some ⟨hour, minute, second, nanosecond, h⟩ else none

/-- The start of a day. -/
def TimeOfDay.midnight : TimeOfDay := ⟨0, 0, 0, 0, by decide⟩

/-- The order of days. -/
def Date.compare (a b : Date) : Ordering :=
  (Ord.compare a.year b.year).then ((Ord.compare a.month b.month).then (Ord.compare a.day b.day))

/-- The order of times, the nanoseconds of a leap second following those of the second before it. -/
def TimeOfDay.compare (a b : TimeOfDay) : Ordering :=
  (Ord.compare a.hour b.hour).then ((Ord.compare a.minute b.minute).then
    ((Ord.compare a.second b.second).then (Ord.compare a.nanosecond b.nanosecond)))

/-- The order of points in time. -/
def DateTime.compare (a b : DateTime) : Ordering :=
  (a.date.compare b.date).then (a.time.compare b.time)

/-! ## Texts -/

/-- A number with at least two digits. -/
def twoDigits (n : Nat) : String := String.ofList (Text.padLeft 2 (Text.digitsOfNat n))

/-- A year with at least four digits, and with a sign outside the years 0 to 9999. -/
def yearText (year : Int) : String :=
  (if year < 0 then "-" else if 9999 < year then "+" else "") ++
    String.ofList (Text.padLeft 4 (Text.digitsOfNat year.natAbs))

/-- The second as a clock shows it, 60 in a leap second. -/
def TimeOfDay.shownSecond (time : TimeOfDay) : Nat :=
  time.second + time.nanosecond / 10 ^ (9 : Nat)

/-- Minutes and seconds of a time, each with two digits. -/
def TimeOfDay.minuteText (time : TimeOfDay) : String :=
  twoDigits time.minute ++ ":" ++ twoDigits time.shownSecond

/-- Month, day and year, and the time unless it is exactly midnight. -/
def DateTime.text (a : DateTime) : String :=
  let day := a.date.month.repr ++ "/" ++ a.date.day.repr ++ "/" ++ yearText a.date.year
  if a.time = .midnight then day
  else day ++ " " ++ a.time.hour.repr ++ ":" ++ a.time.minuteText

/-- The ISO form of the day, and the time unless it is in the first second of the day. -/
def DateTime.isoText (a : DateTime) : String :=
  let day := yearText a.date.year ++ "-" ++ twoDigits a.date.month ++ "-" ++ twoDigits a.date.day
  if a.time.hour = 0 ∧ a.time.minute = 0 ∧ a.time.second = 0 then day
  else day ++ "T" ++ twoDigits a.time.hour ++ ":" ++ a.time.minuteText

end Formula
