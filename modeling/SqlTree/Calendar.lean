import SqlTree.Decimal.Notation

/-!
# Dates and times of day

Calendar values as they stand in a literal: year, month and day, and a time of day to the second.
-/

namespace SqlTree

/-- A day of the calendar; years before the first are zero or negative. -/
structure Date where
  year : Int
  month : Nat
  day : Nat
  deriving DecidableEq, Repr

/-- A day and a time on it. A leap second is second 59 with a thousand million nanoseconds or
more. -/
structure Timestamp where
  date : Date
  hour : Nat
  minute : Nat
  second : Nat
  nanosecond : Nat
  deriving DecidableEq, Repr

/-- A year has at least four digits, and a sign when it is not one of the years 0 to 9999. -/
def Date.yearText (d : Date) : String :=
  let digits := Decimal.padded 4 d.year.natAbs
  if d.year < 0 then "-" ++ digits
  else if 9999 < d.year then "+" ++ digits
  else digits

/-- Year, month and day. -/
def Date.text (d : Date) : String :=
  d.yearText ++ "-" ++ Decimal.padded 2 d.month ++ "-" ++ Decimal.padded 2 d.day

/-- The second as it is written: 60 for a leap second. -/
def Timestamp.shownSecond (t : Timestamp) : Nat := t.second + t.nanosecond / 1000000000

/-- Day and time to the second. -/
def Timestamp.text (t : Timestamp) : String :=
  t.date.text ++ " " ++ Decimal.padded 2 t.hour ++ ":" ++ Decimal.padded 2 t.minute ++ ":" ++
    Decimal.padded 2 t.shownSecond

end SqlTree
