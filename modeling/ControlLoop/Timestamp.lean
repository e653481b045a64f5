/-!
# Timestamps

A point in universal time is written as a date and a time of day with nine
digits of a fraction. Days are counted from the first of March, so that the leap
day ends its year; four hundred years always have the same number of days.
-/

set_option autoImplicit false

namespace ControlLoop.Timestamp

/-- A day of the calendar. -/
structure Date where
  year : Nat
  month : Nat
  day : Nat
deriving DecidableEq, Repr

/-- The date that lies so many days after the first of January 1970. -/
def dateOfDays (days : Nat) : Date :=
  let z := days + 719468
  let era := z / 146097
  let dayOfEra := z % 146097
  let yearOfEra := (dayOfEra - dayOfEra / 1460 + dayOfEra / 36524 - dayOfEra / 146096) / 365
  let dayOfYear := dayOfEra - (365 * yearOfEra + yearOfEra / 4 - yearOfEra / 100)
  let marchMonth := (5 * dayOfYear + 2) / 153
  let month := if marchMonth < 10 then marchMonth + 3 else marchMonth - 9
  let year := yearOfEra + era * 400 + if month ≤ 2 then 1 else 0
  ⟨year, month, dayOfYear - (153 * marchMonth + 2) / 5 + 1⟩

/-- A number with leading zeros up to a width. -/
def padded (width n : Nat) : String :=
  let digits := (toString n).toList
  String.ofList (List.replicate (width - digits.length) '0' ++ digits)

/-- The text of the instant that lies so many nanoseconds after the start of 1970. -/
def render (nanoseconds : Nat) : String :=
  let seconds := nanoseconds / Nat.pow 10 9
  let date := dateOfDays (seconds / 86400)
  let ofDay := seconds % 86400
  padded 4 date.year ++ "-" ++ padded 2 date.month ++ "-" ++ padded 2 date.day ++ "T" ++
    padded 2 (ofDay / 3600) ++ ":" ++ padded 2 (ofDay / 60 % 60) ++ ":" ++ padded 2 (ofDay % 60) ++
    "." ++ padded 9 (nanoseconds % Nat.pow 10 9) ++ "Z"

end ControlLoop.Timestamp
