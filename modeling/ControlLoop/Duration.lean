import ControlLoop.Binary64.Basic

/-!
# Durations

A length of time is a whole number of nanoseconds, and so is an instant, which
is a length of time since the clock started. Seconds given as a double become
the nearest number of nanoseconds.
-/

set_option autoImplicit false

namespace ControlLoop

/-- A length of time in nanoseconds. -/
abbrev Duration := Nat

/-- A point in time, as the time since the clock started. -/
abbrev Instant := Nat

namespace Duration

/-- Nanoseconds in a millisecond. -/
def millisecond : Duration := Nat.pow 10 6

/-- Nanoseconds in a second. -/
def second : Duration := Nat.pow 10 9

/-- A whole number of seconds. -/
def ofSeconds (n : Nat) : Duration := second * n

/-- A number of seconds in nanoseconds, a tie going to the even number. What is negative or no
number counts as zero. There is no duration of `2 ^ 64` seconds or more. -/
def ofBinary64? : Binary64 → Option Duration
  | .nan => some 0
  | .infinite negative => if negative then some 0 else none
  | .finite x =>
    if x.negative then some 0
    else
      let (num, den) := x.magnitude
      let d := roundHalfEven (num * second) den
      if d < ofSeconds (Nat.pow 2 64) then some d else none

/-- A fraction of so many digits after its point, or nothing if it is zero. -/
def fractionText (digits fraction : Nat) : String :=
  let padded := (toString (Nat.pow 10 digits + fraction)).toList.drop 1
  let kept := (padded.reverse.dropWhile (· == '0')).reverse
  if kept.isEmpty then "" else String.ofList ('.' :: kept)

/-- A duration in the largest unit of which it holds one, with its exact fraction. -/
def render (d : Duration) : String :=
  if second ≤ d then toString (d / second) ++ fractionText 9 (d % second) ++ "s"
  else if millisecond ≤ d then
    toString (d / millisecond) ++ fractionText 6 (d % millisecond) ++ "ms"
  else if 1000 ≤ d then toString (d / 1000) ++ fractionText 3 (d % 1000) ++ "µs"
  else toString d ++ "ns"

end Duration

end ControlLoop
