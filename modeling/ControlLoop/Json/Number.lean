import ControlLoop.Json.Basic
import ControlLoop.Text.Parser

/-!
# Reading numbers

A number without fraction and exponent that fits 64 bits, signed or unsigned,
is an integer. Every other number is a double. Its digits are gathered into a
significand of 64 bits, and digits that no longer fit are dropped: a dropped
digit before the point still counts as a power of ten. The significand and
the power of ten are each rounded to a double, and the result is their product
or quotient, rounded once more. A number too large for a double has no value.
-/

set_option autoImplicit false

namespace ControlLoop

/-- A number as it is written. -/
structure NumberText where
  negative : Bool
  /-- The digits before the point. -/
  whole : List Nat
  /-- The digits after the point, if there is one. -/
  fraction : Option (List Nat)
  /-- The power of ten, if there is one. -/
  exponent : Option Int
deriving DecidableEq

namespace NumberText

/-- The digits before the point: a single zero, or no leading zero. -/
def parseWhole : Parser (List Nat) := do
  let first ← Parser.digit 10
  if first = 0 then return [0] else return first :: (← Parser.many (Parser.digit 10))

/-- The point and the digits after it. -/
def parseFraction : Parser (List Nat) := do
  Parser.char '.'
  Parser.many1 (Parser.digit 10)

/-- The mark of the power of ten, its sign and its digits. -/
def parseExponent : Parser Int := do
  discard <| Parser.satisfy fun c => c == 'e' || c == 'E'
  let sign ← Parser.optional (Parser.satisfy fun c => c == '+' || c == '-')
  let digits ← Parser.many1 (Parser.digit 10)
  let size : Int := Parser.ofDigits 10 digits
  return if sign = some '-' then -size else size

/-- A number. -/
def parser : Parser NumberText := do
  let sign ← Parser.optional (Parser.char '-')
  return {
    negative := sign.isSome
    whole := ← parseWhole
    fraction := ← Parser.optional parseFraction
    exponent := ← Parser.optional parseExponent }

end NumberText

namespace Number

/-- Appends digits to a significand as long as it stays below `2 ^ 64`; returns it with the digits
left over. -/
def gather (significand : Nat) : List Nat → Nat × List Nat
  | [] => (significand, [])
  | d :: ds =>
    if significand * 10 + d < Nat.pow 2 64 then gather (significand * 10 + d) ds
    else (significand, d :: ds)

/-- The double nearest to a power of ten, up to the largest that is finite. -/
def powerOfTen (k : Nat) : Binary64 := .ofRatio false (Nat.pow 10 k) 1

/-- Divides by a power of ten, in steps of at most `10 ^ 308`, rounding after each. -/
def scaleDown (x : Binary64.Finite) (k : Nat) : Binary64 :=
  if x.isZero then .finite x
  else
    match powerOfTen (min k 308) with
    | .finite p =>
      match Binary64.divMagnitude x p with
      | .finite y => if 308 < k then scaleDown y (k - 308) else .finite y
      | other => other
    | other => other
termination_by k
decreasing_by omega

/-- Multiplies by a power of ten. There is no result above the largest finite double. -/
def scaleUp (x : Binary64.Finite) (k : Nat) : Binary64 :=
  if x.isZero then .finite x
  else if 308 < k then .infinite false
  else
    match powerOfTen k with
    | .finite p => Binary64.mulMagnitude x p
    | other => other

/-- The double `± significand * 10 ^ exponent`, unless it is too large. -/
def double? (negative : Bool) (significand : Nat) (exponent : Int) : Option Number :=
  match Binary64.ofNat significand with
  | .finite x =>
    let scaled :=
      if exponent < 0 then scaleDown x (-exponent).toNat else scaleUp x exponent.toNat
    match scaled with
    | .finite y => some (.double (if negative then y.neg else y))
    | _ => none
  | _ => none

/-- The value of a number as written. Minus zero is a double. -/
def ofText? (text : NumberText) : Option Number :=
  let (whole, dropped) := gather 0 text.whole
  if text.fraction.isNone ∧ text.exponent.isNone ∧ dropped.isEmpty then
    if !text.negative then some (.integer whole)
    else if 0 < whole ∧ whole ≤ Nat.pow 2 63 then some (.integer (-whole))
    else double? true whole 0
  else
    let fraction := text.fraction.getD []
    let (significand, rest) := gather whole fraction
    let shift : Int := (dropped.length : Int) - (fraction.length - rest.length : Nat)
    double? text.negative significand (shift + text.exponent.getD 0)

end Number

end ControlLoop
